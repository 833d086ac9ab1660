import Clickstream.Main
import Clickstream.Server.Lifecycle
import Clickstream.Proofs.ByTag
import Clickstream.Proofs.Assembly
import Clickstream.Proofs.SessionIsolation
import Clickstream.Proofs.Funnels
import Clickstream.Proofs.Paths
import Clickstream.Proofs.Reading
import Clickstream.Proofs.ItemFiles
import Clickstream.Proofs.LastRead
import Clickstream.Proofs.StoreCalls
import Clickstream.Proofs.Reopening
import Clickstream.Proofs.FileSharing
import Clickstream.Proofs.Deactivation
import Clickstream.Proofs.WaitingGoals
import Clickstream.Proofs.Retention
import Clickstream.Proofs.Discovery
import Clickstream.Proofs.Starting
import Clickstream.Proofs.Interruptions
import Clickstream.Proofs.Contents
import Clickstream.Proofs.LogicalTrees
import Clickstream.Proofs.Progress
import Clickstream.Proofs.Reencoding
import Clickstream.Proofs.Entities
import Clickstream.Proofs.RemovedGoals
import Clickstream.Proofs.Forest
import Clickstream.Proofs.Comparisons
import Clickstream.Proofs.Sorting
import Clickstream.Proofs.CountTexts
import Clickstream.Proofs.StoredEvents
import Clickstream.Proofs.EventCounts
import Clickstream.Proofs.Calendar
import Clickstream.Proofs.TimeTexts
import Clickstream.Proofs.LastOccurrence
import Clickstream.Proofs.Negations
import Clickstream.Proofs.Terms
import Clickstream.Proofs.DateBuckets
import Clickstream.Proofs.Duality
import Clickstream.Proofs.Outline
import Clickstream.Proofs.Reloading
import Clickstream.Proofs.Misfits
