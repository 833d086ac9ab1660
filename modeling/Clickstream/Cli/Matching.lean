import Clickstream.Cli.Program

/-! # Matching on the command line

Whether a profile in a session satisfies the condition of a file. Profile and session come from the
store; without them a nameless profile in a session that has just begun is taken.
-/

namespace Clickstream.Cli

/-- A record of the store. -/
def loadEntity (α : Type) [Entity α] (id : String) : Program α := do
  let type := Entity.itemType α
  match (← get).engine.store.load type id with
  | none => Program.fail (type ++ " not found: " ++ id)
  | some item => Program.ofExcept StoreError.message (item.toEntity α)

/-- The profile of an id, or a nameless one. -/
def profileOrNew : Option String → Program Profile
  | some id => loadEntity Profile id
  | none => return { id := "anonymous" }

/-- The session of an id, or a new one of a profile. -/
def sessionOrNew (now : Time.Instant) (profile : Profile) : Option String → Program Session
  | some id => loadEntity Session id
  | none => return { id := "cli-session", profileId := profile.id, timeStamp := now }

/-- Tell whether the condition of a file is satisfied. -/
def printMatch (config : ServerConfig) (now : Time.Instant) (file : String)
    (profile session : Option String) : Program Unit := do
  let text ← Program.readFile file
  Program.openServer config
  let profile ← profileOrNew profile
  let session ← sessionOrNew now profile session
  let outcome := Evaluation.evaluateText ((← get).engine.facts profile session) text
  Program.log outcome.lines
  match outcome.value with
  | .ok satisfied => Program.printLine (if satisfied then "true" else "false")
  | .error e => Program.fail ("store error: " ++ e.message)

end Clickstream.Cli
