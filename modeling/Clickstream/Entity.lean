import Clickstream.Item
import Clickstream.Store.Error
import Clickstream.Time.Reader

/-! # Entities

Records with a type of their own that a store keeps as items: the item has the id of the record and
all its other fields as the body. An item reads back as a record of its own type only.
-/

namespace Clickstream

/-- A record that a store can keep. -/
class Entity (α : Type) where
  itemType : String
  id : α → String
  /-- The fields, in the order of their declaration. -/
  fields : α → List (String × Json)
  ofDocument? : Document → Option α

def Item.ofEntity [Entity α] (entity : α) : Item where
  id := Entity.id entity
  type := Entity.itemType α
  body :=
    (Fields.sorted (Json.canonicalFields (Entity.fields entity))).filter
      fun f => !Item.isReserved f.1

def Item.toEntity (α : Type) [Entity α] (item : Item) : Except StoreError α :=
  if item.type ≠ Entity.itemType α then .error (.wrongItemType (Entity.itemType α) item.type)
  else
    let fields := Fields.insert item.body "itemId" (.string item.id)
    match Entity.ofDocument? (Document.ofJson (.object fields)) with
    | some entity => .ok entity
    | none => .error .serialization

structure Profile where
  id : String
  /-- What is known of the visitor. -/
  properties : Fields Json := []
  /-- The segments that the visitor is in. -/
  segments : IdSet := {}
  deriving Inhabited

structure Session where
  id : String
  profileId : String
  timeStamp : Time.Instant
  /-- What is known of the visit. -/
  properties : Fields Json := []
  deriving Inhabited

/-- Something that happened during a visit. -/
structure Event where
  id : String
  eventType : String
  sessionId : String
  profileId : String
  timeStamp : Time.Instant
  /-- What is known of the event. -/
  properties : Fields Json := []
  deriving Inhabited

/-- A time stamp in relaxed notation. -/
def Document.timeStamp? (d : Document) : Option Time.Instant := d.string?.bind Time.relaxed?

namespace Profile

def ofDocument? (d : Document) : Option Profile := do
  match ← d.record? [["itemId"], ["properties"], ["segments"]] with
  | [id, properties, segments] =>
    return {
      id := ← Document.required Document.string? id
      properties := ← Document.defaulting [] Document.fields? properties
      segments := ← Document.defaulting {} Document.idSet? segments }
  | _ => none

instance : Entity Profile where
  itemType := "profile"
  id := Profile.id
  fields p := [("itemId", .string p.id), ("properties", .object p.properties),
    ("segments", Json.ofStrings p.segments.toList)]
  ofDocument? := ofDocument?

end Profile

namespace Session

def ofDocument? (d : Document) : Option Session := do
  match ← d.record? [["itemId"], ["profileId"], ["timeStamp"], ["properties"]] with
  | [id, profileId, timeStamp, properties] =>
    return {
      id := ← Document.required Document.string? id
      profileId := ← Document.required Document.string? profileId
      timeStamp := ← Document.required Document.timeStamp? timeStamp
      properties := ← Document.defaulting [] Document.fields? properties }
  | _ => none

instance : Entity Session where
  itemType := "session"
  id := Session.id
  fields s := [("itemId", .string s.id), ("profileId", .string s.profileId),
    ("timeStamp", .string s.timeStamp.text), ("properties", .object s.properties)]
  ofDocument? := ofDocument?

end Session

namespace Event

def ofDocument? (d : Document) : Option Event := do
  match ← d.record? [["itemId"], ["eventType"], ["sessionId"], ["profileId"], ["timeStamp"],
      ["properties"]] with
  | [id, eventType, sessionId, profileId, timeStamp, properties] =>
    return {
      id := ← Document.required Document.string? id
      eventType := ← Document.required Document.string? eventType
      sessionId := ← Document.required Document.string? sessionId
      profileId := ← Document.required Document.string? profileId
      timeStamp := ← Document.required Document.timeStamp? timeStamp
      properties := ← Document.defaulting [] Document.fields? properties }
  | _ => none

instance : Entity Event where
  itemType := "event"
  id := Event.id
  fields e := [("itemId", .string e.id), ("eventType", .string e.eventType),
    ("sessionId", .string e.sessionId), ("profileId", .string e.profileId),
    ("timeStamp", .string e.timeStamp.text), ("properties", .object e.properties)]
  ofDocument? := ofDocument?

/-- An event of a session, at the time the session began. -/
def inSession (session : Session) (id eventType : String) (properties : Fields Json) : Event :=
  { id, eventType, sessionId := session.id, profileId := session.profileId,
    timeStamp := session.timeStamp, properties }

end Event

end Clickstream
