import Clickstream.Proofs.GoalItems

/-! # Entities and their items

There are five kinds of records that a store keeps. The item of a record tells all that the record
holds, flat or not, but for the types that the conditions of goals and rules were resolved to. It
reads as a record of its own kind and of no other.
-/

namespace Clickstream

/-! ## Reading one kind -/

theorem Item.toEntity_of_ofDocument? {α : Type} [Entity α] {entity entity' : α}
    (read : Entity.ofDocument? (Document.ofJson (.object
      ((ofEntity entity).body.insert "itemId" (.string (ofEntity entity).id)))) = some entity') :
    (ofEntity entity).toEntity α = .ok entity' := by
  rw [toEntity, if_neg (fun other => other rfl)]
  simp only [read]

theorem Item.toEntity_of_ne {α β : Type} [Entity α] [Entity β] {entity : α}
    (other : Entity.itemType α ≠ Entity.itemType β) : (ofEntity entity).toEntity β =
      .error (.wrongItemType (Entity.itemType β) (Entity.itemType α)) := by
  rw [toEntity, if_pos (show (ofEntity entity).type ≠ Entity.itemType β from other)]
  rfl

theorem Document.timeStamp?_string {t : Time.Instant} (read : Time.relaxed? t.text = some t) :
    timeStamp? (.string t.text) = some t := by
  rw [timeStamp?, string?_string, Option.bind_some, read]

theorem Profile.toEntity_ofEntity {p : Profile}
    (ordered : Json.ordered p.properties = p.properties) :
    (Item.ofEntity p).toEntity Profile = .ok p := by
  have written : Entity.fields p = ("itemId", .string p.id) :: Record.written
      [["properties"], ["segments"]]
      [some (.object p.properties), some (Json.ofStrings p.segments.toList)] := rfl
  have record := Item.record?_ofEntity_beside (by decide) (by decide) rfl written
  refine Item.toEntity_of_ofDocument? ?_
  simp only [Entity.ofDocument?, ofDocument?, record]
  simp [ordered, Entity.id]

theorem Session.toEntity_ofEntity {s : Session}
    (ordered : Json.ordered s.properties = s.properties)
    (read : Time.relaxed? s.timeStamp.text = some s.timeStamp) :
    (Item.ofEntity s).toEntity Session = .ok s := by
  have written : Entity.fields s = ("itemId", .string s.id) :: Record.written
      [["profileId"], ["timeStamp"], ["properties"]]
      [some (.string s.profileId), some (.string s.timeStamp.text),
        some (.object s.properties)] := rfl
  have record := Item.record?_ofEntity_beside (by decide) (by decide) rfl written
  refine Item.toEntity_of_ofDocument? ?_
  simp only [Entity.ofDocument?, ofDocument?, record]
  simp [Document.timeStamp?_string read, ordered, Entity.id]

theorem Event.toEntity_ofEntity {e : Event}
    (ordered : Json.ordered e.properties = e.properties)
    (read : Time.relaxed? e.timeStamp.text = some e.timeStamp) :
    (Item.ofEntity e).toEntity Event = .ok e := by
  have written : Entity.fields e = ("itemId", .string e.id) :: Record.written
      [["eventType"], ["sessionId"], ["profileId"], ["timeStamp"], ["properties"]]
      [some (.string e.eventType), some (.string e.sessionId), some (.string e.profileId),
        some (.string e.timeStamp.text), some (.object e.properties)] := rfl
  have record := Item.record?_ofEntity_beside (by decide) (by decide) rfl written
  refine Item.toEntity_of_ofDocument? ?_
  simp only [Entity.ofDocument?, ofDocument?, record]
  simp [Document.timeStamp?_string read, ordered, Entity.id]

/-! ## Conditions without their types -/

/-- The condition with its type no longer resolved. -/
def Condition.bare (c : Condition) : Condition := { c with resolved := none }

theorem Condition.IsCanonical.kept_eq_bare {c : Condition} (h : c.IsCanonical) :
    c.kept = c.bare :=
  congrArg (Condition.mk c.typeId · none) h

def Goal.bare (g : Goal) : Goal :=
  { g with
    startEvent := g.startEvent.map Condition.bare
    targetEvent := g.targetEvent.map Condition.bare }

theorem Goal.IsCanonical.kept_eq_bare {g : Goal} (h : g.IsCanonical) : g.kept = g.bare := by
  have event : ∀ event : Option Condition, (∀ c, event = some c → c.IsCanonical) →
      event.map Condition.kept = event.map Condition.bare := by
    intro event canonical
    cases event with
    | none => rfl
    | some c => exact congrArg some (canonical c rfl).kept_eq_bare
  rw [kept, bare, event _ h.startEvent, event _ h.targetEvent]

def Rule.bare (r : Rule) : Rule := { r with condition := r.condition.bare }

/-- The parameters of the condition and of the actions are in canonical form. -/
structure Rule.IsCanonical (r : Rule) : Prop where
  condition : r.condition.IsCanonical
  actions : ∀ a ∈ r.actions, Json.ordered a.parameters = a.parameters

theorem Rule.IsCanonical.kept_eq_bare {r : Rule} (h : r.IsCanonical) : r.kept = r.bare := by
  have actions : r.actions.map Action.kept = r.actions := by
    refine (List.map_congr_left fun a member => ?_).trans (List.map_id' r.actions)
    exact congrArg (Action.mk a.typeId) (h.actions a member)
  rw [kept, bare, h.condition.kept_eq_bare, actions]

/-! ## All kinds -/

/-- A kind of record. -/
inductive EntityKind where
  | profile
  | session
  | event
  | goal
  | rule

namespace EntityKind

def Record : EntityKind → Type
  | profile => Profile
  | session => Session
  | event => Event
  | goal => Goal
  | rule => Rule

instance entity : (kind : EntityKind) → Entity kind.Record
  | profile => inferInstanceAs (Entity Profile)
  | session => inferInstanceAs (Entity Session)
  | event => inferInstanceAs (Entity Event)
  | goal => inferInstanceAs (Entity Goal)
  | rule => inferInstanceAs (Entity Rule)

/-- The record with no type of a condition resolved: conditions and actions are told apart by their
type ids and parameters only. -/
def bare : {kind : EntityKind} → kind.Record → kind.Record
  | profile, p => p
  | session, s => s
  | event, e => e
  | goal, g => Goal.bare g
  | rule, r => Rule.bare r

/-- All free-form fields are in canonical form, as every map of values is, and the time stamp reads
back from the text that it is written as. -/
def Faithful : {kind : EntityKind} → kind.Record → Prop
  | profile, (p : Profile) => Json.ordered p.properties = p.properties
  | session, (s : Session) =>
    Json.ordered s.properties = s.properties ∧ Time.relaxed? s.timeStamp.text = some s.timeStamp
  | event, (e : Event) =>
    Json.ordered e.properties = e.properties ∧ Time.relaxed? e.timeStamp.text = some e.timeStamp
  | goal, g => Goal.IsCanonical g
  | rule, r => Rule.IsCanonical r

theorem toEntity_ofEntity {kind : EntityKind} {record : kind.Record} (faithful : Faithful record) :
    (Item.ofEntity record).toEntity kind.Record = .ok (bare record) := by
  cases kind with
  | profile => exact Profile.toEntity_ofEntity faithful
  | session => exact Session.toEntity_ofEntity faithful.1 faithful.2
  | event => exact Event.toEntity_ofEntity faithful.1 faithful.2
  | goal => exact Goal.toEntity_ofEntity.trans (congrArg _ (Goal.IsCanonical.kept_eq_bare faithful))
  | rule => exact Rule.toEntity_ofEntity.trans (congrArg _ (Rule.IsCanonical.kept_eq_bare faithful))

/-- The item type of a kind. -/
def name : EntityKind → String
  | profile => "profile"
  | session => "session"
  | event => "event"
  | goal => "goal"
  | rule => "rule"

theorem itemType_eq_name {kind : EntityKind} : Entity.itemType kind.Record = kind.name := by
  cases kind <;> rfl

theorem name_inj {kind other : EntityKind} (h : kind.name = other.name) : kind = other := by
  cases kind <;> cases other <;> first | rfl | simp [name] at h

/-- The item of a record has its id and type and no field named like these. It reads as the record
and so does the flat item, with its fields in either order; as another kind of record it does not
read. -/
theorem ofEntity_faithful {kind : EntityKind} {record : kind.Record}
    (faithful : Faithful record) :
    (Item.ofEntity record).id = Entity.id record ∧
    (Item.ofEntity record).type = Entity.itemType kind.Record ∧
    (∀ field ∈ (Item.ofEntity record).body, field.1 ≠ "itemId" ∧ field.1 ≠ "itemType") ∧
    (Item.ofEntity record).toEntity kind.Record = .ok (bare record) ∧
    (∀ layout : Layout, ∃ item,
      Item.ofDocument? (layout.document (Item.ofEntity record).toJson) = some item ∧
      item.toEntity kind.Record = .ok (bare record)) ∧
    ∀ other, other ≠ kind → (Item.ofEntity record).toEntity other.Record =
      .error (.wrongItemType (Entity.itemType other.Record) (Entity.itemType kind.Record)) := by
  refine ⟨rfl, rfl, ?_, toEntity_ofEntity faithful, ?_, ?_⟩
  · exact fun field member => Item.ne_reserved.1 (Item.unreserved_ofEntity field member)
  · intro layout
    exact ⟨Item.ofEntity record,
      Item.ofDocument?_toJson layout Item.ordered_ofEntity Item.unreserved_ofEntity,
      toEntity_ofEntity faithful⟩
  · intro other different
    refine Item.toEntity_of_ne fun same => different (name_inj ?_).symm
    rw [← itemType_eq_name, ← itemType_eq_name, same]

/-- A session with a property inside a property, at the beginning of time. -/
theorem ofEntity_faithful_session :
    let s : Session :=
      { id := "s1", profileId := "p1", timeStamp := ⟨0, 0⟩,
        properties := [("page", .object [("path", .string "/")])] }
    (Item.ofEntity s).toEntity Session = .ok s ∧
      (Item.ofEntity s).toEntity Event = .error (.wrongItemType "event" "session") := by
  intro s
  have faithful : @Faithful .session s := ⟨rfl, by decide +kernel⟩
  obtain ⟨_, _, _, reads, _, others⟩ := @ofEntity_faithful .session s faithful
  exact ⟨reads, others .event EntityKind.noConfusion⟩

end EntityKind

end Clickstream
