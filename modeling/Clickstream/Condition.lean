import Clickstream.Vocabulary
import Clickstream.Json.Writer

/-! # Conditions

A condition names its type and carries free-form parameters. Conditions inside a condition are kept
as plain values among the parameters and are only read when they are needed, so a condition that is
written reads back unchanged; each read takes a value out of the parameters it was read from, which
bounds the nesting.
-/

namespace Clickstream

/-- Why a parameter does not hold conditions. -/
inductive MalformedCondition where
  /-- A value inside is no condition document. -/
  | notADocument
  /-- The parameter is neither a list nor an object. -/
  | notAParameter (name typeId : String) (value : Json)

def MalformedCondition.message : MalformedCondition → String
  | notADocument => "malformed condition: " ++ Document.misfit
  | notAParameter name typeId value =>
    "malformed condition: parameter '" ++ name ++ "' of '" ++ typeId ++ "' is not a condition: "
      ++ value.compact

structure Condition where
  typeId : String
  parameters : Fields Json := []
  resolved : Option ClassifiedType := none
  deriving Inhabited

namespace Condition

/-- The names of the fields of a condition document. -/
def fieldNames : List (List String) := [["type", "conditionTypeId"], ["parameterValues"]]

def ofDocument? (d : Document) : Option Condition := do
  match ← d.record? fieldNames with
  | [typeId, parameters] =>
    return {
      typeId := ← Document.required Document.string? typeId
      parameters := ← Document.defaulting [] Document.fields? parameters }
  | _ => none

/-- A condition from the values of its two fields. -/
def ofParts? : List (Option Json) → Option Condition
  | [some (.string typeId), none] => some { typeId }
  | [some (.string typeId), some (.object parameters)] => some { typeId, parameters }
  | _ => none

/-- Read a condition from a value. -/
def ofJson? : Json → Option Condition
  | .array items => (Record.ofItems? fieldNames items).bind ofParts?
  | .object fields => (Record.ofFields? fieldNames fields).bind ofParts?
  | _ => none

def toJson (c : Condition) : Json :=
  .object [("type", .string c.typeId), ("parameterValues", .object c.parameters)]

/-- The condition as a value among parameters. -/
def toValue (c : Condition) : Json := c.toJson.canonical

/-- Whether two conditions have the same type and parameters. -/
def same (a b : Condition) : Bool :=
  a.typeId == b.typeId && Json.sameFields a.parameters b.parameters

def parameter? (c : Condition) (name : String) : Option Json := c.parameters.get? name

def withParameter (c : Condition) (name : String) (value : Json) : Condition :=
  { c with parameters := c.parameters.insert name value }

/-- Store conditions under a parameter. -/
def withConditions (c : Condition) (name : String) (conditions : List Condition) : Condition :=
  c.withParameter name (.array (conditions.map toValue))

/-- Store one condition under a parameter. -/
def withCondition (c : Condition) (name : String) (inner : Condition) : Condition :=
  c.withParameter name inner.toValue

/-- A parameter that is a text. -/
def string? (c : Condition) (name : String) : Option String :=
  (c.parameter? name).bind Json.string?

/-- Read conditions from values, all or none. -/
def ofValues? (values : List Json) : Except MalformedCondition (List Condition) :=
  match values.mapM ofJson? with
  | some conditions => .ok conditions
  | none => .error .notADocument

/-- The conditions under a parameter: a list of them, a single one, or none. -/
def conditions (c : Condition) (name : String) : Except MalformedCondition (List Condition) :=
  match c.parameter? name with
  | none => .ok []
  | some .null => .ok []
  | some (.array items) => ofValues? items
  | some (.object fields) => ofValues? [.object fields]
  | some value => .error (.notAParameter name c.typeId value)

/-- The first condition under a parameter. -/
def condition? (c : Condition) (name : String) : Except MalformedCondition (Option Condition) :=
  (c.conditions name).map List.head?

/-- The conditions that a logical condition combines. -/
def subConditions (c : Condition) : Except MalformedCondition (List Condition) :=
  c.conditions "subConditions"

mutual

/-- The ids of the condition documents found in a value. -/
def idsIn : Json → List String
  | .object fields =>
    match ((Fields.get? fields "type").or (Fields.get? fields "conditionTypeId")).bind Json.string?,
        Fields.get? fields "parameterValues" with
    | some typeId, some (.object _) => typeId :: idsUnder fields
    | _, _ => []
  | .array items => idsInItems items
  | _ => []

/-- The ids found in the parameters of a condition document, given by its fields. -/
def idsUnder : List (String × Json) → List String
  | [] => []
  | (name, value) :: rest =>
    if name = "parameterValues" then
      match value with
      | .object parameters => idsInFields parameters
      | _ => []
    else idsUnder rest

/-- The ids found in the items of an array. -/
def idsInItems : List Json → List String
  | [] => []
  | item :: rest => idsIn item ++ idsInItems rest

/-- The ids found in the values of fields. -/
def idsInFields : List (String × Json) → List String
  | [] => []
  | (_, value) :: rest => idsIn value ++ idsInFields rest

end

/-- Every condition type that the condition refers to, itself and at any depth. -/
def typeIds (c : Condition) : IdSet := .ofList (c.typeId :: idsInFields c.parameters)

/-- Whether the condition refers to one of some types. -/
def referencesAny (c : Condition) (ids : IdSet) : Bool := c.typeIds.meets ids

/-! ## Nesting -/

theorem sizeOf_lt_of_get? {fields : Fields Json} {name : String} {value : Json}
    (h : fields.get? name = some value) : sizeOf value < sizeOf fields := by
  induction fields with
  | nil => simp [Fields.get?] at h
  | cons head rest ih =>
    obtain ⟨key, first⟩ := head
    rw [Fields.get?] at h
    split at h
    · obtain rfl := Option.some.inj h
      simp only [List.cons.sizeOf_spec, Prod.mk.sizeOf_spec]; omega
    · have := ih h
      simp only [List.cons.sizeOf_spec]; omega

private theorem pick?_mem {fields : List (String × Json)} {group : List String} {value : Json}
    (h : Record.pick? fields group = some (some value)) : ∃ name, (name, value) ∈ fields := by
  rw [Record.pick?] at h
  split at h
  · simp at h
  · next field eq =>
    have : field ∈ fields.filter fun f => group.contains f.1 := eq ▸ List.mem_singleton_self field
    obtain rfl := Option.some.inj (Option.some.inj h)
    exact ⟨field.1, (List.mem_filter.1 this).1⟩
  · simp at h

private theorem sizeOf_snd_lt {fields : List (String × Json)} {name : String} {value : Json}
    (h : (name, value) ∈ fields) : sizeOf value < sizeOf fields := by
  have := List.sizeOf_lt_of_mem h
  simp only [Prod.mk.sizeOf_spec] at this; omega

/-- The parameters of a condition are smaller than the value it was read from. -/
theorem sizeOf_parameters_lt {value : Json} {c : Condition} (h : ofJson? value = some c) :
    sizeOf c.parameters < sizeOf value := by
  have parts : ∀ (record : List (Option Json)), ofParts? record = some c →
      c.parameters = [] ∨ some (Json.object c.parameters) ∈ record := by
    intro record read
    rw [ofParts?.eq_def] at read
    split at read
    · left; obtain rfl := Option.some.inj read; rfl
    · right; obtain rfl := Option.some.inj read; simp
    · simp at read
  match value with
  | .array items =>
    obtain ⟨record, found, read⟩ := Option.bind_eq_some_iff.1 h
    rcases parts record read with empty | mem
    · have : 0 < sizeOf items := by
        cases items <;> simp only [List.nil.sizeOf_spec, List.cons.sizeOf_spec] <;> omega
      simp only [empty, List.nil.sizeOf_spec, Json.array.sizeOf_spec]; omega
    · rw [Record.ofItems?] at found
      split at found
      · obtain rfl := Option.some.inj found
        simp only [List.mem_append, List.mem_map, Option.some.injEq, List.mem_replicate,
          reduceCtorEq, and_false, or_false, exists_eq_right] at mem
        have := List.sizeOf_lt_of_mem mem
        simp only [Json.object.sizeOf_spec] at this
        simp only [Json.array.sizeOf_spec]; omega
      · simp at found
  | .object fields =>
    obtain ⟨record, found, read⟩ := Option.bind_eq_some_iff.1 h
    rcases parts record read with empty | mem
    · have : 0 < sizeOf fields := by
        cases fields <;> simp only [List.nil.sizeOf_spec, List.cons.sizeOf_spec] <;> omega
      simp only [empty, List.nil.sizeOf_spec, Json.object.sizeOf_spec]; omega
    · have : ∃ group ∈ fieldNames,
          Record.pick? fields group = some (some (Json.object c.parameters)) := by
        simp only [Record.ofFields?, fieldNames, List.mapM_cons, List.mapM_nil] at found
        simp only [Option.bind_eq_bind, Option.pure_def, Option.bind_some] at found
        obtain ⟨first, one, found⟩ := Option.bind_eq_some_iff.1 found
        obtain ⟨_, inner, found⟩ := Option.bind_eq_some_iff.1 found
        obtain ⟨second, two, inner⟩ := Option.bind_eq_some_iff.1 inner
        obtain rfl := Option.some.inj inner
        obtain rfl := Option.some.inj found
        simp only [List.mem_cons, List.not_mem_nil, or_false] at mem
        rcases mem with same | same
        · exact ⟨_, by simp [fieldNames], same ▸ one⟩
        · exact ⟨_, by simp [fieldNames], same ▸ two⟩
      obtain ⟨group, _, picked⟩ := this
      obtain ⟨name, member⟩ := pick?_mem picked
      have := sizeOf_snd_lt member
      simp only [Json.object.sizeOf_spec] at this ⊢; omega
  | .null => simp [ofJson?] at h
  | .bool _ => simp [ofJson?] at h
  | .number _ => simp [ofJson?] at h
  | .string _ => simp [ofJson?] at h

private theorem mem_of_mapM {values : List Json} {cs : List Condition} {c : Condition}
    (h : values.mapM ofJson? = some cs) (mem : c ∈ cs) : ∃ v ∈ values, ofJson? v = some c := by
  induction values generalizing cs with
  | nil => simp at h; subst h; simp at mem
  | cons v rest ih =>
    simp only [List.mapM_cons, Option.bind_eq_bind, Option.pure_def] at h
    obtain ⟨first, one, h⟩ := Option.bind_eq_some_iff.1 h
    obtain ⟨others, two, h⟩ := Option.bind_eq_some_iff.1 h
    obtain rfl := Option.some.inj h
    rcases List.mem_cons.1 mem with rfl | mem
    · exact ⟨v, by simp, one⟩
    · obtain ⟨w, inRest, read⟩ := ih two mem
      exact ⟨w, by simp [inRest], read⟩

theorem mem_of_ofValues? {values : List Json} {cs : List Condition} {c : Condition}
    (h : ofValues? values = .ok cs) (mem : c ∈ cs) : ∃ v ∈ values, ofJson? v = some c := by
  rw [ofValues?] at h
  split at h
  · next all => obtain rfl := Except.ok.inj h; exact mem_of_mapM all mem
  · simp at h

/-- A condition under a parameter has smaller parameters than the condition that holds it. -/
theorem sizeOf_lt_of_mem_conditions {c inner : Condition} {name : String} {cs : List Condition}
    (h : c.conditions name = .ok cs) (mem : inner ∈ cs) :
    sizeOf inner.parameters < sizeOf c.parameters := by
  rw [conditions] at h
  split at h
  · obtain rfl := Except.ok.inj h; simp at mem
  · obtain rfl := Except.ok.inj h; simp at mem
  · next items found =>
    obtain ⟨v, inItems, read⟩ := mem_of_ofValues? h mem
    have := sizeOf_parameters_lt read
    have := List.sizeOf_lt_of_mem inItems
    have := sizeOf_lt_of_get? found
    simp only [Json.array.sizeOf_spec] at this; omega
  · next fields found =>
    obtain ⟨v, inItems, read⟩ := mem_of_ofValues? h mem
    obtain rfl := List.mem_singleton.1 inItems
    have := sizeOf_parameters_lt read
    have := sizeOf_lt_of_get? found
    omega
  · simp at h

end Condition

end Clickstream
