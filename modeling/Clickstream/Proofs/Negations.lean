import Clickstream.Predicate
import Clickstream.Proofs.Tables

/-! # Comparisons and their negations

Three comparisons of a property come with a negation: presence, equality and membership in a list.
Wherever a comparison and its negation both succeed one of them holds, be the property absent, one
value or many, except that a property that is null satisfies neither of the last two comparisons nor
their negations.
-/

namespace Clickstream

namespace Condition

variable {c : Condition} {operator name : String}

/-- The condition with another comparison. -/
def comparing (c : Condition) (operator : String) : Condition :=
  c.withParameter "comparisonOperator" (.string operator)

theorem string?_comparing :
    (c.comparing operator).string? "comparisonOperator" = some operator := by
  rw [comparing, string?, withParameter, parameter?, Fields.get?_insert, if_pos rfl]
  rfl

theorem parameter?_comparing (other : name ≠ "comparisonOperator") :
    (c.comparing operator).parameter? name = c.parameter? name := by
  rw [comparing, withParameter, parameter?, Fields.get?_insert, if_neg other, parameter?]

/-- The property that the condition names is there and null. -/
def FindsNull (c : Condition) (item : Item) : Prop :=
  ∃ name, c.string? "propertyName" = some name ∧ item.value? name = some .null

end Condition

namespace Predicate

variable {names : EvaluatorNames} {item : Item} {c : Condition} {operator negation name : String}

/-! ## What the comparison does not change -/

theorem required_comparing :
    required (c.comparing operator) "propertyName" = required c "propertyName" := by
  rw [required, required, Condition.string?, Condition.parameter?_comparing (by decide),
    Condition.string?]
  rfl

theorem expected?_comparing : expected? (c.comparing operator) = expected? c := by
  simp only [expected?, List.findSome?_cons, List.findSome?_nil]
  rw [Condition.parameter?_comparing (by decide), Condition.parameter?_comparing (by decide),
    Condition.parameter?_comparing (by decide)]

theorem values_comparing : values (c.comparing operator) = values c := by
  rw [values, Condition.parameter?_comparing (by decide), values]

theorem outcome_comparing (kind : Kind.ofName? (c.evaluator names) = some .property) :
    outcome names item (c.comparing operator) = property (c.comparing operator) item := by
  have same : Kind.ofName? ((c.comparing operator).evaluator names) = some .property := kind
  rw [outcome, same]

/-! ## One comparison -/

section

variable (named : c.string? "propertyName" = some name)

include named

theorem property_exists :
    property (c.comparing "exists") item = .ok (isPresent (item.value? name)) := by
  rw [property, required_comparing, required, named]
  dsimp only [bind, Except.bind]
  rw [Condition.string?_comparing]
  rfl

theorem property_missing :
    property (c.comparing "missing") item = .ok !isPresent (item.value? name) := by
  rw [property, required_comparing, required, named]
  dsimp only [bind, Except.bind]
  rw [Condition.string?_comparing]
  rfl

/-- Values are only compared where there is one other than null. -/
theorem property_comparing (compares : operator ∉ ["exists", "missing"]) :
    property (c.comparing operator) item =
      match item.value? name with
      | none => .ok (operator ∈ ["notEquals", "notIn"])
      | some .null => .ok false
      | some value => comparePresent (c.comparing operator) operator value := by
  rw [property, required_comparing, required, named]
  dsimp only [bind, Except.bind]
  rw [Condition.string?_comparing, Option.getD_some]
  generalize item.value? name = actual
  split
  · exact absurd List.mem_cons_self compares
  · exact absurd (List.mem_cons_of_mem _ List.mem_cons_self) compares
  -- Of a value that is not there the two negations hold, and no other comparison.
  · rfl
  · rfl
  · next notEquals notIn =>
    have neither : operator ∉ ["notEquals", "notIn"] := by
      simp only [List.mem_cons, List.not_mem_nil, or_false, not_or]
      exact ⟨notEquals, notIn⟩
    exact congrArg Except.ok (decide_eq_false neither).symm
  · rfl
  · next present notNull _ _ =>
    cases present with
    | null => exact (notNull rfl).elim
    | bool | number | string | array | object => rfl

end

/-! ## Two comparisons -/

/-- Wherever both comparisons succeed, the negation is true exactly if the other is false. -/
def Complementary (names : EvaluatorNames) (item : Item) (c : Condition)
    (operator negation : String) : Prop :=
  ∀ holds fails, outcome names item (c.comparing operator) = .ok holds →
    outcome names item (c.comparing negation) = .ok fails → (fails = true ↔ holds = false)

/-- The two comparisons of a value that is there do not agree. -/
def Opposed (c : Condition) (operator negation : String) : Prop :=
  ∀ value holds fails, comparePresent (c.comparing operator) operator value = .ok holds →
    comparePresent (c.comparing negation) negation value = .ok fails → fails = !holds

theorem opposed_equals : Opposed c "equals" "notEquals" := by
  intro value holds fails isHolds isFails
  simp only [comparePresent, against, expected?_comparing] at isHolds isFails
  cases given : expected? c with
  | none =>
    rw [given] at isHolds
    cases isHolds
  | some expected =>
    rw [given] at isHolds isFails
    cases isHolds
    cases isFails
    rfl

theorem opposed_in : Opposed c "in" "notIn" := by
  intro value holds fails isHolds isFails
  simp only [comparePresent, values_comparing] at isHolds isFails
  cases isHolds
  cases isFails
  rfl

theorem complementary_exists (kind : Kind.ofName? (c.evaluator names) = some .property) :
    Complementary names item c "exists" "missing" := by
  intro holds fails isHolds isFails
  rw [outcome_comparing kind] at isHolds isFails
  cases named : c.string? "propertyName" with
  | none =>
    rw [property, required_comparing, required, named] at isHolds
    cases isHolds
  | some name =>
    rw [property_exists named] at isHolds
    rw [property_missing named] at isFails
    cases isHolds
    cases isFails
    simp

/-- Opposed comparisons are complementary but on a property that is null. -/
theorem complementary_iff (kind : Kind.ofName? (c.evaluator names) = some .property)
    (compares : operator ∉ ["exists", "missing", "notEquals", "notIn"])
    (negates : negation ∈ ["notEquals", "notIn"]) (opposed : Opposed c operator negation) :
    Complementary names item c operator negation ↔ ¬ c.FindsNull item := by
  have comparesToo : negation ∉ ["exists", "missing"] := by
    rintro presence
    simp only [List.mem_cons, List.not_mem_nil, or_false] at negates presence
    rcases negates with rfl | rfl <;> simp at presence
  have others : operator ∉ ["exists", "missing"] ∧ operator ∉ ["notEquals", "notIn"] := by
    simp only [List.mem_cons, List.not_mem_nil, or_false, not_or] at compares ⊢
    exact ⟨⟨compares.1, compares.2.1⟩, compares.2.2⟩
  simp only [Complementary, outcome_comparing kind]
  cases named : c.string? "propertyName" with
  | none =>
    refine ⟨fun _ ⟨name, isName, _⟩ => ?_, fun _ holds fails isHolds _ => ?_⟩
    · rw [named] at isName
      cases isName
    · rw [property, required_comparing, required, named] at isHolds
      cases isHolds
  | some name =>
    have findsNull : c.FindsNull item ↔ item.value? name = some .null := by
      simp [Condition.FindsNull, named]
    rw [findsNull, property_comparing named others.1, property_comparing named comparesToo]
    match item.value? name with
    | none => simp [others.2, negates]
    | some .null => simp
    | some (.bool _) | some (.number _) | some (.string _) | some (.array _) | some (.object _) =>
      refine iff_of_true (fun holds fails isHolds isFails => ?_) (by simp)
      rw [opposed _ holds fails isHolds isFails]
      simp

/-- Presence and absence are always complementary. Equality and its negation are, and membership
and its negation, exactly if the property is not null. -/
theorem complementary_pairs (kind : Kind.ofName? (c.evaluator names) = some .property) :
    Complementary names item c "exists" "missing" ∧
      (Complementary names item c "equals" "notEquals" ↔ ¬ c.FindsNull item) ∧
      (Complementary names item c "in" "notIn" ↔ ¬ c.FindsNull item) :=
  ⟨complementary_exists kind, complementary_iff kind (by decide) (by decide) opposed_equals,
    complementary_iff kind (by decide) (by decide) opposed_in⟩

/-- A profile whose plan is null, asked for its plan. -/
theorem complementary_pairs_nullPlan :
    let c : Condition :=
      { typeId := "profilePropertyCondition",
        parameters := [("propertyName", .string "plan"), ("propertyValue", .string "free")] }
    let item : Item := ⟨"p1", "profile", [("plan", .null)]⟩
    Kind.ofName? (c.evaluator fun _ => none) = some .property ∧ c.FindsNull item ∧
      Complementary (fun _ => none) item c "exists" "missing" ∧
      ¬ Complementary (fun _ => none) item c "equals" "notEquals" ∧
      ¬ Complementary (fun _ => none) item c "in" "notIn" := by
  intro c item
  have kind : Kind.ofName? (c.evaluator fun _ => none) = some .property := rfl
  have null : c.FindsNull item := ⟨"plan", rfl, rfl⟩
  obtain ⟨presence, equality, membership⟩ := @complementary_pairs (fun _ => none) item c kind
  exact ⟨kind, null, presence, fun all => equality.1 all null, fun all => membership.1 all null⟩

/-- The plan of the profile is neither free nor not free. -/
theorem nullPlan_neither :
    let c : Condition :=
      { typeId := "profilePropertyCondition",
        parameters := [("propertyName", .string "plan"), ("propertyValue", .string "free")] }
    let item : Item := ⟨"p1", "profile", [("plan", .null)]⟩
    outcome (fun _ => none) item (c.comparing "equals") = .ok false ∧
      outcome (fun _ => none) item (c.comparing "notEquals") = .ok false := by
  intro c item
  have kind : Kind.ofName? (c.evaluator fun _ => none) = some .property := rfl
  have null : item.value? "plan" = some .null := rfl
  have named : c.string? "propertyName" = some "plan" := rfl
  rw [outcome_comparing kind, outcome_comparing kind, property_comparing named (by decide),
    property_comparing named (by decide), null]
  exact ⟨rfl, rfl⟩

end Predicate

end Clickstream
