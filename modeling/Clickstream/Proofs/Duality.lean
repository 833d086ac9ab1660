import Clickstream.Proofs.Indexing
import Clickstream.Proofs.Outcomes

/-! # Negated combinations

To negate a conjunction comes to the same as to ask for one of the negations, and to negate a
disjunction as to ask for all of them, errors included: both ways stop at the same sub-condition, so
what one hides the other hides as well. A negation can therefore be pushed down through combinations
of any depth, although on every level the conditions are stored as values and read back.
-/

namespace Clickstream

namespace BooleanOperator

/-- The condition type that combines in this way. -/
def typeId : BooleanOperator → String
  | and => "andCondition"
  | or => "orCondition"

/-- The other way to combine. -/
def dual : BooleanOperator → BooleanOperator
  | and => or
  | or => and

/-- The same way to combine or, turned round, the other one. -/
def turn (turned : Bool) (operator : BooleanOperator) : BooleanOperator :=
  if turned then operator.dual else operator

end BooleanOperator

namespace Condition

/-- All or one of some conditions. -/
def combination (operator : BooleanOperator) (cs : List Condition) : Condition :=
  ({ typeId := operator.typeId } : Condition).withConditions "subConditions" cs

/-- The opposite of a condition. -/
def negation (c : Condition) : Condition :=
  ({ typeId := "notCondition" } : Condition).withCondition "subCondition" c

variable {operator : BooleanOperator} {c : Condition} {cs : List Condition}

/-- What is stored as values is in canonical form already. -/
@[simp] theorem kept_combination : (combination operator cs).kept = combination operator cs := by
  have values : Json.canonicalItems (cs.map toValue) = cs.map toValue := by
    simp only [Json.canonicalItems_eq_map, List.map_map, List.map_inj_left, Function.comp_apply,
      toValue, Json.canonical_canonical, implies_true]
  simp only [combination, withConditions, withParameter, kept, Json.ordered, Json.canonicalFields,
    Json.canonical, Fields.sorted, Fields.insert, List.foldl_cons, List.foldl_nil, values]

@[simp] theorem kept_negation : c.negation.kept = c.negation := by
  simp only [negation, withCondition, withParameter, kept, Json.ordered, Json.canonicalFields,
    toValue, Json.canonical_canonical, Fields.sorted, Fields.insert, List.foldl_cons,
    List.foldl_nil]

end Condition

/-- The registry gives no other name to the predicates of combinations and negations. -/
structure EvaluatorNames.KeepsLogic (names : EvaluatorNames) : Prop where
  combination : ∀ operator : BooleanOperator,
    (names operator.typeId).getD operator.typeId = operator.typeId
  negation : (names "notCondition").getD "notCondition" = "notCondition"

namespace Predicate

open Condition

variable {names : EvaluatorNames} {item : Item} {operator : BooleanOperator} {c : Condition}
  {cs : List Condition}

/-! ## One level -/

theorem outcome_combination (logic : names.KeepsLogic) : outcome names item (combination operator cs) =
    combine operator (fun c => outcome names item c.kept) cs := by
  have predicate : Kind.ofName? ((combination operator cs).evaluator names) =
      some (.combination operator) := by
    have name : (combination operator cs).evaluator names = operator.typeId :=
      logic.combination operator
    rw [name]
    cases operator <;> rfl
  rw [outcome_of_operator? predicate rfl conditions_withConditions, ← combine_map]

theorem outcome_negated (logic : names.KeepsLogic) :
    outcome names item c.negation = (outcome names item c.kept).map (!·) := by
  have predicate : Kind.ofName? (c.negation.evaluator names) = some .negation := by
    have name : c.negation.evaluator names = "notCondition" := logic.negation
    rw [name]
    rfl
  exact outcome_negation predicate condition?_withCondition

theorem decisive_turn {turned : Bool} :
    Evaluation.decisive (operator.turn turned) = (Evaluation.decisive operator ^^ turned) := by
  cases operator <;> cases turned <;> rfl

/-- Turned round, a combination is the other combination of what is turned round. -/
theorem map_combine {turned : Bool} {α : Type} {outcome : α → Outcome} {subs : List α} :
    (combine operator outcome subs).map (· ^^ turned) =
      combine (operator.turn turned) (fun sub => (outcome sub).map (· ^^ turned)) subs := by
  induction subs with
  | nil => rw [combine_nil, combine_nil, decisive_turn, ← Bool.not_xor]; rfl
  | cons sub rest ih =>
    rw [combine_cons, combine_cons, decisive_turn, ← ih]
    cases outcome sub with
    | error e => rfl
    | ok b =>
      -- Either both ways are decided here or both go on with the rest.
      by_cases decides : b = Evaluation.decisive operator
      · simp [Except.map, decides]
      · simp [Except.map, decides]

theorem outcome_negation_combination (logic : names.KeepsLogic) :
    outcome names item (combination operator cs).negation =
      outcome names item (combination operator.dual (cs.map negation)) := by
  have turned := @map_combine operator true _ (fun c => outcome names item c.kept) cs
  simp only [Bool.xor_true] at turned
  rw [outcome_negated logic, kept_combination, outcome_combination logic, turned,
    outcome_combination logic, ← combine_map]
  simp only [kept_negation, outcome_negated logic]
  rfl

end Predicate

/-! ## Any depth -/

/-- Conditions put together by combinations and negations. -/
inductive Formula where
  /-- A condition that is not taken apart. -/
  | atom (c : Condition)
  | combination (operator : BooleanOperator) (parts : List Formula)
  | negation (part : Formula)

namespace Formula

open Predicate

mutual

/-- The condition that a formula stands for. -/
def condition : Formula → Condition
  | atom c => c
  | combination operator parts => .combination operator (conditions parts)
  | negation part => part.condition.negation

def conditions : List Formula → List Condition
  | [] => []
  | part :: rest => part.condition :: conditions rest

end

mutual

/-- A formula or, turned round, its opposite, with all negations pushed down to the atoms. -/
def push (turned : Bool) : Formula → Formula
  | atom c => if turned then negation (atom c) else atom c
  | combination operator parts =>
    combination (operator.turn turned) (pushAll turned parts)
  | negation part => part.push (!turned)

def pushAll (turned : Bool) : List Formula → List Formula
  | [] => []
  | part :: rest => part.push turned :: pushAll turned rest

end

mutual

/-- Nothing but atoms is negated. -/
def NegatesAtoms : Formula → Prop
  | atom _ => True
  | combination _ parts => AllNegateAtoms parts
  | negation (atom _) => True
  | negation _ => False

def AllNegateAtoms : List Formula → Prop
  | [] => True
  | part :: rest => part.NegatesAtoms ∧ AllNegateAtoms rest

end

mutual

theorem negatesAtoms_push (turned : Bool) : ∀ f : Formula, (f.push turned).NegatesAtoms
  | atom c => by cases turned <;> simp [push, NegatesAtoms]
  | combination operator parts => by
    rw [push, NegatesAtoms]
    exact allNegateAtoms_pushAll turned parts
  | negation part => by
    rw [push]
    exact negatesAtoms_push (!turned) part

theorem allNegateAtoms_pushAll (turned : Bool) : ∀ fs : List Formula,
    AllNegateAtoms (pushAll turned fs)
  | [] => trivial
  | part :: rest => ⟨negatesAtoms_push turned part, allNegateAtoms_pushAll turned rest⟩

end

variable {names : EvaluatorNames} {item : Item}

mutual

/-- Pushing negations down changes no outcome, and turning a formula round turns its outcome round. -/
theorem outcome_push (logic : names.KeepsLogic) (turned : Bool) : ∀ f : Formula,
    outcome names item (f.push turned).condition.kept =
      (outcome names item f.condition.kept).map (· ^^ turned)
  | atom c => by
    cases turned with
    | true =>
      have pushed : ((atom c).push true).condition = c.negation := by simp [push, condition]
      rw [pushed, Condition.kept_negation, outcome_negated logic]
      simp only [Bool.xor_true]
      rfl
    | false =>
      have pushed : ((atom c).push false).condition = c := by simp [push, condition]
      rw [pushed, condition]
      cases outcome names item c.kept <;> simp [Except.map]
  | combination operator parts => by
    rw [push, condition, condition, Condition.kept_combination, Condition.kept_combination,
      outcome_combination logic, outcome_combination logic, map_combine,
      combine_pushAll logic turned (operator.turn turned) parts]
  | negation part => by
    rw [push, outcome_push logic (!turned) part, condition, Condition.kept_negation,
      outcome_negated logic]
    cases outcome names item part.condition.kept with
    | error e => rfl
    | ok b => simp [Except.map]

theorem combine_pushAll (logic : names.KeepsLogic) (turned : Bool) (operator : BooleanOperator) :
    ∀ fs : List Formula,
    combine operator (fun c => outcome names item c.kept) (conditions (pushAll turned fs)) =
      combine operator (fun c => (outcome names item c.kept).map (· ^^ turned)) (conditions fs)
  | [] => by rw [pushAll, conditions, combine_nil, combine_nil]
  | part :: rest => by
    rw [pushAll, conditions, conditions, combine_cons, combine_cons, outcome_push logic turned part,
      combine_pushAll logic turned operator rest]

end

end Formula

namespace Predicate

open Condition

/-- The negation of a combination is the other combination of the negations, and so at any depth. -/
theorem negations_dual {names : EvaluatorNames} (logic : names.KeepsLogic) (item : Item) :
    (∀ cs : List Condition, outcome names item (negation (combination .and cs)) =
      outcome names item (combination .or (cs.map negation))) ∧
    (∀ cs : List Condition, outcome names item (negation (combination .or cs)) =
      outcome names item (combination .and (cs.map negation))) ∧
    ∀ f : Formula, outcome names item (negation f.condition) =
      outcome names item (f.push true).condition.kept ∧ (f.push true).NegatesAtoms := by
  refine ⟨fun cs => outcome_negation_combination logic, fun cs => outcome_negation_combination logic,
    fun f => ⟨?_, f.negatesAtoms_push true⟩⟩
  rw [outcome_negated logic, Formula.outcome_push logic true f]
  simp only [Bool.xor_true]

/-- A registry in which the logical types go by their own names. -/
def ownNames : EvaluatorNames :=
  (Registry.after [.registerConditionType { id := "andCondition" },
    .registerConditionType { id := "orCondition", declaredEvaluator := some "orCondition" }]
    ).evaluatorNames

def page : Item := { id := "p1", type := "page" }

def everything : Condition := { typeId := "matchAllCondition" }

/-- A condition with a predicate that nobody knows. -/
def stray : Condition := { typeId := "strayCondition" }

theorem keepsLogic_ownNames : ownNames.KeepsLogic :=
  ⟨fun operator => by cases operator <;> rfl, rfl⟩

theorem outcome_everything : outcome ownNames page everything.kept = .ok true := by
  rw [outcome]
  rfl

theorem outcome_stray :
    outcome ownNames page stray.kept = .error (.unsupportedCondition "strayCondition") := by
  rw [outcome]
  rfl

/-- An error behind the condition that decides is hidden both ways, and else shows both ways. -/
theorem negations_dual_stray :
    ownNames.KeepsLogic ∧
    outcome ownNames page (negation (combination .and [everything.negation, stray])) = .ok true ∧
    outcome ownNames page (combination .or [everything.negation.negation, stray.negation]) =
      .ok true ∧
    outcome ownNames page (negation (combination .or [everything.negation, stray])) =
      .error (.unsupportedCondition "strayCondition") ∧
    outcome ownNames page (combination .and [everything.negation.negation, stray.negation]) =
      .error (.unsupportedCondition "strayCondition") ∧
    outcome ownNames page (combination .or
      [combination .or [everything, stray], stray.negation]) = .ok true := by
  have logic := keepsLogic_ownNames
  obtain ⟨conjunctions, disjunctions, formulas⟩ := negations_dual logic page
  have both := conjunctions [everything.negation, stray]
  have one := disjunctions [everything.negation, stray]
  have nested := (formulas (.combination .and
    [.negation (.combination .or [.atom everything, .atom stray]), .atom stray])).1
  have hidden : outcome ownNames page (negation (combination .and [everything.negation, stray])) =
      .ok true := by
    rw [outcome_negated logic, kept_combination, outcome_combination logic, combine_cons,
      kept_negation, outcome_negated logic, outcome_everything]
    rfl
  have shown : outcome ownNames page (negation (combination .or [everything.negation, stray])) =
      .error (.unsupportedCondition "strayCondition") := by
    rw [outcome_negated logic, kept_combination, outcome_combination logic, combine_cons,
      kept_negation, outcome_negated logic, outcome_everything, combine_cons, outcome_stray]
    rfl
  have pushed : outcome ownNames page (combination .or [combination .or [everything, stray],
      stray.negation]).kept = .ok true := by
    refine nested.symm.trans ?_
    change outcome ownNames page (negation (combination .and
      [negation (combination .or [everything, stray]), stray])) = _
    rw [outcome_negated logic, kept_combination, outcome_combination logic, combine_cons,
      kept_negation, outcome_negated logic, kept_combination, outcome_combination logic,
      combine_cons, outcome_everything]
    rfl
  rw [kept_combination] at pushed
  exact ⟨logic, hidden, both.symm.trans hidden, shown, one.symm.trans shown, pushed⟩

end Predicate

end Clickstream
