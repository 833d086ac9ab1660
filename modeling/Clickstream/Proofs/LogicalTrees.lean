import Clickstream.Proofs.Indexing
import Clickstream.Proofs.Nesting
import Clickstream.Proofs.Outcomes
import Clickstream.Proofs.SessionIsolation

/-! # Logical conditions

A tree of logical conditions over conditions on the profile is interpreted twice: held against a
profile by the evaluator, and tried on the profile's item by the store when it stands inside a
query. The evaluator combines the sub-conditions as a parameter says, else as the type says, else it
asks for all of them. The store goes by the predicate of the type, and of the predicates only one
looks at the parameter and none at the type. Where these name the same operator at every node, or
there is a single sub-condition, the two interpretations agree, errors and where they end included.
They do not agree on trees in general: not where a type is to combine in one way and has the
predicate of the other, and not on negations, of which the evaluator knows nothing.
-/

namespace Clickstream

namespace Condition

variable {r : Registry} {c : Condition} {type : ClassifiedType}

/-- The condition resolves, and to the given type. -/
def IsOf (r : Registry) (c : Condition) (type : ClassifiedType) : Prop :=
  c.resolve r = .ok { c with resolved := some type }

/-- The condition carries no type, or the one that its type id has now. -/
def IsCurrent (r : Registry) (c : Condition) : Prop :=
  c.resolved = none ∨ c.resolved = r.conditionType? c.typeId

theorem IsOf.conditionType? (h : c.IsOf r type) : r.conditionType? c.typeId = some type := by
  obtain ⟨-, same⟩ := resolve_eq_ok_iff.1 h
  exact (congrArg Condition.resolved same).symm

/-- Conditions read from parameters carry no type yet. -/
theorem resolved_of_mem_conditions {name : String} {found : List Condition} {inner : Condition}
    (read : c.conditions name = .ok found) (member : inner ∈ found) : inner.resolved = none := by
  obtain ⟨_, _, document, -, -, read⟩ := (Yields.conditions read member).exists_document
  have parts : ∀ record, ofParts? record = some inner → inner.resolved = none := by
    intro record read
    rw [ofParts?.eq_def] at read
    split at read
    · cases read; rfl
    · cases read; rfl
    · cases read
  cases document with
  | array items =>
    obtain ⟨record, -, read⟩ := Option.bind_eq_some_iff.1 read
    exact parts record read
  | object fields =>
    obtain ⟨record, -, read⟩ := Option.bind_eq_some_iff.1 read
    exact parts record read
  | null | bool | number | string => cases read

theorem isCurrent_of_mem_subConditions {subs : List Condition} {sub : Condition}
    (read : c.subConditions = .ok subs) (member : sub ∈ subs) : sub.IsCurrent r :=
  .inl (resolved_of_mem_conditions read member)

/-- The store finds the predicate of the type, whether or not the condition carries it. -/
theorem IsOf.evaluator (h : c.IsOf r type) (indexed : r.Indexed) (current : c.IsCurrent r) :
    c.evaluator r.evaluatorNames = type.type.evaluator := by
  have found := h.conditionType?
  rcases current with none | resolved
  · rw [Registry.conditionType?, indexed.index, Index.ofDefinitions, Table.get?_map] at found
    obtain ⟨declared, registered, rfl⟩ := Option.map_eq_some_iff.1 found
    rw [Condition.evaluator, none]
    simp only [Registry.evaluatorNames, registered]
    rfl
  · rw [Condition.evaluator, resolved, found]

end Condition

/-! ## Trees -/

namespace Condition

/-- The condition is of a logical type with a predicate of the given kind. -/
structure IsLogical (r : Registry) (c : Condition) (type : ClassifiedType)
    (kind : Predicate.Kind) : Prop where
  isOf : c.IsOf r type
  category : type.category = .logical
  predicate : Predicate.Kind.ofName? type.type.evaluator = some kind

/-- Trees of logical conditions that the store combines or negates, over conditions on the profile.
Every condition resolves, and the logical ones are among the allowed. -/
inductive LogicalTree (r : Registry) (allowed : Condition → Prop) : Condition → Prop
  | leaf {c : Condition} {type : ClassifiedType} (isOf : c.IsOf r type)
    (category : type.category = .profile) : LogicalTree r allowed c
  | combination {c : Condition} {type : ClassifiedType} {kind : Predicate.Kind}
    {operator : BooleanOperator} {subs : List Condition} (logical : c.IsLogical r type kind)
    (combines : kind.operator? c = some operator) (isAllowed : allowed c)
    (read : c.subConditions = .ok subs) (all : ∀ sub ∈ subs, LogicalTree r allowed sub) :
    LogicalTree r allowed c
  | negation {c sub : Condition} {type : ClassifiedType} {subs : List Condition}
    (logical : c.IsLogical r type .negation) (isAllowed : allowed c)
    (read : c.condition? "subCondition" = .ok (some sub)) (negated : LogicalTree r allowed sub)
    (others : c.subConditions = .ok subs) : LogicalTree r allowed c

/-- The evaluator and the store combine the sub-conditions of a condition by the same operator, or
there is only one, for which the operator does not matter. -/
def CombinesAlike (r : Registry) (c : Condition) : Prop :=
  ∃ type kind stored evaluated, c.IsLogical r type kind ∧ kind.operator? c = some stored ∧
    Evaluation.operator c type.type = .ok evaluated ∧
    (evaluated = stored ∨ ∃ sub, c.subConditions = .ok [sub])

theorem IsOf.unique {r : Registry} {c : Condition} {type other : ClassifiedType}
    (h : c.IsOf r type) (h' : c.IsOf r other) : type = other :=
  Option.some.inj (h.conditionType?.symm.trans h'.conditionType?)

end Condition

/-- The registry is one that calls left, and the store looks predicates up in it. -/
structure Facts.Attached (facts : Facts) : Prop where
  registry : ∃ calls, facts.registry = Registry.after calls
  names : facts.names = facts.registry.evaluatorNames

theorem Facts.Attached.indexed {facts : Facts} (h : facts.Attached) : facts.registry.Indexed := by
  obtain ⟨calls, same⟩ := h.registry
  rw [same]
  exact .after calls

theorem Facts.Attached.evaluator {facts : Facts} (h : facts.Attached) {c : Condition}
    {type : ClassifiedType} (current : c.IsCurrent facts.registry)
    (isOf : c.IsOf facts.registry type) : c.evaluator facts.names = type.type.evaluator := by
  rw [h.names]
  exact isOf.evaluator h.indexed current

namespace Evaluation

open Condition Predicate

variable {facts : Facts} {c sub : Condition} {type : ClassifiedType} {kind : Kind}
  {subs : List Condition}

/-! ## The two interpretations -/

theorem value_evaluate_of_profile (attached : facts.Attached)
    (current : c.IsCurrent facts.registry) (isOf : c.IsOf facts.registry type)
    (category : type.category = .profile) :
    (evaluate facts c).value = Store.testMatch facts.names c facts.profile := by
  have carried : ({ c with resolved := some type } : Condition).evaluator facts.names =
      c.evaluator facts.names := (attached.evaluator current isOf).symm
  rw [value_evaluate, isOf]
  simp only [Option.getD_some, category]
  exact outcome_resolved carried

theorem value_evaluate_of_logical (logical : c.IsLogical facts.registry type kind)
    (read : c.subConditions = .ok subs) :
    (evaluate facts c).value = match operator c type.type with
      | .ok operator => (combine operator (evaluate facts) subs).value
      | .error _ => .ok false := by
  rw [value_evaluate, logical.isOf]
  simp only [Option.getD_some, logical.category, read]
  cases operator c type.type <;> rfl

theorem testMatch_of_operator? (attached : facts.Attached) (current : c.IsCurrent facts.registry)
    {operator : BooleanOperator} (logical : c.IsLogical facts.registry type kind)
    (combines : kind.operator? c = some operator) (read : c.subConditions = .ok subs) :
    Store.testMatch facts.names c facts.profile =
      Predicate.combine operator (Store.testMatch facts.names · facts.profile) subs := by
  have predicate : Kind.ofName? (c.evaluator facts.names) = some kind := by
    rw [attached.evaluator current logical.isOf]
    exact logical.predicate
  exact outcome_of_operator? predicate combines read

theorem testMatch_of_negation (attached : facts.Attached) (current : c.IsCurrent facts.registry)
    (logical : c.IsLogical facts.registry type .negation)
    (read : c.condition? "subCondition" = .ok (some sub)) :
    Store.testMatch facts.names c facts.profile =
      (Store.testMatch facts.names sub facts.profile).map (!·) := by
  have predicate : Kind.ofName? (c.evaluator facts.names) = some .negation := by
    rw [attached.evaluator current logical.isOf]
    exact logical.predicate
  exact outcome_negation predicate read

/-- The same operator over sub-conditions that come to the same: the one that decides, or the first
error, is the same too. -/
theorem value_combine_eq {operator : BooleanOperator} {evaluate : Condition → Logged Outcome}
    {outcome : Condition → Outcome} (same : ∀ sub ∈ subs, (evaluate sub).value = outcome sub) :
    (combine operator evaluate subs).value = Predicate.combine operator outcome subs := by
  induction subs with
  | nil => rw [Predicate.combine_nil]; rfl
  | cons sub rest ih =>
    obtain ⟨first, others⟩ := List.forall_mem_cons.1 same
    rw [value_combine_cons, Predicate.combine_cons, first]
    cases outcome sub with
    | error e => rfl
    | ok b =>
      dsimp only
      rw [ih others]

/-- Trees that are combined alike at every node come to the same. -/
theorem value_evaluate_of_combinesAlike (attached : facts.Attached)
    (current : c.IsCurrent facts.registry)
    (tree : LogicalTree facts.registry (CombinesAlike facts.registry) c) :
    (evaluate facts c).value = Store.testMatch facts.names c facts.profile := by
  induction tree with
  | leaf isOf category => exact value_evaluate_of_profile attached current isOf category
  | @combination c type kind operator subs logical combines alike read _ ih =>
    obtain ⟨type', kind', stored, evaluated, logical', combines', read', alike⟩ := alike
    obtain rfl := logical.isOf.unique logical'.isOf
    obtain rfl : kind = kind' := Option.some.inj (logical.predicate.symm.trans logical'.predicate)
    obtain rfl : operator = stored := Option.some.inj (combines.symm.trans combines')
    have same : ∀ sub ∈ subs, (evaluate facts sub).value =
        Store.testMatch facts.names sub facts.profile :=
      fun sub member => ih sub member (isCurrent_of_mem_subConditions read member)
    rw [value_evaluate_of_logical logical read, read',
      testMatch_of_operator? attached current logical combines read]
    dsimp only
    rw [value_combine_eq same]
    rcases alike with rfl | ⟨sub, single⟩
    · rfl
    · obtain rfl := Except.ok.inj (read.symm.trans single)
      rw [Predicate.combine_singleton, Predicate.combine_singleton]
  | negation logical alike _ _ _ _ =>
    obtain ⟨type', kind', stored, evaluated, logical', combines', -⟩ := alike
    obtain rfl := logical.isOf.unique logical'.isOf
    obtain rfl := Option.some.inj (logical.predicate.symm.trans logical'.predicate)
    cases combines'

theorem decisive_inj {a b : BooleanOperator} : decisive a = decisive b ↔ a = b := by
  cases a <;> cases b <;> decide

/-- Without sub-conditions the outcome is that of the operator alone. -/
theorem value_evaluate_childless (logical : c.IsLogical facts.registry type kind)
    {evaluated : BooleanOperator} (asked : operator c type.type = .ok evaluated)
    (none : c.subConditions = .ok []) : (evaluate facts c).value = .ok !(decisive evaluated) := by
  rw [value_evaluate_of_logical logical none, asked]
  rfl

/-- A tree comes to the same with both if they combine alike at every node. Where their operators
differ they already disagree on the condition without sub-conditions, and on a negation without
any they agree only by what happens to be negated. -/
theorem value_evaluate_eq_testMatch (attached : facts.Attached) :
    (∀ c, c.IsCurrent facts.registry →
      LogicalTree facts.registry (CombinesAlike facts.registry) c →
      (evaluate facts c).value = Store.testMatch facts.names c facts.profile) ∧
    (∀ c type kind stored evaluated, c.IsCurrent facts.registry →
      c.IsLogical facts.registry type kind → kind.operator? c = some stored →
      operator c type.type = .ok evaluated → c.subConditions = .ok [] →
      ((evaluate facts c).value = Store.testMatch facts.names c facts.profile ↔
        evaluated = stored)) ∧
    ∀ c type negated evaluated, c.IsCurrent facts.registry →
      c.IsLogical facts.registry type .negation →
      c.condition? "subCondition" = .ok (some negated) →
      operator c type.type = .ok evaluated → c.subConditions = .ok [] →
      ((evaluate facts c).value = Store.testMatch facts.names c facts.profile ↔
        Store.testMatch facts.names negated facts.profile = .ok (decisive evaluated)) := by
  refine ⟨fun c current tree => value_evaluate_of_combinesAlike attached current tree, ?_, ?_⟩
  · intro c type kind stored evaluated current logical combines asked none
    rw [value_evaluate_childless logical asked none,
      testMatch_of_operator? attached current logical combines none, combine_nil,
      Except.ok.injEq, Bool.not_inj_iff, decisive_inj]
  · intro c type negated evaluated current logical read asked none
    rw [value_evaluate_childless logical asked none,
      testMatch_of_negation attached current logical read]
    cases Store.testMatch facts.names negated facts.profile with
    | error e => simp [Except.map]
    | ok holds => cases holds <;> cases decisive evaluated <;> simp [Except.map]

end Evaluation

/-! ## Where they disagree -/

theorem Registry.conditionTypes_foldl_register {types : List ConditionType} {r : Registry} :
    ((types.map Call.registerConditionType).foldl Call.next r).definitions.conditionTypes =
      r.definitions.conditionTypes.insertAll (types.map fun t => (t.id, t)) := by
  induction types generalizing r with
  | nil => rfl
  | cons t rest ih => exact ih

/-- Logical types and one for the properties of a profile. The disjunction may say its operator. -/
def logicalTypes (declared : Option BooleanOperator) : List ConditionType :=
  [{ id := "orCondition", declaredCategory := some .logical, operator := declared },
    { id := "booleanCondition", declaredCategory := some .logical },
    { id := "notCondition", declaredCategory := some .logical },
    { id := "profilePropertyCondition", declaredCategory := some .profile }]

/-- A visitor of the age of 34. -/
def visitor (declared : Option BooleanOperator) : Facts :=
  let registry := Registry.after ((logicalTypes declared).map .registerConditionType)
  { registry
    store := {}
    names := registry.evaluatorNames
    profile := Item.ofEntity
      { id := "p1", properties := [("age", .number (.integer 34))] : Profile }
    session := Item.ofEntity { id := "s1", profileId := "p1", timeStamp := default : Session } }

def olderThan (age : Nat) : Condition where
  typeId := "profilePropertyCondition"
  parameters := [("comparisonOperator", .string "greaterThan"),
    ("propertyName", .string "properties.age"), ("propertyValue", .number (.integer age))]

def notOlder : Condition where
  typeId := "notCondition"
  parameters := [("subCondition", (olderThan 30).toJson)]

/-- Both, as a parameter says. -/
def olderThanBoth : Condition where
  typeId := "booleanCondition"
  parameters := [("operator", .string "And"),
    ("subConditions", .array [(olderThan 20).toJson, (olderThan 30).toJson])]

def eitherAge : Condition where
  typeId := "orCondition"
  parameters := [("subConditions", .array [(olderThan 40).toJson, olderThanBoth.toJson])]

variable {declared : Option BooleanOperator}

theorem attached_visitor : (visitor declared).Attached := ⟨⟨_, rfl⟩, rfl⟩

theorem get?_visitor {id : String} :
    (visitor declared).registry.definitions.conditionTypes.get? id =
      Fields.get? ((logicalTypes declared).map fun t => (t.id, t)).reverse id := by
  rw [visitor, Registry.after, Registry.conditionTypes_foldl_register, Table.get?_insertAll,
    Table.get?_default, Option.or_none]

/-- A condition whose types are registered is of the type that is declared under its id. -/
theorem isOf_visitor {c : Condition} {t : ConditionType}
    (registered : ∀ id ∈ c.typeIds,
      id ∈ ["notCondition", "orCondition", "booleanCondition", "profilePropertyCondition"])
    (found : Fields.get? ((logicalTypes declared).map fun t => (t.id, t)).reverse c.typeId =
      some t) :
    c.IsOf (visitor declared).registry ((visitor declared).registry.classify t) := by
  have type : (visitor declared).registry.conditionType? c.typeId =
      some ((visitor declared).registry.classify t) := by
    rw [Registry.conditionType?, attached_visitor.indexed.index, Index.ofDefinitions,
      Table.get?_map, get?_visitor, found]
    rfl
  have contained : ∀ id ∈ c.typeIds,
      (visitor declared).registry.definitions.conditionTypes.contains id = true := by
    intro id member
    have declared := registered id member
    simp only [List.mem_cons, List.not_mem_nil, or_false] at declared
    rw [Table.contains_iff, get?_visitor]
    rcases declared with rfl | rfl | rfl | rfl <;> exact ⟨_, rfl⟩
  rw [Condition.IsOf, ← type]
  exact Condition.resolve_eq_ok_iff.2 ⟨contained, rfl⟩

theorem leaf_olderThan {allowed : Condition → Prop} {age : Nat} :
    Condition.LogicalTree (visitor declared).registry allowed (olderThan age) := by
  have ids : (olderThan age).typeIds = .ofList ["profilePropertyCondition"] := rfl
  have isOf := @isOf_visitor declared (olderThan age) _ (by rw [ids]; decide) rfl
  exact .leaf isOf rfl

theorem isLogical_eitherAge : eitherAge.IsLogical (visitor declared).registry
    ((visitor declared).registry.classify
      { id := "orCondition", declaredCategory := some .logical, operator := declared })
    (.combination .or) :=
  ⟨isOf_visitor (by decide) rfl, rfl, rfl⟩

theorem isLogical_olderThanBoth : olderThanBoth.IsLogical (visitor declared).registry
    ((visitor declared).registry.classify
      { id := "booleanCondition", declaredCategory := some .logical }) .boolean :=
  ⟨isOf_visitor (by decide) rfl, rfl, rfl⟩

theorem isLogical_notOlder : notOlder.IsLogical (visitor declared).registry
    ((visitor declared).registry.classify
      { id := "notCondition", declaredCategory := some .logical }) .negation :=
  ⟨isOf_visitor (by decide) rfl, rfl, rfl⟩

/-- The parameter of the conjunction says so in both interpretations. -/
theorem operator_olderThanBoth : Predicate.Kind.operator? .boolean olderThanBoth = some .and ∧
    (∀ type, Evaluation.operator olderThanBoth type = .ok .and) := by
  have word : olderThanBoth.string? "operator" = some "And" := rfl
  have parsed : BooleanOperator.parse? "And" = some .and := by decide +kernel
  constructor
  · simp only [Predicate.Kind.operator?, Predicate.booleanOperator, word, Option.getD_some, parsed]
    rfl
  · intro type
    simp only [Evaluation.operator, word, parsed]

theorem tree_eitherAge {allowed : Condition → Prop} (either : allowed eitherAge)
    (both : allowed olderThanBoth) :
    Condition.LogicalTree (visitor declared).registry allowed eitherAge := by
  have readBoth : olderThanBoth.subConditions = .ok [olderThan 20, olderThan 30] := rfl
  have readEither : eitherAge.subConditions = .ok [olderThan 40, olderThanBoth] := rfl
  have inner : Condition.LogicalTree (visitor declared).registry allowed olderThanBoth :=
    .combination isLogical_olderThanBoth operator_olderThanBoth.1 both readBoth (by
      simp only [List.mem_cons, List.not_mem_nil, or_false, forall_eq_or_imp, forall_eq]
      exact ⟨leaf_olderThan, leaf_olderThan⟩)
  exact .combination isLogical_eitherAge rfl either readEither (by
    simp only [List.mem_cons, List.not_mem_nil, or_false, forall_eq_or_imp, forall_eq]
    exact ⟨leaf_olderThan, inner⟩)

theorem tree_notOlder :
    Condition.LogicalTree (visitor declared).registry (fun _ => True) notOlder :=
  .negation isLogical_notOlder trivial rfl leaf_olderThan rfl

namespace Evaluation

open Condition

/-- A disjunction whose type does not say its operator is evaluated as a conjunction, and a negation
as one of nothing. The store takes both for what their predicates are. -/
theorem interpretations_differ :
    (visitor none).Attached ∧
    LogicalTree (visitor none).registry (fun _ => True) eitherAge ∧
    (evaluate (visitor none) eitherAge).value = .ok false ∧
    Store.testMatch (visitor none).names eitherAge (visitor none).profile = .ok true ∧
    LogicalTree (visitor none).registry (fun _ => True) notOlder ∧
    (evaluate (visitor none) notOlder).value = .ok true ∧
    Store.testMatch (visitor none).names notOlder (visitor none).profile = .ok false :=
  ⟨attached_visitor, tree_eitherAge trivial trivial,
    toOption_eq_some.1 (by decide +kernel), toOption_eq_some.1 (by decide +kernel),
    tree_notOlder,
    toOption_eq_some.1 (by decide +kernel), toOption_eq_some.1 (by decide +kernel)⟩

/-- Once the type says its operator the disjunction comes to the same with both. -/
theorem value_evaluate_eq_testMatch_eitherAge :
    (visitor (some .or)).Attached ∧
    LogicalTree (visitor (some .or)).registry (CombinesAlike (visitor (some .or)).registry)
      eitherAge ∧
    (evaluate (visitor (some .or)) eitherAge).value = .ok true ∧
    (visitor none).Attached ∧
    (evaluate (visitor none) { typeId := "orCondition" }).value ≠
      Store.testMatch (visitor none).names { typeId := "orCondition" } (visitor none).profile ∧
    (evaluate (visitor none) notOlder).value ≠
      Store.testMatch (visitor none).names notOlder (visitor none).profile := by
  have tree : LogicalTree (visitor (some .or)).registry
      (CombinesAlike (visitor (some .or)).registry) eitherAge :=
    tree_eitherAge ⟨_, _, .or, .or, isLogical_eitherAge, rfl, rfl, .inl rfl⟩
      ⟨_, _, .and, .and, isLogical_olderThanBoth, operator_olderThanBoth.1,
        operator_olderThanBoth.2 _, .inl rfl⟩
  have same := (value_evaluate_eq_testMatch attached_visitor).1 _ (.inl rfl) tree
  obtain ⟨-, childless, negation⟩ := value_evaluate_eq_testMatch (@attached_visitor none)
  have empty : ({ typeId := "orCondition" } : Condition).IsLogical (visitor none).registry
      ((visitor none).registry.classify { id := "orCondition", declaredCategory := some .logical })
      (.combination .or) := ⟨isOf_visitor (by decide) rfl, rfl, rfl⟩
  refine ⟨attached_visitor, tree, ?_, attached_visitor, ?_, ?_⟩
  · rw [same]
    exact toOption_eq_some.1 (by decide +kernel)
  · rw [Ne, childless _ _ _ .or .and (.inl rfl) empty rfl rfl rfl]
    decide
  · rw [Ne, negation _ _ (olderThan 30) .and (.inl rfl) isLogical_notOlder rfl rfl rfl]
    have older : Store.testMatch (visitor none).names (olderThan 30) (visitor none).profile =
      .ok true := toOption_eq_some.1 (by decide +kernel)
    rw [older]
    rintro ⟨⟩

end Evaluation

end Clickstream
