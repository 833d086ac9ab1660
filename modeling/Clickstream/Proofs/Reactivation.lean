import Clickstream.Proofs.Mappings
import Clickstream.Proofs.WaitingGoals

/-! # Activating a module again

Activating a module a second time, from the same source and at once, changes nothing. Its documents
put in what they put in before, and what it keeps in a namespace that it cannot list is by then its
own. Every goal that it ships or that waits for it is stored or turned down, and what was turned
down waits as before: the goals of the module are forgotten first, but come back from its documents
unless another module waits under the same id, and that one waited the first time, too.
-/

namespace Clickstream

/-! ## Definitions -/

namespace Registry

variable {r : Registry} {source : ModuleSource} {kind : DefinitionKind} {name : String}

/-- What was put in for a module is what it owns afterwards. -/
theorem last?_incoming : Declaration.last? (r.definitions.incoming source kind) name =
    ((r.load source).1.definitions.declaration? kind name).filter
      fun x => x.owner = some source.id := by
  rw [declaration?_load]
  cases put : Declaration.last? (r.definitions.incoming source kind) name with
  | some x =>
    have owner := Definitions.owner_of_mem_incoming (Declaration.of_last? put).1
    rw [Option.some_or, Option.filter_some, if_pos (decide_eq_true owner)]
  | none =>
    rw [Option.none_or, Option.filter_filter]
    simp

/-- So it is put in when the module is loaded again. -/
theorem last?_incoming_load :
    Declaration.last? ((r.load source).1.definitions.incoming source kind) name =
      ((r.load source).1.definitions.declaration? kind name).filter
        fun x => x.owner = some source.id := by
  rw [Definitions.incoming]
  cases listed : source.lists kind.ns with
  | true =>
    rw [← last?_incoming, Definitions.incoming, listed, if_pos rfl, if_pos rfl]
  | false =>
    have own {id : String} {x : Declaration}
        (found : (r.load source).1.definitions.declaration? kind id = some x)
        (owner : x.owner = some source.id) : x.id = id := by
      have put := @last?_incoming r source kind id
      rw [found, Option.filter_some, if_pos (decide_eq_true owner)] at put
      exact (Declaration.of_last? put).2
    refine Option.ext fun x => ?_
    rw [if_neg Bool.false_ne_true, Option.filter_eq_some_iff, decide_eq_true_iff]
    constructor
    · intro last
      obtain ⟨member, rfl⟩ := Declaration.of_last? last
      obtain ⟨⟨id, found⟩, owner⟩ := Definitions.mem_owned.1 member
      exact ⟨own found owner ▸ found, owner⟩
    · rintro ⟨found, owner⟩
      have member := Definitions.mem_owned.2 ⟨⟨name, found⟩, owner⟩
      have isName := own found owner
      subst isName
      obtain ⟨y, last⟩ := Declaration.exists_last? (List.mem_map_of_mem member)
      obtain ⟨member', sameId⟩ := Declaration.of_last? last
      obtain ⟨⟨id', found'⟩, owner'⟩ := Definitions.mem_owned.1 member'
      obtain rfl := own found' owner'
      rw [sameId, found] at found'
      rw [last, found']

/-- Loading a module again changes no definition. -/
theorem definitions_load_load :
    ((r.load source).1.load source).1.definitions = (r.load source).1.definitions := by
  refine Definitions.ext fun kind name => ?_
  rw [declaration?_load, last?_incoming_load]
  cases (r.load source).1.definitions.declaration? kind name with
  | none => rfl
  | some x => by_cases owner : x.owner = some source.id <;> simp [owner]

theorem index_load_load :
    ((r.load source).1.load source).1.index = (r.load source).1.index :=
  congrArg Index.ofDefinitions definitions_load_load

theorem removed_load_load :
    ((r.load source).1.load source).2.1.removed.isEmpty = true := by
  refine Contributions.isEmpty_iff.2 fun kind name removed => ?_
  obtain ⟨⟨x, before⟩, gone⟩ := (reports_load kind name).1 removed
  rw [← definitions_load_load] at before
  exact gone ⟨x, before⟩

end Registry

/-! ## Which candidate waits -/

namespace Goals

variable {candidate : PendingGoal} {candidates others : List PendingGoal} {goalId : String}

/-- The last candidate with an id. -/
def latest? (candidates : List PendingGoal) (goalId : String) : Option PendingGoal :=
  candidates.reverse.find? fun c => c.goal.id = goalId

theorem latest?_append :
    latest? (candidates ++ others) goalId =
      (latest? others goalId).or (latest? candidates goalId) := by
  simp only [latest?, List.reverse_append, List.find?_append]

theorem latest?_cons : latest? (candidate :: candidates) goalId =
    (latest? candidates goalId).or
      (if candidate.goal.id = goalId then some candidate else none) := by
  rw [← List.singleton_append, latest?_append]
  congr 1
  simp [latest?, List.find?_singleton]

theorem of_latest? (h : latest? candidates goalId = some candidate) :
    candidate ∈ candidates ∧ candidate.goal.id = goalId :=
  ⟨List.mem_reverse.1 (List.mem_of_find?_eq_some h), by simpa using List.find?_some h⟩

theorem latest?_eq_none :
    latest? candidates goalId = none ↔ ∀ c ∈ candidates, c.goal.id ≠ goalId := by
  simp [latest?, List.find?_eq_none]

/-- Among goals that wait under their own ids there is one for each id. -/
theorem latest?_values {waiting : Table PendingGoal}
    (own : ∀ key p, waiting.get? key = some p → p.goal.id = key) :
    latest? waiting.values goalId = waiting.get? goalId := by
  refine Option.ext fun p => ⟨fun last => ?_, fun found => ?_⟩
  · obtain ⟨member, rfl⟩ := of_latest? last
    obtain ⟨key, found⟩ := Table.mem_values.1 member
    rwa [own key p found]
  · cases last : latest? waiting.values goalId with
    | none =>
      exact absurd (own _ _ found) (latest?_eq_none.1 last p (Table.mem_values.2 ⟨_, found⟩))
    | some q =>
      obtain ⟨member, rfl⟩ := of_latest? last
      obtain ⟨key, found'⟩ := Table.mem_values.1 member
      rw [← own key q found'] at found'
      rw [← found', found]

end Goals

namespace Engine

variable {e e' e'' : Engine} {candidate : PendingGoal} {candidates : List PendingGoal}
  {source : ModuleSource} {goalId : String}

/-- Of the candidates with an id that no goal has in the end, the last one waits. -/
theorem ends_latest : e.Ends (Goals.installGoals candidates)
    (fun _ e' => ∀ goalId, e'.store.load "goal" goalId = none →
      e'.pending.get? goalId = (Goals.latest? candidates goalId).or (e.pending.get? goalId))
    (fun _ _ => True) := by
  induction candidates generalizing e with
  | nil => exact fun _ _ => rfl
  | cons candidate rest ih =>
    simp only [Goals.installGoals, ends_bind, ends_pure]
    refine installs.mono (fun installed e₁ step => ?_) fun _ _ _ => trivial
    refine (ih.and ends_installed).mono ?_ fun _ _ _ => trivial
    rintro ids e₂ ⟨waits, done⟩ goalId none
    have noneBefore : e₁.store.load "goal" goalId = Option.none := by
      refine Option.eq_none_iff_forall_ne_some.2 fun item found => ?_
      rw [done.kept goalId item found] at none
      cases none
    rw [waits goalId none, Goals.latest?_cons, Option.or_assoc]
    congr 1
    by_cases same : candidate.goal.id = goalId
    · subst same
      cases step with
      | there item found =>
        cases found.symm.trans noneBefore
      | done e₃ _ _ changed =>
        cases changed.goal.symm.trans noneBefore
      | waits => simp
    · rw [if_neg same, Option.none_or]
      exact (step.others same).2

/-- What waits after the goals of a module are loaded: under every id without a goal, what waits for
another module, or else the last goal of the module with that id. -/
def WaitsAfter (e : Engine) (source : ModuleSource) (e' : Engine) : Prop :=
  ∀ goalId, e'.pending.get? goalId = match e'.store.load "goal" goalId with
    | some _ => none
    | none => ((e.forget source.id).pending.get? goalId).or (Goals.latest? source.goals goalId)

theorem WaitsByOwnId.waitsAfter (own : e.WaitsByOwnId) :
    e.Ends (Goals.loadGoals source) (fun _ e' => e.WaitsAfter source e') (fun _ _ => True) := by
  rw [ends_loadGoals_iff]
  refine (ends_latest.and ends_installed).mono ?_ fun _ _ _ => trivial
  rintro ids e' ⟨waits, done⟩ goalId
  cases stored : e'.store.load "goal" goalId with
  | some item =>
    refine Option.eq_none_iff_forall_ne_some.2 fun p found => ?_
    rcases done.waiting goalId p found with ⟨before, untried⟩ | ⟨-, -, -, none⟩
    · have tried := List.mem_append_right source.goals (Table.mem_values.2 ⟨goalId, before⟩)
      exact untried p tried (own.forget goalId p before)
    · cases none.symm.trans stored
  | none =>
    rw [waits goalId stored, Goals.latest?_append, Goals.latest?_values own.forget]
    cases (e.forget source.id).pending.get? goalId <;> simp

/-! ## Goals that are settled -/

/-- There is a goal with the id of a candidate, or the candidate is turned down. -/
def Settled (e : Engine) (candidate : PendingGoal) : Prop :=
  (∃ item, e.store.load "goal" candidate.goal.id = some item) ∨ ¬ e.Accepts candidate.goal

theorem ends_installGoal_settled (settled : e.Settled candidate) :
    e.Ends (Goals.installGoal candidate)
      (fun installed e' => installed = false ∧ ∃ pending, e' = { e with pending })
      (fun _ _ => False) := by
  simp only [Goals.installGoal, Goals.unpark, ends_bind, ends_get]
  split
  · exact ⟨rfl, _, rfl⟩
  · next notThere =>
    have rejected : ¬ e.Accepts candidate.goal := by
      refine settled.resolve_left ?_
      rintro ⟨item, found⟩
      rw [found] at notThere
      exact notThere rfl
    simp only [ends_bind, ends_attempt]
    refine Ends.mono (turnsDown_iff.2 rejected) (fun _ _ failed => failed.elim) ?_
    rintro error _ ⟨rejection, rfl⟩
    cases error with
    | store | notFound => exact rejection.elim
    | unresolvedCondition | missingActionType => exact ⟨rfl, _, rfl⟩

/-- Nothing is installed of what is settled, and only the waiting goals change. -/
theorem ends_installGoals_settled (settled : ∀ c ∈ candidates, e.Settled c) :
    e.Ends (Goals.installGoals candidates)
      (fun ids e' => ids = [] ∧ ∃ pending, e' = { e with pending }) (fun _ _ => False) := by
  induction candidates generalizing e with
  | nil => exact ⟨rfl, _, rfl⟩
  | cons candidate rest ih =>
    obtain ⟨here, later⟩ := List.forall_mem_cons.1 settled
    simp only [Goals.installGoals, ends_bind, ends_pure]
    refine (ends_installGoal_settled here).mono ?_ fun _ _ failed => failed
    rintro _ _ ⟨rfl, pending, rfl⟩
    have still (c : PendingGoal) (member : c ∈ rest) : Settled { e with pending } c :=
      (later c member).imp_right fun rejected accepted => rejected ⟨accepted.knows, accepted.action⟩
    refine (ih still).mono ?_ fun _ _ failed => failed
    rintro _ _ ⟨rfl, pending', rfl⟩
    exact ⟨rfl, pending', rfl⟩

theorem ends_loadGoals_settled
    (settled : ∀ c ∈ source.goals ++ e.pending.values, e.Settled c) :
    e.Ends (Goals.loadGoals source) (fun ids e' => ids = [] ∧ ∃ pending, e' = { e with pending })
      (fun _ _ => False) := by
  rw [ends_loadGoals_iff]
  refine (ends_installGoals_settled fun c member => ?_).mono ?_ fun _ _ failed => failed
  · have inside : c ∈ source.goals ++ e.pending.values := by
      refine (List.mem_append.1 member).elim (List.mem_append_left _) fun waits => ?_
      obtain ⟨goalId, found⟩ := Table.mem_values.1 waits
      exact List.mem_append_right _ (Table.mem_values.2 ⟨goalId, (pending_forget.1 found).1⟩)
    exact (settled c inside).imp_right fun rejected accepted =>
      rejected ⟨accepted.knows, accepted.action⟩
  · rintro _ _ ⟨rfl, pending, rfl⟩
    exact ⟨List.mergeSort_nil, pending, rfl⟩

/-! ## The second activation -/

/-- What activating a module leaves: its documents are those of the definitions, its goals and all
that wait are settled, and what waits is what can. -/
structure Activated (e : Engine) (source : ModuleSource) : Prop where
  loaded : ∃ r : Registry, e.registry = (r.load source).1
  own : e.WaitsByOwnId
  settled : ∀ c ∈ source.goals ++ e.pending.values, e.Settled c
  waits : ∃ before : Engine, before.WaitsAfter source e

theorem WaitsByOwnId.activate (own : e.WaitsByOwnId) :
    e.Ends (Server.activate source) (fun _ e' => e'.Activated source) (fun _ _ => True) := by
  have keeps {ids : IdSet} : Preserves
      (fun e' => e'.registry = (e.registry.load source).1 ∧ e'.WaitsByOwnId)
      (Goals.disableUsing ids) :=
    .disableUsing fun _ => .disable (fun _ => .remove fun _ h => h) rfl (.save fun _ _ h _ => h)
  simp only [Server.activate, Server.ofGoals, ends_bind, ends_pure, ends_adapt]
  refine ends_loadModule.mono (fun report e₁ loads => ?_) fun _ _ _ => trivial
  have own₁ : e₁.WaitsByOwnId := WaitsByOwnId.ofPending _ _ loads.pending own
  refine (Preserves.iff_ends.1 keeps e₁ ⟨loads.registry, own₁⟩).mono ?_ fun _ _ _ => trivial
  rintro _ e₂ ⟨registry, own₂⟩
  refine (own₂.waitsAfter.and ends_loadGoals).mono ?_ fun _ _ _ => trivial
  rintro _ e₃ ⟨waits, ids, -, done⟩
  have accepts (g : Goal) : e₃.Accepts g ↔ (e₂.forget source.id).Accepts g :=
    accepts_congr (congrArg _ done.registry) done.settings
  -- Whatever waited was tried under its own id.
  have rejected {goalId : String} {p : PendingGoal} (found : e₃.pending.get? goalId = some p) :
      p.goal.id = goalId ∧ ¬ e₃.Accepts p.goal := by
    rcases done.waiting goalId p found with ⟨before, untried⟩ | ⟨-, own, rejected, -⟩
    · have tried := List.mem_append_right source.goals (Table.mem_values.2 ⟨goalId, before⟩)
      exact absurd (own₂.forget goalId p before) (untried p tried)
    · exact ⟨own, fun accepted => rejected ((accepts p.goal).1 accepted)⟩
  refine ⟨⟨_, done.registry.trans registry⟩, fun goalId p found => (rejected found).1, ?_, _, waits⟩
  intro c member
  rcases List.mem_append.1 member with shipped | waiting
  · by_cases accepted : e₃.Accepts c.goal
    · exact .inl (done.stored c (List.mem_append_left _ shipped) ((accepts c.goal).1 accepted))
    · exact .inr accepted
  · obtain ⟨goalId, found⟩ := Table.mem_values.1 waiting
    exact .inr (rejected found).2

/-- Goals of a module that are forgotten and then loaded again wait as before. -/
theorem WaitsAfter.again {before e₁ : Engine} (first : before.WaitsAfter source e)
    (same : e₁.pending = e.pending) (second : e₁.WaitsAfter source e')
    (load : e'.store.load = e.store.load) : e'.pending = e.pending := by
  refine Table.ext fun goalId => ?_
  have here := first goalId
  rw [second goalId, load, forget, Table.get?_filter, same]
  cases stored : e.store.load "goal" goalId with
  | some item =>
    rw [stored] at here
    exact here.symm
  | none =>
    rw [stored] at here
    rw [here]
    cases other : (before.forget source.id).pending.get? goalId with
    | some p =>
      have apart := (pending_forget.1 other).2
      simp [apart]
    | none =>
      cases last : Goals.latest? source.goals goalId with
      | none => rfl
      | some c =>
        have isOwn := ModuleSource.module_of_mem_goals (Goals.of_latest? last).1
        simp [Option.filter_some, isOwn]

theorem Activated.again (h : e.Activated source) :
    e.Ends (Server.activate source)
      (fun again e' => again.load.removed.isEmpty = true ∧ again.goalsInstalled = [] ∧
        again.goalsDisabled = [] ∧ (e.store.mappings = e'.store.mappings → e.SameContents e'))
      (fun _ _ => False) := by
  obtain ⟨⟨r, loaded⟩, own, settled, before, waits⟩ := h
  simp only [Server.activate, Server.ofGoals, ends_bind, ends_pure, ends_adapt]
  refine ends_loadModule.mono (fun report e₁ loads => ?_) fun _ _ failed => failed
  have registry := loads.registry
  rw [loaded] at registry
  have definitions : e₁.registry.definitions = e.registry.definitions := by
    rw [registry, loaded, Registry.definitions_load_load]
  have nothing : report.removed.isEmpty = true := by
    rw [loads.removed, loaded]
    exact Registry.removed_load_load
  have noTypes : report.removed.conditionTypes.isEmpty = true :=
    IdSet.isEmpty_iff.2 (Contributions.isEmpty_iff.1 nothing .conditionType)
  refine ends_disableUsing_empty noTypes ?_
  have settled₁ : ∀ c ∈ source.goals ++ e₁.pending.values, e₁.Settled c := by
    intro c member
    rw [loads.pending] at member
    rw [Settled, loads.load, accepts_congr definitions loads.settings]
    exact settled c member
  have own₁ : e₁.WaitsByOwnId := WaitsByOwnId.ofPending _ _ loads.pending own
  refine (own₁.waitsAfter.and (ends_loadGoals_settled settled₁)).mono ?_ fun _ _ failed => failed.2
  rintro ids e₂ ⟨waits₁, rfl, pending, rfl⟩
  refine ⟨nothing, rfl, rfl, fun mappings => ?_⟩
  exact {
    definitions := definitions.symm
    index := by
      show e.registry.index = e₁.registry.index
      rw [registry, loaded, Registry.index_load_load]
    goals := fun goalId => by rw [← loads.load]
    rules := fun ruleId => by rw [← loads.load]
    mappings := mappings
    pending := (waits.again loads.pending waits₁ loads.load).symm }

end Engine

/-- Activating a module again at once neither fails nor does anything, whatever its source and
whatever had happened before. -/
theorem Server.activate_again {e e' : Engine} {source : ModuleSource} {report : ActivationReport}
    (arises : e.Arises) (ended : e.outcome (Server.activate source) = (.ok report, e')) :
    e'.Ends (Server.activate source)
      (fun again e'' => again.load.removed.isEmpty = true ∧ again.goalsInstalled = [] ∧
        again.goalsDisabled = [] ∧ e'.SameContents e'')
      (fun _ _ => False) := by
  have activated : e'.Activated source := arises.waitsByOwnId.activate.well ended
  have taken : e.HasTaken (source.documents .mappings) e' :=
    Engine.takeMappings_of_activate.well ended
  refine (activated.again.and Engine.takeMappings_of_activate).mono ?_ fun _ _ failed => failed.1
  rintro again e'' ⟨⟨nothing, noneInstalled, noneDisabled, contents⟩, takenAgain⟩
  exact ⟨nothing, noneInstalled, noneDisabled, contents (taken.again takenAgain).symm⟩

/-- A document of a goal with one condition type at either end. -/
def goalDocument (goalId type : String) : SourceDocument where
  name := goalId
  origin := goalId
  content := "\x7b\"metadata\":\x7b\"id\":\"" ++ goalId ++ "\"\x7d,"
    ++ "\"startEvent\":\x7b\"type\":\"" ++ type ++ "\"\x7d,"
    ++ "\"targetEvent\":\x7b\"type\":\"" ++ type ++ "\"\x7d\x7d"

/-- A document of a definition that has only an id. -/
def bareDocument (id : String) : SourceDocument := ⟨id, id, "\x7b\"id\":\"" ++ id ++ "\"\x7d"⟩

/-- A module with a goal on one of its two condition types. -/
def draftForms : ModuleSource where
  id := "forms"
  list
    | .tags => { documents := .ok [bareDocument "form"] }
    | .conditions => { documents := .ok [bareDocument "formView", bareDocument "formSubmit"] }
    | .actions => { documents := .ok [bareDocument "setPropertyAction"] }
    | .goals => { documents := .ok [goalDocument "view" "formView"] }
    | _ => { documents := .ok [] }

/-- The module after one of the condition types was dropped. Its tags cannot be read, a condition
type is there twice, a document is none, and one of its new goals needs a type of another module. -/
def finalForms : ModuleSource where
  id := "forms"
  list
    | .tags => { documents := .error "unreadable" }
    | .conditions => { documents := .ok [bareDocument "formSubmit", ⟨"stray", "stray", "stray"⟩,
        bareDocument "formSubmit"] }
    | .actions => { documents := .ok [bareDocument "setPropertyAction"] }
    | .mappings => { documents := .ok [⟨"form", "form", "\x7b\x7d"⟩, ⟨"stray", "stray", "stray"⟩] }
    | .goals =>
      { documents := .ok [goalDocument "signup" "formSubmit", goalDocument "payment" "pay"] }
    | _ => { documents := .ok [] }

/-- An engine with the first version of the module. -/
def drafted : Engine := (({} : Engine).outcome (ServerCall.activate draftForms).operation).2

/-- The second version disables a goal, installs one and lets one wait; coming again it does
nothing. -/
theorem Server.activate_again_forms :
    ∃ report e', drafted.Arises ∧ drafted.outcome (Server.activate finalForms) = (.ok report, e') ∧
      report.load.removed.conditionTypes.toList = ["formView"] ∧ report.goalsDisabled = ["view"] ∧
      report.goalsInstalled = ["signup"] ∧ e'.pending.keys = ["payment"] ∧
      e'.Ends (Server.activate finalForms)
        (fun again e'' => again.load.removed.isEmpty = true ∧ again.goalsInstalled = [] ∧
          again.goalsDisabled = [] ∧ e'.SameContents e'')
        (fun _ _ => False) := by
  have opened : ({} : Engine).Arises := .opened rfl
  have arises : drafted.Arises := Engine.Arises.operation (.activate draftForms) _ opened
  have answered : ((drafted.outcome (Server.activate finalForms)).1.toOption.map fun report =>
      (report.load.removed.conditionTypes.toList, report.goalsDisabled, report.goalsInstalled)) =
      some (["formView"], ["view"], ["signup"]) := by decide +kernel
  have waits : (drafted.outcome (Server.activate finalForms)).2.pending.keys = ["payment"] := by
    decide +kernel
  generalize drafted = e at arises answered waits ⊢
  obtain ⟨report, answered, facts⟩ := Option.map_eq_some_iff.1 answered
  simp only [Prod.mk.injEq] at facts
  have ended := Engine.outcome_of_toOption answered
  exact ⟨report, _, arises, ended, facts.1, facts.2.1, facts.2.2, waits,
    activate_again arises ended⟩

end Clickstream
