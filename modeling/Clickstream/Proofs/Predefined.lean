import Clickstream.Proofs.Assembly

/-! # Installing predefined goals

Loading the goals of a module tries them one by one, and then those that wait for other modules,
while the store and the waiting goals change. `Installed` says what was done after some of them; it
holds of no candidates and is kept by each one more, so it holds of all. Several candidates may
share an id: whichever comes first and is accepted is stored, and the last one turned down waits if
none was.
-/

namespace Clickstream

/-- Sorting ids that do not repeat puts them in strictly ascending order. -/
theorem pairwise_mergeSort_of_nodup {ids : List String} (nodup : ids.Nodup) :
    ids.mergeSort.Pairwise (· < ·) := by
  have ordered : ids.mergeSort.Pairwise (fun a b => decide (a ≤ b) = true) := by
    apply List.pairwise_mergeSort
    · intro a b c first second
      exact decide_eq_true (String.le_trans (of_decide_eq_true first) (of_decide_eq_true second))
    · intro a b
      simpa using String.le_total a b
  have distinct := (List.mergeSort_perm ids fun a b => a ≤ b).nodup_iff.2 nodup
  refine (ordered.and distinct).imp fun {a b} ⟨le, apart⟩ => ?_
  exact Std.lt_of_le_of_ne (of_decide_eq_true le) apart

theorem ModuleSource.mem_goals {source : ModuleSource} {candidate : PendingGoal} :
    candidate ∈ source.goals ↔ ∃ document ∈ source.documents .goals,
      Goals.candidate? source.id document = some candidate := by
  rw [goals, Goals.candidates, documents]
  dsimp only
  split
  · next reason failed => simp [failed]
  · next documents listed => simp [listed]

namespace Engine

variable {e e' e'' : Engine} {candidate : PendingGoal} {candidates : List PendingGoal}
  {installed : Bool} {ids : List String} {goalId : String} {item : Item}

/-! ## One candidate -/

theorem Restocked.goal {goal : Option Goal} (changed : e.Restocked e'
    (Holdings.withGoal e.store.load e.settings.setPropertyAction goalId goal)) :
    e'.store.load "goal" goalId = goal.map Item.ofEntity := by
  rw [changed.load, Holdings.withGoal_goal]

namespace Installs

theorem registry (step : e.Installs candidate installed e') : e'.registry = e.registry := by
  cases step with
  | there | waits => rfl
  | done _ _ _ changed => exact changed.registry

theorem settings (step : e.Installs candidate installed e') : e'.settings = e.settings := by
  cases step with
  | there | waits => rfl
  | done _ _ _ changed => exact changed.settings

theorem accepts (step : e.Installs candidate installed e') {g : Goal} :
    e'.Accepts g ↔ e.Accepts g :=
  accepts_congr (congrArg _ step.registry) step.settings

theorem others (step : e.Installs candidate installed e') (apart : candidate.goal.id ≠ goalId) :
    e'.store.load "goal" goalId = e.store.load "goal" goalId ∧
      e'.pending.get? goalId = e.pending.get? goalId := by
  cases step with
  | there => exact ⟨rfl, by rw [Table.get?_erase, if_neg apart.symm]⟩
  | done e₁ _ _ changed =>
    constructor
    · show e₁.store.load "goal" goalId = _
      rw [changed.load, Holdings.withGoal_other_goal apart.symm]
    · rw [Table.get?_erase, if_neg apart.symm, changed.pending]
  | waits => exact ⟨rfl, by rw [Table.get?_insert, if_neg apart.symm]⟩

theorem kept (step : e.Installs candidate installed e')
    (found : e.store.load "goal" goalId = some item) :
    e'.store.load "goal" goalId = some item := by
  by_cases same : candidate.goal.id = goalId
  · subst same
    cases step with
    | there => exact found
    | done _ new | waits new =>
      rw [new] at found
      cases found
  · rw [(step.others same).1]
    exact found

end Installs

/-! ## One candidate after the other -/

/-- What is said of an engine after some candidates were tried, against the one before. -/
structure Installed (e : Engine) (candidates : List PendingGoal) (ids : List String) (e' : Engine) :
    Prop where
  registry : e'.registry = e.registry
  settings : e'.settings = e.settings
  kept : ∀ goalId item, e.store.load "goal" goalId = some item →
    e'.store.load "goal" goalId = some item
  nodup : ids.Nodup
  new : ∀ goalId, goalId ∈ ids ↔ e.store.load "goal" goalId = none ∧
    ∃ item, e'.store.load "goal" goalId = some item
  stored : ∀ c ∈ candidates, e.Accepts c.goal → ∃ item, e'.store.load "goal" c.goal.id = some item
  /-- Every new goal is one of the candidates, and was accepted. -/
  added : ∀ goalId item, e.store.load "goal" goalId = none →
    e'.store.load "goal" goalId = some item →
      ∃ c ∈ candidates, item = Item.ofEntity c.goal.kept ∧ e.Accepts c.goal
  /-- Who waits now either waited before and was not tried, or was turned down. -/
  waiting : ∀ goalId p, e'.pending.get? goalId = some p →
    (e.pending.get? goalId = some p ∧ ∀ c ∈ candidates, c.goal.id ≠ goalId) ∨
      p ∈ candidates ∧ p.goal.id = goalId ∧ ¬ e.Accepts p.goal ∧
        e'.store.load "goal" goalId = none
  placed : ∀ c ∈ candidates, (∃ item, e'.store.load "goal" c.goal.id = some item) ∨
    ∃ p, e'.pending.get? c.goal.id = some p
  others : ∀ goalId, (∀ c ∈ candidates, c.goal.id ≠ goalId) →
    e'.store.load "goal" goalId = e.store.load "goal" goalId ∧
      e'.pending.get? goalId = e.pending.get? goalId

theorem Installed.nil : e.Installed [] [] e where
  registry := rfl
  settings := rfl
  kept _ _ found := found
  nodup := List.nodup_nil
  new goalId := by
    simp only [List.not_mem_nil, false_iff, not_and]
    rintro none ⟨item, found⟩
    rw [none] at found
    cases found
  stored c none := absurd none List.not_mem_nil
  added goalId item none found := by
    rw [none] at found
    cases found
  waiting goalId p found := .inl ⟨found, fun c none => absurd none List.not_mem_nil⟩
  placed c none := absurd none List.not_mem_nil
  others _ _ := ⟨rfl, rfl⟩

theorem Installed.cons (step : e.Installs candidate installed e')
    (rest : e'.Installed candidates ids e'') :
    e.Installed (candidate :: candidates) (if installed then candidate.goal.id :: ids else ids)
      e'' where
  registry := rest.registry.trans step.registry
  settings := rest.settings.trans step.settings
  kept goalId item found := rest.kept goalId item (step.kept found)
  nodup := by
    cases step with
    | there | waits => exact rest.nodup
    | done e₁ new accepted changed =>
      refine List.nodup_cons.2 ⟨fun listed => ?_, rest.nodup⟩
      have none := ((rest.new candidate.goal.id).1 listed).1
      cases none.symm.trans changed.goal
  new goalId := by
    by_cases same : candidate.goal.id = goalId
    · subst same
      cases step with
      | there | waits => exact rest.new _
      | done e₁ new accepted changed =>
        exact ⟨fun _ => ⟨new, _, rest.kept _ _ changed.goal⟩, fun _ => List.mem_cons_self⟩
    · rw [← (step.others same).1, ← rest.new goalId]
      cases installed with
      | false => rfl
      | true => simp [Ne.symm same]
  stored := by
    refine List.forall_mem_cons.2 ⟨fun accepted => ?_, fun c member accepted => ?_⟩
    · cases step with
      | there item found => exact ⟨item, rest.kept _ _ found⟩
      | done e₁ _ _ changed => exact ⟨_, rest.kept _ _ changed.goal⟩
      | waits _ rejected => exact absurd accepted rejected
    · exact rest.stored c member (step.accepts.2 accepted)
  added goalId item none found := by
    have later (still : e'.store.load "goal" goalId = Option.none) :
        ∃ c ∈ candidate :: candidates, item = Item.ofEntity c.goal.kept ∧ e.Accepts c.goal := by
      obtain ⟨c, member, isItem, accepted⟩ := rest.added goalId item still found
      exact ⟨c, List.mem_cons_of_mem _ member, isItem, step.accepts.1 accepted⟩
    by_cases same : candidate.goal.id = goalId
    · subst same
      cases step with
      | there | waits => exact later none
      | done e₁ new accepted changed =>
        rw [rest.kept _ _ changed.goal] at found
        exact ⟨candidate, List.mem_cons_self, (Option.some.inj found).symm, accepted⟩
    · exact later ((step.others same).1.trans none)
  waiting goalId p found := by
    rcases rest.waiting goalId p found with ⟨before, untried⟩ | ⟨member, own, rejected, none⟩
    · by_cases same : candidate.goal.id = goalId
      · subst same
        cases step with
        | there | done =>
          rw [Table.get?_erase, if_pos rfl] at before
          cases before
        -- The candidate waits, and none of those that come later is tried under its id.
        | waits new rejected =>
          rw [Table.get?_insert, if_pos rfl] at before
          cases before
          exact .inr ⟨List.mem_cons_self, rfl, rejected, (rest.others _ untried).1.trans new⟩
      · rw [(step.others same).2] at before
        exact .inl ⟨before, List.forall_mem_cons.2 ⟨same, untried⟩⟩
    · exact .inr ⟨List.mem_cons_of_mem _ member, own, fun accepted =>
        rejected (step.accepts.2 accepted), none⟩
  placed := by
    refine List.forall_mem_cons.2 ⟨?_, rest.placed⟩
    cases step with
    | there item found => exact .inl ⟨item, rest.kept _ _ found⟩
    | done e₁ _ _ changed => exact .inl ⟨_, rest.kept _ _ changed.goal⟩
    | waits =>
      by_cases again : ∃ c ∈ candidates, c.goal.id = candidate.goal.id
      · obtain ⟨c, member, same⟩ := again
        exact same ▸ rest.placed c member
      · have untried : ∀ c ∈ candidates, c.goal.id ≠ candidate.goal.id :=
          fun c member same => again ⟨c, member, same⟩
        exact .inr ⟨candidate, by rw [(rest.others _ untried).2, Table.get?_insert, if_pos rfl]⟩
  others goalId untried := by
    obtain ⟨here, later⟩ := List.forall_mem_cons.1 untried
    obtain ⟨load, pending⟩ := rest.others goalId later
    obtain ⟨load', pending'⟩ := step.others here
    exact ⟨load.trans load', pending.trans pending'⟩

theorem ends_installed :
    e.Ends (Goals.installGoals candidates) (fun ids e' => e.Installed candidates ids e')
      (fun error _ => error.IsIo) := by
  induction candidates generalizing e with
  | nil => exact Installed.nil
  | cons candidate rest ih =>
    simp only [Goals.installGoals, ends_bind, ends_pure]
    refine installs.mono (fun installed e₁ step => ?_) fun _ _ failed => failed
    exact ih.mono (fun ids e₂ others => Installed.cons step others) fun _ _ failed => failed

/-! ## Goals that are turned down -/

/-- Setting a goal under its id would fail because of a missing type, and change nothing. -/
def TurnsDown (e : Engine) (g : Goal) : Prop :=
  e.Ends (Goals.setGoal g.id g) (fun _ _ => False) fun error e' => error.IsRejection ∧ e' = e

theorem turnsDown_iff {g : Goal} : e.TurnsDown g ↔ ¬ e.Accepts g := by
  unfold TurnsDown
  constructor
  · intro down accepted
    have both := ends_setGoal.and down
    cases ended : e.outcome (Goals.setGoal g.id g) with
    | mk result e' =>
      cases result with
      | ok => exact (both.well ended).2
      | error error =>
        obtain ⟨⟨⟨path, rfl⟩, _⟩ | ⟨⟨_, rejected⟩, _⟩, rejection, _⟩ := both.badly ended
        · exact rejection
        · exact rejected accepted
  · intro rejected
    refine ends_setGoal.mono (fun _ _ set => rejected set.1) fun error e' failed => ?_
    rcases failed with ⟨_, accepted⟩ | ⟨⟨rejection, _⟩, same⟩
    · exact absurd accepted rejected
    · exact ⟨rejection, same⟩

/-! ## Loading the goals of a module -/

/-- A goal that is tried when the goals of a module are loaded: one of its documents, or one that
waits for another module. -/
def Offers (e : Engine) (source : ModuleSource) (candidate : PendingGoal) : Prop :=
  (∃ document ∈ source.documents .goals, Goals.candidate? source.id document = some candidate) ∨
    ∃ goalId, e.pending.get? goalId = some candidate ∧ candidate.module ≠ source.id

/-- An engine in which the goals of a module wait no longer. -/
def forget (e : Engine) (module : ModuleId) : Engine :=
  { e with pending := e.pending.filter fun _ p => p.module ≠ module }

/-- What waits after a module is forgotten waited before, and for another one. -/
theorem pending_forget {module : ModuleId} {waiting : PendingGoal} :
    (e.forget module).pending.get? goalId = some waiting ↔
      e.pending.get? goalId = some waiting ∧ waiting.module ≠ module := by
  rw [forget, Table.get?_filter, Option.filter_eq_some_iff, decide_eq_true_iff]

theorem offers_iff {source : ModuleSource} : e.Offers source candidate ↔
    candidate ∈ source.goals ++ (e.forget source.id).pending.values := by
  simp only [Offers, List.mem_append, ModuleSource.mem_goals, Table.mem_values, pending_forget]

theorem ends_loadGoals_iff {source : ModuleSource} {good : List String → Engine → Prop}
    {bad : GoalError → Engine → Prop} : e.Ends (Goals.loadGoals source) good bad ↔
      (e.forget source.id).Ends
        (Goals.installGoals (source.goals ++ (e.forget source.id).pending.values))
        (fun ids e' => good ids.mergeSort e') bad := by
  simp only [Goals.loadGoals, Goals.forgetGoals, ends_bind, ends_modify, ends_log, ends_get,
    ends_pure]
  rfl

theorem ends_loadGoals {source : ModuleSource} :
    e.Ends (Goals.loadGoals source)
      (fun answer e' => ∃ ids, answer = ids.mergeSort ∧ (e.forget source.id).Installed
        (source.goals ++ (e.forget source.id).pending.values) ids e')
      (fun error _ => error.IsIo) :=
  ends_loadGoals_iff.2
    (ends_installed.mono (fun ids _ done => ⟨ids, rfl, done⟩) fun _ _ failed => failed)

/-- Every goal waits under its own id. -/
def WaitsByOwnId (e : Engine) : Prop :=
  ∀ goalId waiting, e.pending.get? goalId = some waiting → waiting.goal.id = goalId

/-- What loading the goals of a module leaves behind, and what it answers. -/
structure Settles (e : Engine) (source : ModuleSource) (ids : List String) (e' : Engine) :
    Prop where
  kept : ∀ goalId item, e.store.load "goal" goalId = some item →
    e'.store.load "goal" goalId = some item
  stored : ∀ c, e.Offers source c → ¬ e.TurnsDown c.goal →
    ∃ item, e'.store.load "goal" c.goal.id = some item
  waiting : ∀ goalId p, e'.pending.get? goalId = some p →
    p.goal.id = goalId ∧ e'.store.load "goal" goalId = none ∧ e'.TurnsDown p.goal
  ascending : ids.Pairwise (· < ·)
  installed : ∀ goalId, goalId ∈ ids ↔ e.store.load "goal" goalId = none ∧
    ∃ item, e'.store.load "goal" goalId = some item

theorem WaitsByOwnId.loadGoals (own : e.WaitsByOwnId) {source : ModuleSource} :
    e.Ends (Goals.loadGoals source) (fun ids e' => e.Settles source ids e')
      (fun error _ => error.IsIo) := by
  refine ends_loadGoals.mono ?_ fun _ _ failed => failed
  rintro _ e' ⟨ids, rfl, done⟩
  have accepts (g : Goal) : e'.Accepts g ↔ e.Accepts g :=
    accepts_congr (congrArg _ done.registry) done.settings
  constructor
  · exact done.kept
  · intro c offered accepted
    rw [turnsDown_iff, not_not] at accepted
    exact done.stored c (offers_iff.1 offered) ⟨accepted.knows, accepted.action⟩
  · intro goalId p found
    rcases done.waiting goalId p found with ⟨before, untried⟩ | ⟨_, same, rejected, none⟩
    -- Whatever waited was tried under its own id.
    · have tried := List.mem_append_right source.goals (Table.mem_values.2 ⟨goalId, before⟩)
      exact absurd (own goalId p (pending_forget.1 before).1) (untried p tried)
    · refine ⟨same, none, turnsDown_iff.2 fun accepted => rejected ?_⟩
      obtain ⟨knows, action⟩ := (accepts p.goal).1 accepted
      exact ⟨knows, action⟩
  · exact pairwise_mergeSort_of_nodup done.nodup
  · intro goalId
    rw [List.mem_mergeSort]
    exact done.new goalId

end Engine

end Clickstream
