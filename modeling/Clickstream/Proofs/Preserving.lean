import Clickstream.Proofs.GoalChanges
import Clickstream.Server

/-! # What operations preserve, however they end

An operation that fails keeps what it had changed until then, so what is to hold of an engine
afterwards has to hold after each single change on the way. These lemmas take the operations on
goals apart into the items that they write and delete, one after the other: what every such change
preserves is preserved by the operation, whichever of them was the last one done.
-/

namespace Clickstream

namespace Engine

variable {P : Engine → Prop} {goalId : String}

def Preserves {ε α : Type} (P : Engine → Prop) (operation : Operation ε α) : Prop :=
  ∀ e, P e → P (e.outcome operation).2

namespace Preserves

section

variable {ε ε' α β : Type}

theorem pure {answer : α} : Preserves P (pure answer : Operation ε α) := fun _ h => h

theorem throw {error : ε} : Preserves P (throw error : Operation ε α) := fun _ h => h

theorem log {lines : List LogLine} : Preserves P (Operation.log lines : Operation ε Unit) :=
  fun _ h => h

theorem bind {first : Operation ε β} {next : β → Operation ε α} (h : Preserves P first)
    (h' : ∀ answer, Preserves P (next answer)) : Preserves P (first >>= next) := by
  intro e before
  have between := h e before
  rw [outcome_bind]
  revert between
  rcases e.outcome first with ⟨_ | answer, e'⟩ <;> intro between
  · exact between
  · exact h' answer e' between

/-- What is done may depend on the engine that is there. -/
theorem get {next : Engine → Operation ε α} (h : ∀ e, P e → P (e.outcome (next e)).2) :
    Preserves P (get >>= next) := by
  intro e before
  rw [outcome_bind]
  exact h e before

theorem modify {f : Engine → Engine} (h : ∀ e, P e → P (f e)) :
    Preserves P (modify f : Operation ε PUnit) := h

theorem adapt {operation : Operation ε α} {f : ε → ε'} (h : Preserves P operation) :
    Preserves P (ExceptT.adapt f operation : Operation ε' α) := h

/-- What is done next may depend on how the operation before ended. -/
theorem bind_attempt {e : Engine} {operation : Operation ε β}
    {next : Except ε β → Operation ε' α}
    (h : ∀ result e', e.outcome operation = (result, e') → P (e'.outcome (next result)).2) :
    P (e.outcome ((ExceptT.lift (ExceptT.run operation) : Operation ε' _) >>= next)).2 := by
  rw [outcome_bind]
  exact h _ _ rfl

theorem forM {l : List β} {f : β → Operation ε PUnit} (h : ∀ b ∈ l, Preserves P (f b)) :
    Preserves P (l.forM f) := by
  induction l with
  | nil => exact pure
  | cons b rest ih =>
    obtain ⟨here, later⟩ := List.forall_mem_cons.1 h
    exact bind here fun _ => ih later

theorem mapM {l : List β} {f : β → Operation ε α} (h : ∀ b, Preserves P (f b)) :
    Preserves P (l.mapM f) := by
  induction l with
  | nil => exact pure
  | cons b rest ih =>
    rw [List.mapM_cons]
    exact bind (h b) fun _ => bind ih fun _ => pure

/-- What is preserved holds after an operation however it ends. -/
theorem iff_ends {operation : Operation ε α} : Preserves P operation ↔
    ∀ e, P e → e.Ends operation (fun _ e' => P e') fun _ e' => P e' := by
  refine forall₂_congr fun e _ => ?_
  rw [Ends]
  rcases e.outcome operation with ⟨_ | answer, e'⟩ <;> rfl

end

/-! ## Operations on items -/

theorem save {item : Item}
    (h : ∀ e store, P e → e.store.save item = .ok store → P { e with store }) :
    Preserves P (Operation.save item) := by
  apply get
  intro e before
  dsimp only
  cases saved : e.store.save item with
  | ok store => exact h e store before saved
  | error error => exact before

/-- An item is gone from memory also if its file cannot be deleted. -/
theorem remove {type id : String}
    (h : ∀ e, P e → P { e with store := (e.store.remove type id).2 }) :
    Preserves P (Operation.remove type id) := by
  apply get
  intro e before
  have after := h e before
  dsimp only
  revert after
  rcases e.store.remove type id with ⟨_ | _, store⟩ <;> exact fun after => after

/-! ## Operations on goals -/

theorem allGoals : Preserves P Goals.allGoals := by
  apply get
  intro e before
  refine mapM (fun item => ?_) e before
  rw [Goals.readEntity]
  split
  · exact pure
  · exact throw

section

variable (remove : ∀ step : FunnelStep,
  Preserves P (Operation.remove "rule" (step.ruleId goalId)))

include remove

theorem retractRules : Preserves P (Goals.retractRules goalId) :=
  forM fun step _ => bind (remove step).adapt fun _ => pure

theorem removeGoal (goal : Preserves P (Operation.remove "goal" goalId)) :
    Preserves P (Goals.removeGoal goalId) :=
  bind (retractRules remove) fun _ => goal.adapt

theorem disable {g : Goal} (own : g.id = goalId)
    (save : Preserves P (Operation.save (Item.ofEntity g.disabled))) :
    Preserves P (Goals.disable g) := by
  subst own
  exact bind (retractRules remove) fun _ => bind save.adapt fun _ => log

end

/-- Nothing is written but for a goal that is accepted: its rules or else their absence, and the goal
itself. -/
theorem setGoal {goal : Goal}
    (removeRule : ∀ e, P e → e.Accepts (goal.withId goalId) →
      (goal.withId goalId).isCompiled = false →
        ∀ step : FunnelStep, Preserves P (Operation.remove "rule" (step.ruleId goalId)))
    (saveRule : ∀ e, P e → e.Accepts (goal.withId goalId) →
      ∀ (g : Goal) (step : FunnelStep) (rule : Rule), g.kept = (goal.withId goalId).kept →
        g.rule? e.settings.setPropertyAction step = some rule →
          Preserves P (Operation.save (Item.ofEntity rule)))
    (saveGoal : ∀ e, P e → e.Accepts (goal.withId goalId) →
      ∀ g : Goal, g.kept = (goal.withId goalId).kept →
        Preserves P (Operation.save (Item.ofEntity g))) :
    Preserves P (Goals.setGoal goalId goal) := by
  apply get
  intro e before
  dsimp only
  split
  · exact before
  · next g resolved =>
    have known : e.registry.Knows (goal.withId goalId) := Goal.resolve_isOk.1 ⟨g, resolved⟩
    have same : g.kept = (goal.withId goalId).kept := Goal.kept_of_resolve resolved
    have sameRules : (goal.withId goalId).isCompiled = g.isCompiled := by
      rw [← Goal.isCompiled_kept, ← same, Goal.isCompiled_kept]
    have save (accepted : e.Accepts (goal.withId goalId)) : Preserves P (Goals.saveEntity g) :=
      (saveGoal e before accepted g same).adapt
    split
    · next compiled =>
      split
      · exact before
      · next registered =>
        have accepted : e.Accepts (goal.withId goalId) := ⟨known, fun _ => by simpa using registered⟩
        obtain ⟨start, target, rules, isStart, isTarget⟩ :=
          @Goal.rules_of_isCompiled g e.settings.setPropertyAction compiled
        have first : Preserves P (Goals.saveEntity start) :=
          (saveRule e before accepted g .start start same isStart).adapt
        have second : Preserves P (Goals.saveEntity target) :=
          (saveRule e before accepted g .target target same isTarget).adapt
        rw [rules]
        exact bind (bind first fun _ => bind second fun _ => pure) (fun _ => save accepted) e
          before
    · next notCompiled =>
      rw [← sameRules] at notCompiled
      have accepted : e.Accepts (goal.withId goalId) :=
        ⟨known, fun compiled => absurd compiled notCompiled⟩
      have remove := removeRule e before accepted (Bool.eq_false_iff.2 notCompiled)
      exact bind (retractRules remove) (fun _ => save accepted) e before

theorem disableUsing {ids : IdSet} (disable : ∀ g, Preserves P (Goals.disable g)) :
    Preserves P (Goals.disableUsing ids) := by
  rw [Goals.disableUsing]
  split
  · exact pure
  · exact bind allGoals fun _ => bind (forM fun g _ => disable g) fun _ => pure

/-! ## Installing predefined goals -/

/-- A goal waits no longer only if there is one in the store, and is set only if there is none. -/
theorem installGoal {candidate : PendingGoal}
    (unpark : ∀ e item, P e → e.store.load "goal" candidate.goal.id = some item →
      P { e with pending := e.pending.erase candidate.goal.id })
    (park : ∀ e, P e → P { e with pending := e.pending.insert candidate.goal.id candidate })
    (set : ∀ e, P e → e.store.load "goal" candidate.goal.id = none →
      P (e.outcome (Goals.setGoal candidate.goal.id candidate.goal)).2) :
    Preserves P (Goals.installGoal candidate) := by
  apply get
  intro e before
  split
  · next isThere =>
    obtain ⟨item, found⟩ := Option.isSome_iff_exists.1 isThere
    exact unpark e item before found
  · next notThere =>
    have new : e.store.load "goal" candidate.goal.id = none := by simpa using notThere
    have after := set e before new
    refine bind_attempt fun result e' ended => ?_
    rw [ended] at after
    cases result with
    | ok answer =>
      have stored : e'.store.load "goal" candidate.goal.id =
          some (Item.ofEntity (candidate.goal.withId candidate.goal.id).kept) := by
        rw [(ends_setGoal.well ended).2.load]
        exact Holdings.withGoal_goal
      exact unpark e' _ after stored
    | error error =>
      cases error with
      | store => exact after
      | unresolvedCondition | missingActionType => exact park e' after
      -- Setting a goal does not look for it.
      | notFound =>
        rcases ends_setGoal.badly ended with ⟨⟨path, other⟩, _⟩ | ⟨⟨rejection, _⟩, _⟩
        · cases other
        · exact rejection.elim

theorem installGoals {candidates : List PendingGoal}
    (install : ∀ c ∈ candidates, Preserves P (Goals.installGoal c)) :
    Preserves P (Goals.installGoals candidates) := by
  induction candidates with
  | nil => exact pure
  | cons candidate rest ih =>
    obtain ⟨here, later⟩ := List.forall_mem_cons.1 install
    exact bind here fun _ => bind (ih later) fun _ => pure

theorem loadGoals {source : ModuleSource}
    (forget : ∀ e, P e → P { e with pending := e.pending.filter fun _ p => p.module ≠ source.id })
    (install : ∀ c, Preserves P (Goals.installGoal c)) :
    Preserves P (Goals.loadGoals source) :=
  bind (modify forget) fun _ => bind log fun _ => get fun e before =>
    bind (installGoals fun c _ => install c) (fun _ => pure) e before

end Preserves

end Engine

end Clickstream
