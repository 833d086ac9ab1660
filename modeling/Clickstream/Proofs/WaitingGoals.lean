import Clickstream.Proofs.Predefined
import Clickstream.Proofs.Preserving

/-! # Which goals wait

Goals wait only because loading the goals of a module turned them down. Whatever else happens to an
engine in between, also when the files of its store fail half way, every goal waits under its own
id; so loading the goals of one more module settles all goals that wait.
-/

namespace Clickstream

namespace Engine

variable {e e' : Engine} {goalId : String} {P : Engine → Prop}

/-! ## Operations that leave the waiting goals alone -/

/-- What is said of an engine depends on its waiting goals only. -/
def OfPending (P : Engine → Prop) : Prop :=
  ∀ e e' : Engine, e'.pending = e.pending → P e → P e'

namespace OfPending

theorem save (h : OfPending P) {item : Item} : Preserves P (Operation.save item) :=
  .save fun e _ before _ => h e _ rfl before

theorem remove (h : OfPending P) {type id : String} : Preserves P (Operation.remove type id) :=
  .remove fun e before => h e _ rfl before

theorem setGoal (h : OfPending P) {goal : Goal} : Preserves P (Goals.setGoal goalId goal) :=
  .setGoal (fun _ _ _ _ _ => h.remove) (fun _ _ _ _ _ _ _ _ => h.save) fun _ _ _ _ _ => h.save

theorem removeGoal (h : OfPending P) : Preserves P (Goals.removeGoal goalId) :=
  .removeGoal (fun _ => h.remove) h.remove

theorem disableUsing (h : OfPending P) {ids : IdSet} : Preserves P (Goals.disableUsing ids) :=
  .disableUsing fun _ => .disable (fun _ => h.remove) rfl h.save

theorem loadModule (h : OfPending P) {ε : Type} {source : ModuleSource} {wanted : Bool} :
    Preserves P (Operation.loadModule source wanted : Operation ε LoadReport) :=
  Preserves.iff_ends.2 fun e before =>
    ends_loadModule.mono (fun _ e' loads => h e e' loads.pending before)
      fun _ _ failed => failed.elim

end OfPending

/-! ## How goals come to wait -/

/-- Goals wait because loading goals made them, whatever else was changed in between. -/
inductive Arises : Engine → Prop where
  | opened {e : Engine} (none : e.pending = {}) : Arises e
  | changed {e e' : Engine} (h : Arises e) (same : e'.pending = e.pending) : Arises e'
  | forgotten {e : Engine} (h : Arises e) (module : ModuleId) : Arises (e.forget module)
  | loaded {e : Engine} (h : Arises e) (source : ModuleSource) :
    Arises (e.outcome (Goals.loadGoals source)).2

theorem Arises.ofPending : OfPending Arises := fun _ _ same h => h.changed same

/-- The same engine with other definitions. -/
def withRegistry (e : Engine) (registry : Registry) : Engine := { e with registry }

theorem Arises.withRegistry (h : e.Arises) (registry : Registry) :
    (e.withRegistry registry).Arises := h.changed rfl

theorem Arises.loadGoals {source : ModuleSource} : Preserves Arises (Goals.loadGoals source) :=
  fun _ h => h.loaded source

/-- Every call of a server leads from one such engine to another, also if it fails. -/
theorem Arises.operation (call : ServerCall) : Preserves Arises call.operation := by
  cases call with
  | setGoal => exact ofPending.setGoal.adapt
  | createGoal => exact ofPending.setGoal.adapt
  | removeGoal => exact .bind ofPending.removeGoal.adapt fun _ => .pure
  | loadGoals => exact .bind loadGoals.adapt fun _ => .pure
  | disableUsing => exact .bind ofPending.disableUsing.adapt fun _ => .pure
  | activate source =>
    refine .bind (.bind ofPending.loadModule fun _ => ?_) fun _ => .pure
    refine .bind ofPending.disableUsing.adapt fun _ => ?_
    exact .bind loadGoals.adapt fun _ => .pure
  | deactivate module =>
    refine .bind (.bind (.get fun e h => h.changed rfl) fun _ => ?_) fun _ => .pure
    refine .bind (.modify fun e h => h.forgotten module) fun _ => ?_
    exact .bind ofPending.disableUsing.adapt fun _ => .pure

/-! ## Every goal waits under its own id -/

theorem WaitsByOwnId.ofPending : OfPending WaitsByOwnId := by
  intro e e' same own goalId waiting found
  rw [same] at found
  exact own goalId waiting found

theorem WaitsByOwnId.unpark (own : e.WaitsByOwnId) :
    WaitsByOwnId { e with pending := e.pending.erase goalId } := by
  intro other waiting found
  rw [Table.get?_erase] at found
  split at found
  · cases found
  · exact own other waiting found

theorem WaitsByOwnId.park (own : e.WaitsByOwnId) {candidate : PendingGoal} :
    WaitsByOwnId { e with pending := e.pending.insert candidate.goal.id candidate } := by
  intro other waiting found
  rw [Table.get?_insert] at found
  split at found
  · next same =>
    cases found
    exact same.symm
  · exact own other waiting found

theorem WaitsByOwnId.forget (own : e.WaitsByOwnId) {module : ModuleId} :
    (e.forget module).WaitsByOwnId := by
  intro goalId waiting found
  rw [Engine.forget, Table.get?_filter, Option.filter_eq_some_iff] at found
  exact own goalId waiting found.1

theorem WaitsByOwnId.installGoal {candidate : PendingGoal} :
    Preserves WaitsByOwnId (Goals.installGoal candidate) :=
  .installGoal (fun _ _ own _ => own.unpark) (fun _ own => own.park)
    fun e own _ => ofPending.setGoal e own

theorem Arises.waitsByOwnId (h : e.Arises) : e.WaitsByOwnId := by
  induction h with
  | opened none =>
    intro goalId waiting found
    rw [none] at found
    cases found
  | changed _ same own => exact WaitsByOwnId.ofPending _ _ same own
  | forgotten _ module own => exact own.forget
  | loaded _ source own =>
    exact Preserves.loadGoals (fun _ own => own.forget) (fun _ => WaitsByOwnId.installGoal) _ own

end Engine

/-- Loading the goals of a module, wherever goals wait already: what was stored stays, what can be
set is stored, what waits can not, and the ids of the goals that are new are listed in order. -/
theorem Goals.loadGoals_settles {e : Engine} (h : e.Arises) (source : ModuleSource) :
    e.Ends (Goals.loadGoals source) (fun ids e' => e.Settles source ids e')
      (fun error _ => error.IsIo) :=
  h.waitsByOwnId.loadGoals

/-- An engine with the types that a waiting goal needs. -/
def signupWaiting : Engine :=
  (({} : Engine).outcome (Goals.loadGoals signupModule)).2.withRegistry
    (({} : Registry).load formsModule).1

/-- A goal that waits is installed with the goals of the next module. -/
theorem Goals.loadGoals_settles_signup :
    ∃ ids e', signupWaiting.Arises ∧ signupWaiting.pending.keys = ["signup"] ∧
      signupWaiting.outcome (Goals.loadGoals formsModule) = (.ok ids, e') ∧ ids = ["signup"] ∧
      signupWaiting.Settles formsModule ids e' := by
  have opened : ({} : Engine).Arises := .opened rfl
  have arises : signupWaiting.Arises := (opened.loaded signupModule).withRegistry _
  have waits : signupWaiting.pending.keys = ["signup"] := by decide +kernel
  have answered : (signupWaiting.outcome (Goals.loadGoals formsModule)).1.toOption =
      some ["signup"] := by decide +kernel
  generalize signupWaiting = e at arises waits answered ⊢
  have ended := Engine.outcome_of_toOption answered
  exact ⟨_, _, arises, waits, ended, rfl, (loadGoals_settles arises formsModule).well ended⟩

end Clickstream
