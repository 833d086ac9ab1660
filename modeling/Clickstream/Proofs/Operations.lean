import Clickstream.Goals

/-! # How operations end

`Ends` says what holds after an operation, however it ends: it ends well with an answer or badly with
an error, and leaves an engine either way. The lines that it writes to the log do not matter. The
equivalences below take an operation apart step by step, from the first to the last, so a statement
about an operation becomes one about the answers and engines of its steps.
-/

namespace Clickstream

instance : LawfulMonad Logged :=
  LawfulMonad.mk' Logged
    (fun x => congrArg (Logged.mk x.value) (List.append_nil x.lines))
    (fun _ _ => rfl)
    (fun x f g => congrArg (Logged.mk _)
      (List.append_assoc x.lines (f x.value).lines (g (f x.value).value).lines))

theorem toOption_eq_some {ε α : Type} {result : Except ε α} {answer : α} :
    result.toOption = some answer ↔ result = .ok answer := by
  cases result <;> simp [Except.toOption]

namespace Engine

variable {ε ε' α β : Type} {e e' : Engine}

/-- The answer or error of an operation, and the engine that it leaves. -/
def outcome (e : Engine) (operation : Operation ε α) : Except ε α × Engine :=
  (e.run operation).value

theorem outcome_of_toOption {operation : Operation ε α} {answer : α}
    (h : (e.outcome operation).1.toOption = some answer) :
    e.outcome operation = (.ok answer, (e.outcome operation).2) :=
  Prod.ext (toOption_eq_some.1 h) rfl

theorem outcome_of_toOption_none {operation : Operation ε α}
    (h : (e.outcome operation).1.toOption = none) :
    ∃ error, e.outcome operation = (.error error, (e.outcome operation).2) := by
  cases ended : (e.outcome operation).1 with
  | ok answer => rw [ended] at h; cases h
  | error error => exact ⟨error, Prod.ext ended rfl⟩

/-- An operation ends well in `good` or badly in `bad`. -/
def Ends (e : Engine) (operation : Operation ε α) (good : α → Engine → Prop)
    (bad : ε → Engine → Prop) : Prop :=
  match e.outcome operation with
  | (.ok answer, e') => good answer e'
  | (.error error, e') => bad error e'

section

variable {good good' : α → Engine → Prop} {bad bad' : ε → Engine → Prop}

theorem Ends.well {operation : Operation ε α} {answer : α} (h : e.Ends operation good bad)
    (ended : e.outcome operation = (.ok answer, e')) : good answer e' := by
  rw [Ends, ended] at h
  exact h

theorem Ends.badly {operation : Operation ε α} {error : ε} (h : e.Ends operation good bad)
    (ended : e.outcome operation = (.error error, e')) : bad error e' := by
  rw [Ends, ended] at h
  exact h

/-- What is said of how an operation ends may be weakened. -/
theorem Ends.mono {operation : Operation ε α} (h : e.Ends operation good bad)
    (well : ∀ answer e', good answer e' → good' answer e')
    (badly : ∀ error e', bad error e' → bad' error e') : e.Ends operation good' bad' := by
  cases ended : e.outcome operation with
  | mk result e' =>
    cases result with
    | ok answer => rw [Ends, ended]; exact well answer e' (h.well ended)
    | error error => rw [Ends, ended]; exact badly error e' (h.badly ended)

theorem Ends.and {operation : Operation ε α} (h : e.Ends operation good bad)
    (h' : e.Ends operation good' bad') :
    e.Ends operation (fun answer e' => good answer e' ∧ good' answer e')
      fun error e' => bad error e' ∧ bad' error e' := by
  cases ended : e.outcome operation with
  | mk result e' =>
    cases result with
    | ok answer => rw [Ends, ended]; exact ⟨h.well ended, h'.well ended⟩
    | error error => rw [Ends, ended]; exact ⟨h.badly ended, h'.badly ended⟩

/-! ## Steps -/

@[simp] theorem ends_pure {answer : α} :
    e.Ends (pure answer : Operation ε α) good bad ↔ good answer e := Iff.rfl

@[simp] theorem ends_get {good : Engine → Engine → Prop} :
    e.Ends (get : Operation ε Engine) good bad ↔ good e e := Iff.rfl

@[simp] theorem ends_set {good : PUnit → Engine → Prop} :
    e.Ends (set e' : Operation ε PUnit) good bad ↔ good ⟨⟩ e' := Iff.rfl

@[simp] theorem ends_modify {f : Engine → Engine} {good : PUnit → Engine → Prop} :
    e.Ends (modify f : Operation ε PUnit) good bad ↔ good ⟨⟩ (f e) := Iff.rfl

@[simp] theorem ends_log {lines : List LogLine} {good : Unit → Engine → Prop} :
    e.Ends (Operation.log lines : Operation ε Unit) good bad ↔ good () e := Iff.rfl

theorem outcome_bind {first : Operation ε β} {next : β → Operation ε α} :
    e.outcome (first >>= next) = match e.outcome first with
      | (.ok answer, e') => e'.outcome (next answer)
      | (.error error, e') => (.error error, e') := by
  simp only [outcome, run, ExceptT.run_bind, StateT.run_bind, Logged.value_bind]
  rcases (StateT.run (ExceptT.run first) e).value with ⟨_ | answer, e'⟩ <;> rfl

@[simp] theorem ends_bind {first : Operation ε β} {next : β → Operation ε α} :
    e.Ends (first >>= next) good bad ↔
      e.Ends first (fun answer e' => e'.Ends (next answer) good bad) bad := by
  simp only [Ends, outcome_bind]
  rcases e.outcome first with ⟨_ | answer, e'⟩ <;> rfl

/-- The errors of an operation under another name. -/
@[simp] theorem ends_adapt {operation : Operation ε α} {f : ε → ε'} {bad : ε' → Engine → Prop} :
    e.Ends (ExceptT.adapt f operation : Operation ε' α) good bad ↔
      e.Ends operation good (fun error => bad (f error)) := by
  have renamed : e.outcome (ExceptT.adapt f operation : Operation ε' α) =
      ((e.outcome operation).1.mapError f, (e.outcome operation).2) := rfl
  simp only [Ends, renamed]
  rcases e.outcome operation with ⟨_ | answer, e'⟩ <;> rfl

/-- An operation whose error is an answer. -/
@[simp] theorem ends_attempt {operation : Operation ε α} {good : Except ε α → Engine → Prop}
    {bad : ε' → Engine → Prop} :
    e.Ends (ExceptT.lift (ExceptT.run operation) : Operation ε' (Except ε α)) good bad ↔
      e.Ends operation (fun answer => good (.ok answer)) (fun error => good (.error error)) := by
  have kept : e.outcome (ExceptT.lift (ExceptT.run operation) : Operation ε' (Except ε α)) =
      (.ok (e.outcome operation).1, (e.outcome operation).2) := rfl
  simp only [Ends, kept]
  rcases e.outcome operation with ⟨_ | answer, e'⟩ <;> rfl

end

end Engine

end Clickstream
