/-! # Log lines

What the program tells its operator beside its answers, and computations that write such lines in
the order in which they happen.
-/

namespace Clickstream

inductive Level where
  /-- Something was left out or taken back. -/
  | warn
  | error
  deriving DecidableEq

structure LogLine where
  level : Level
  text : String
  deriving DecidableEq

namespace LogLine

def warning (text : String) : LogLine := ⟨.warn, text⟩

def failure (text : String) : LogLine := ⟨.error, text⟩

end LogLine

/-- A value and the lines written on the way to it. -/
structure Logged (α : Type u) where
  value : α
  /-- The lines, first one first. -/
  lines : List LogLine := []

namespace Logged

instance : Monad Logged where
  pure value := { value }
  bind x f :=
    let y := f x.value
    { value := y.value, lines := x.lines ++ y.lines }

def write (line : LogLine) : Logged Unit := { value := (), lines := [line] }

@[simp] theorem value_pure (a : α) : (pure a : Logged α).value = a := rfl

@[simp] theorem value_bind (x : Logged α) (f : α → Logged β) :
    (x >>= f).value = (f x.value).value := rfl

@[simp] theorem lines_bind (x : Logged α) (f : α → Logged β) :
    (x >>= f).lines = x.lines ++ (f x.value).lines := rfl

end Logged

end Clickstream
