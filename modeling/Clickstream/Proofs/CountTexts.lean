import Mathlib.Algebra.Group.Nat.Defs
import Mathlib.Data.List.TakeWhile
import Clickstream.Evaluation

/-! # Bounds on a count

A condition on events may bound how many of them there are, by a number or by a text. What it can
write for a bound is a small grammar, and whatever is not in it is no bound.
-/

namespace Clickstream

/-! ## White space around a text -/

namespace Text

variable {before core after cs : List Char}

/-- A text is what is left of it when it is trimmed, with white space around. -/
theorem exists_trimmed (cs : List Char) : ∃ before after, cs = before ++ trimmed cs ++ after ∧
    (∀ c ∈ before, isBlank c = true) ∧ ∀ c ∈ after, isBlank c = true := by
  have blank (l : List Char) : ∀ c ∈ l.takeWhile isBlank, isBlank c = true :=
    fun c member => List.mem_takeWhile_imp member
  refine ⟨cs.takeWhile isBlank, ((cs.dropWhile isBlank).reverse.takeWhile isBlank).reverse, ?_,
    blank cs, fun c member => blank _ c (List.mem_reverse.1 member)⟩
  rw [trimmed, List.append_assoc, ← List.reverse_append, List.takeWhile_append_dropWhile,
    List.reverse_reverse, List.takeWhile_append_dropWhile]

private theorem dropWhile_append (blank : ∀ c ∈ before, isBlank c = true)
    (solid : ∀ c ∈ core, isBlank c = false) (trailing : ∀ c ∈ after, isBlank c = true) :
    (before ++ (core ++ after)).dropWhile isBlank = if core.isEmpty then [] else core ++ after := by
  rw [List.dropWhile_append_of_pos blank]
  cases core with
  | nil => exact List.dropWhile_eq_nil_iff.2 trailing
  | cons c rest =>
    rw [List.cons_append, List.dropWhile_cons_of_neg (by simp [solid c List.mem_cons_self])]
    rfl

/-- White space around characters that are none is trimmed. -/
theorem trimmed_append (leading : ∀ c ∈ before, isBlank c = true)
    (solid : ∀ c ∈ core, isBlank c = false) (trailing : ∀ c ∈ after, isBlank c = true) :
    trimmed (before ++ core ++ after) = core := by
  rw [trimmed, List.append_assoc, dropWhile_append leading solid trailing]
  have back := @dropWhile_append after.reverse core.reverse [] (by simpa using trailing)
    (by simpa using solid) (by simp)
  rw [List.append_nil, List.isEmpty_reverse] at back
  split
  · next empty => rw [List.isEmpty_iff.1 empty]; rfl
  · next full => rw [List.reverse_append, back, if_neg full, List.reverse_reverse]

theorem isBlank_of_isDigit {c : Char} (digit : c.isDigit = true) : isBlank c = false := by
  rw [Char.isDigit_iff_toNat] at digit
  simp only [isBlank, decide_eq_false_iff_not]
  simp only [Char.reduceToNat] at digit
  omega

end Text

/-! ## Counts as texts -/

namespace Decimal

variable {cs : List Char} {n : Nat}

/-- Characters are ASCII digits with a value that fits 64 bits. -/
structure Spells (ds : List Char) (n : Nat) : Prop where
  nonempty : ds ≠ []
  digits : ∀ c ∈ ds, c.isDigit = true
  value : digitsValue ds = n
  fits : n < 2 ^ 64

private theorem spells_iff {ds : List Char} : (if ds.isEmpty ∨ !ds.all Char.isDigit then none
    else if digitsValue ds < Nat.pow 2 64 then some (digitsValue ds) else none) = some n ↔
      Spells ds n := by
  constructor
  · intro read
    split at read
    · cases read
    · next whole =>
      split at read
      · next fits =>
        cases read
        rw [not_or] at whole
        exact ⟨by simpa using whole.1, by simpa using whole.2, rfl, fits⟩
      · cases read
  · rintro ⟨nonempty, digits, rfl, fits⟩
    rw [if_neg, if_pos (show digitsValue ds < Nat.pow 2 64 from fits)]
    simpa using ⟨nonempty, digits⟩

/-- A count is written as digits, perhaps after a plus. -/
theorem count?_eq_some :
    count? cs = some n ↔ Spells cs n ∨ ∃ ds, cs = '+' :: ds ∧ Spells ds n := by
  by_cases plus : ∃ ds, cs = '+' :: ds
  · obtain ⟨ds, rfl⟩ := plus
    refine spells_iff.trans ⟨fun spelled => .inr ⟨ds, rfl, spelled⟩, ?_⟩
    rintro (spelled | ⟨ds', same, spelled⟩)
    · exact absurd (spelled.digits '+' List.mem_cons_self) (by decide)
    · cases same
      exact spelled
  · rw [count?]
    case neg.x_1 => exact fun ds same => plus ⟨ds, same⟩
    refine spells_iff.trans ⟨.inl, ?_⟩
    rintro (spelled | ⟨ds, same, -⟩)
    · exact spelled
    · exact absurd ⟨ds, same⟩ plus

end Decimal

namespace Evaluation

/-- The count that a bound says: the default where there is none or only white space, a whole number,
or a text of digits, perhaps with a plus before and white space around them. -/
inductive BoundIs (default : Nat) : Option Json → Nat → Prop where
  | missing : BoundIs default none default
  | null : BoundIs default (some .null) default
  | blank {s : String} : (∀ c ∈ s.toList, Text.isBlank c = true) →
      BoundIs default (some (.string s)) default
  | number {n : Nat} : BoundIs default (some (.number (.integer n))) n
  | text {s : String} {before sign ds after : List Char} {n : Nat} :
      s.toList = before ++ (sign ++ ds) ++ after → (∀ c ∈ before, Text.isBlank c = true) →
      (∀ c ∈ after, Text.isBlank c = true) → sign = [] ∨ sign = ['+'] → Decimal.Spells ds n →
      BoundIs default (some (.string s)) n

variable {c : Condition} {name : String} {default n : Nat}

/-- No character of a count is white space. -/
private theorem solid {sign ds : List Char} (isSign : sign = [] ∨ sign = ['+'])
    (spelled : Decimal.Spells ds n) : ∀ c ∈ sign ++ ds, Text.isBlank c = false := by
  intro c member
  rcases List.mem_append.1 member with inSign | inDigits
  · rcases isSign with rfl | rfl
    · cases inSign
    · obtain rfl := List.mem_singleton.1 inSign
      decide
  · exact Text.isBlank_of_isDigit (spelled.digits c inDigits)

/-- A text without anything but white space says the default. -/
private theorem boundIs_blank {s : String} (blank : Text.trimmed s.toList = []) :
    BoundIs default (some (.string s)) n ↔ default = n := by
  constructor
  · rintro (- | - | - | - | ⟨isText, leading, trailing, sign, spelled⟩)
    · rfl
    · -- Digits are left of a text when it is trimmed.
      rw [isText, Text.trimmed_append leading (solid sign spelled) trailing] at blank
      exact absurd (List.append_eq_nil_iff.1 blank).2 spelled.nonempty
  · rintro rfl
    obtain ⟨before, after, isText, leading, trailing⟩ := Text.exists_trimmed s.toList
    rw [blank, List.append_nil] at isText
    refine .blank fun c member => ?_
    rw [isText] at member
    exact (List.mem_append.1 member).elim (leading c) (trailing c)

/-- Any other text says what is left when it is trimmed. -/
private theorem boundIs_text {s : String} (full : Text.trimmed s.toList ≠ []) :
    BoundIs default (some (.string s)) n ↔ Decimal.count? (Text.trimmed s.toList) = some n := by
  rw [Decimal.count?_eq_some]
  constructor
  · rintro (- | - | blank | - | ⟨isText, leading, trailing, sign, spelled⟩)
    · refine absurd ?_ full
      have trimmed := @Text.trimmed_append s.toList [] [] blank (by simp) (by simp)
      rwa [List.append_nil, List.append_nil] at trimmed
    · rw [isText, Text.trimmed_append leading (solid sign spelled) trailing]
      rcases sign with rfl | rfl
      · exact .inl spelled
      · exact .inr ⟨_, rfl, spelled⟩
  · intro count
    obtain ⟨before, after, isText, leading, trailing⟩ := Text.exists_trimmed s.toList
    rcases count with spelled | ⟨ds, isCount, spelled⟩
    · exact @BoundIs.text _ s before [] _ after n isText leading trailing (.inl rfl) spelled
    · rw [isCount] at isText
      exact @BoundIs.text _ s before ['+'] ds after n isText leading trailing (.inr rfl) spelled

private theorem boundIs_integer {m : Int} :
    BoundIs default (some (.number (.integer m))) n ↔
      (Json.number (.integer m)).nat? = some n := by
  have natural : (Json.number (.integer m)).nat? = some n ↔ m = n := by
    rw [Json.nat?]
    split
    · simp only [reduceCtorEq, false_iff]
      omega
    · rw [Option.some_inj]
      omega
  rw [natural]
  constructor
  · rintro ⟨⟩
    rfl
  · rintro rfl
    exact .number

/-- A bound is read as the count that it says; one that says none is not read. -/
theorem countParameter_eq_ok :
    countParameter c name default = .ok n ↔ BoundIs default (c.parameter? name) n := by
  rw [countParameter]
  cases c.parameter? name with
  | none => exact ⟨fun h => by cases h; exact .missing, fun h => by cases h; rfl⟩
  | some value =>
    cases value with
    | null => exact ⟨fun h => by cases h; exact .null, fun h => by cases h; rfl⟩
    | string s =>
      by_cases blank : Text.trimmed s.toList = []
      · rw [boundIs_blank blank]
        simp [blank]
      · rw [boundIs_text blank]
        simp only [List.isEmpty_iff, blank, ↓reduceIte]
        cases Decimal.count? (Text.trimmed s.toList) <;> simp
    | number m =>
      cases m with
      | double x => exact ⟨fun h => (nomatch h), fun h => (nomatch h)⟩
      | integer m =>
        rw [boundIs_integer]
        dsimp only
        cases (Json.number (.integer m)).nat? <;> simp
    | bool | array | object => exact ⟨fun h => (nomatch h), fun h => (nomatch h)⟩

end Evaluation

end Clickstream
