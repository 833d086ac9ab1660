import Mathlib.Algebra.Group.Nat.Defs
import Mathlib.Data.List.TakeWhile
import Clickstream.Proofs.Calendar
import Clickstream.Time.Reader

/-! # Instants as texts

An instant of the years 0 to 9999 is written as a text in strict notation, in as many digits as it
needs, and that text reads back as the instant. So two such instants compare as their texts do,
however many digits of a second either has.
-/

namespace Clickstream.Time

/-! ## Digits -/

section

variable {least most width n : Nat} {ds rest : List Char}

/-- The digits that a number is padded to. -/
def paddedDigits (width n : Nat) : List Char :=
  List.replicate (width - (Nat.toDigits 10 n).length) '0' ++ Nat.toDigits 10 n

theorem toList_pushn {s : String} {c : Char} :
    (s.pushn c n).toList = s.toList ++ List.replicate n c := by
  rw [String.pushn_eq_repeat_push]
  induction n with
  | zero => simp [Nat.repeat]
  | succ n ih => rw [Nat.repeat, String.toList_push, ih, List.append_assoc, List.replicate_succ']

theorem toList_zeroPad : (Decimal.zeroPad width (toString n)).toList = paddedDigits width n := by
  rw [Decimal.zeroPad, Nat.toString_eq_ofList_toDigits, String.toList_append, toList_pushn,
    ← String.length_toList]
  simp only [String.toList_ofList]
  rfl

theorem toList_padded : (padded width n).toList = paddedDigits width n := by
  rw [padded, if_neg (Int.not_lt.2 (Int.natCast_nonneg n))]
  exact toList_zeroPad

theorem isDigit_of_mem_paddedDigits {c : Char} (member : c ∈ paddedDigits width n) :
    c.isDigit = true := by
  rcases List.mem_append.1 member with zero | digit
  · rw [List.eq_of_mem_replicate zero]
    decide
  · exact Nat.isDigit_of_mem_toDigits (by decide) (by decide) digit

theorem length_paddedDigits (fits : n < 10 ^ width) (some : 0 < width) :
    (paddedDigits width n).length = width := by
  have := (Nat.length_toDigits_le_iff (b := 10) (by decide) some).2 fits
  rw [paddedDigits, List.length_append, List.length_replicate]
  omega

theorem value_paddedDigits : Nat.ofDigitChars 10 (paddedDigits width n) 0 = n := by
  rw [paddedDigits, Nat.ofDigitChars_append, Nat.ofDigitChars_replicate_zero, Nat.mul_zero,
    Nat.ofDigitChars_ten_toDigits]

/-- A run of digits is read that is long enough, and not longer than it may be or ends there. -/
theorem digits?_append (digits : ∀ c ∈ ds, c.isDigit = true) (enough : least ≤ ds.length)
    (atMost : ds.length ≤ most)
    (ends : ds.length = most ∨ ∀ c ∈ rest.head?, c.isDigit = false) :
    digits? least most (ds ++ rest) = some (Nat.ofDigitChars 10 ds 0, rest) := by
  have run : ((ds ++ rest).take most).takeWhile Char.isDigit = ds := by
    rw [List.take_append, List.take_of_length_le atMost, List.takeWhile_append_of_pos digits]
    suffices (rest.take (most - ds.length)).takeWhile Char.isDigit = [] by
      rw [this, List.append_nil]
    rcases ends with all | other
    · rw [all, Nat.sub_self, List.take_zero, List.takeWhile_nil]
    · cases rest with
      | nil => rw [List.take_nil, List.takeWhile_nil]
      | cons c rest =>
        cases most - ds.length with
        | zero => rfl
        | succ k =>
          rw [List.take_succ_cons, List.takeWhile_cons_of_neg]
          simp [other c rfl]
  rw [digits?]
  simp only [run]
  rw [if_neg (by omega), List.drop_left]
  rfl

theorem digits?_paddedDigits (fits : n < 10 ^ width) (some : 0 < width) :
    digits? width width (paddedDigits width n ++ rest) = .some (n, rest) := by
  have length := length_paddedDigits fits some
  rw [digits?_append (fun _ => isDigit_of_mem_paddedDigits) length.ge length.le (.inl length),
    value_paddedDigits]

theorem char?_cons {c : Char} : char? c (c :: rest) = some rest := if_pos rfl

theorem bind_of_eq_some {α β : Type} {x : Option α} {f : α → Option β} {a : α} (h : x = some a) :
    (x >>= f) = f a := by
  rw [h]
  rfl

end

/-! ## Fractions -/

variable {n : Nat} {rest : List Char}

/-- A fraction is read with the digits that it is written with. -/
theorem fraction?_paddedDigits {width : Nat} (fits : n < 10 ^ width) (some : 0 < width)
    (most : width ≤ 9) : fraction? ('.' :: (paddedDigits width n ++ 'Z' :: rest)) =
      .some (n * Nat.pow 10 (9 - width), 'Z' :: rest) := by
  have length := length_paddedDigits fits some
  have read : digits? 1 9 (paddedDigits width n ++ 'Z' :: rest) = .some (n, 'Z' :: rest) := by
    rw [digits?_append (fun _ => isDigit_of_mem_paddedDigits) (by omega) (by omega)
      (.inr fun c first => ?_), value_paddedDigits]
    cases first
    decide
  have count : (paddedDigits width n ++ 'Z' :: rest).length - ('Z' :: rest).length = width := by
    rw [List.length_append, length]
    omega
  rw [fraction?, read]
  simp only [Option.bind_eq_bind, Option.bind_some, Option.pure_def, count]
  rfl

theorem fraction?_fractionText (fits : n < 1000000000) :
    fraction? ((fractionText n).toList ++ 'Z' :: rest) = some (n, 'Z' :: rest) := by
  have places (width k : Nat) (fits : k < 10 ^ width) (some : 0 < width) (most : width ≤ 9)
      (same : k * Nat.pow 10 (9 - width) = n) :
      fraction? (("." ++ padded width k).toList ++ 'Z' :: rest) = .some (n, 'Z' :: rest) := by
    rw [String.toList_append, toList_padded, ← same]
    exact fraction?_paddedDigits fits some most
  rw [fractionText]
  split
  · next zero => rw [zero]; rfl
  split
  · exact places 3 (n / 1000000) (by omega) (by decide) (by decide) (by simp; omega)
  split
  · exact places 6 (n / 1000) (by omega) (by decide) (by decide) (by simp; omega)
  · exact places 9 n (by omega) (by decide) (by decide) (by simp)

/-! ## Instants -/

/-- The text of a date and time in UTC in strict notation. -/
theorem strict?_eq {text : String} {year month day hour minute second nanos : Nat}
    (isText : text.toList = paddedDigits 4 year ++ '-' :: (paddedDigits 2 month ++ '-' ::
      (paddedDigits 2 day ++ 'T' :: (paddedDigits 2 hour ++ ':' :: (paddedDigits 2 minute ++ ':' ::
        (paddedDigits 2 second ++ ((fractionText nanos).toList ++ ['Z'])))))))
    (years : year < 10000) (months : month < 100) (days : day < 100) (hours : hour < 100)
    (minutes : minute < 100) (seconds : second < 100) (fraction : nanos < 1000000000) :
    strict? text = Parts.instant? ⟨⟨year, month, day⟩, hour, minute, second, nanos, 0⟩ := by
  have number {n : Nat} {rest : List Char} (fits : n < 100) :
      digits? 2 2 (paddedDigits 2 n ++ rest) = some (n, rest) :=
    digits?_paddedDigits fits (by decide)
  have separator {cs : List Char} : separator? ('T' :: cs) = some cs := rfl
  have utc : offset? (char? ':') ['Z'] = some (0, []) := rfl
  rw [strict?, isText]
  -- Each part is what the text still begins with once those before it are read.
  refine (bind_of_eq_some (digits?_paddedDigits years (by decide))).trans ?_
  refine (bind_of_eq_some char?_cons).trans ((bind_of_eq_some (number months)).trans ?_)
  refine (bind_of_eq_some char?_cons).trans ((bind_of_eq_some (number days)).trans ?_)
  refine (bind_of_eq_some separator).trans ((bind_of_eq_some (number hours)).trans ?_)
  refine (bind_of_eq_some char?_cons).trans ((bind_of_eq_some (number minutes)).trans ?_)
  refine (bind_of_eq_some char?_cons).trans ((bind_of_eq_some (number seconds)).trans ?_)
  refine (bind_of_eq_some (fraction?_fractionText fraction)).trans ?_
  exact bind_of_eq_some utc

namespace Instant

/-- An instant has less than a second of nanoseconds, or less than two where a minute ends. -/
def Regular (t : Instant) : Prop :=
  t.nanos < 1000000000 ∨ t.nanos < 2000000000 ∧ t.seconds % 60 = 59

/-- A regular instant of the years 0 to 9999. -/
structure IsPlain (t : Instant) : Prop where
  regular : t.Regular
  least : 0 ≤ t.date.year
  most : t.date.year ≤ 9999

variable {t : Instant}

theorem inRange_of_year (least : 0 ≤ t.date.year) (most : t.date.year ≤ 9999) :
    t.inRange = true := by
  have low : Date.toDays ⟨-262143, 1, 1⟩ = -96465292 := rfl
  have high : Date.toDays ⟨262143, 1, 1⟩ = 95026237 := rfl
  obtain ⟨year, month, dayOfYear, inYear, isLeast, isMost, same⟩ :=
    exists_fromMarch_eq (t.seconds / 86400)
  have near : year ≤ t.date.year ∧ t.date.year ≤ year + 1 := by
    rw [date, same, Date.fromMarch]
    dsimp only
    split <;> omega
  obtain ⟨sum, first, last, -⟩ := inYear
  rw [inRange, decide_eq_true_iff, low, high]
  omega

theorem toList_text {year second nanos : Nat} (isYear : t.date.year = year) (inYears : year ≤ 9999)
    (isSecond : second = if t.nanos ≥ 1000000000 then t.secondOfDay % 60 + 1
      else t.secondOfDay % 60)
    (isNanos : nanos = if t.nanos ≥ 1000000000 then t.nanos - 1000000000 else t.nanos) :
    t.text.toList = paddedDigits 4 year ++ '-' :: (paddedDigits 2 t.date.month ++ '-' ::
      (paddedDigits 2 t.date.day ++ 'T' :: (paddedDigits 2 (t.secondOfDay / 3600) ++ ':' ::
        (paddedDigits 2 (t.secondOfDay / 60 % 60) ++ ':' ::
          (paddedDigits 2 second ++ ((fractionText nanos).toList ++ ['Z'])))))) := by
  have isText : yearText t.date.year = padded 4 year := by
    rw [isYear, yearText, if_pos ⟨by omega, by omega⟩]
  rw [Instant.text]
  simp only [Date.text, isText, ← isSecond, ← isNanos, String.toList_append, toList_padded]
  simp

/-- The parts of an instant, with second 60 for a leap second, make it up again. -/
theorem instant?_parts {second nanos : Nat} (least : 0 ≤ t.date.year) (most : t.date.year ≤ 9999)
    (clock : second = t.secondOfDay % 60 ∧ nanos = t.nanos ∨
      second = 60 ∧ t.secondOfDay % 60 = 59 ∧ nanos + 1000000000 = t.nanos) :
    Parts.instant? ⟨t.date, t.secondOfDay / 3600, t.secondOfDay / 60 % 60, second, nanos, 0⟩ =
      some t := by
  have inDay : (t.secondOfDay : Int) = t.seconds % 86400 := by rw [secondOfDay]; omega
  have days : t.date.toDays = t.seconds / 86400 := toDays_ofDays _
  have known : t.date.exists = true ∧ -262143 ≤ t.date.year ∧ t.date.year ≤ 262142 ∧
      t.secondOfDay / 3600 ≤ 23 ∧ t.secondOfDay / 60 % 60 ≤ 59 ∧ second ≤ 60 :=
    ⟨exists_ofDays _, by omega, by omega, by omega, by omega, by omega⟩
  have seconds : t.date.toDays * 86400 + (t.secondOfDay / 3600 * 3600 +
      t.secondOfDay / 60 % 60 * 60 + if second = 60 then 59 else second : Nat) - 0 = t.seconds := by
    rcases clock with ⟨rfl, -⟩ | ⟨rfl, last, -⟩
    · rw [if_neg (by omega)]
      omega
    · rw [if_pos rfl]
      omega
  have fraction : (if second = 60 then nanos + 1000000000 else nanos) = t.nanos := by
    rcases clock with ⟨rfl, same⟩ | ⟨rfl, -, same⟩
    · rw [if_neg (by omega), same]
    · rw [if_pos rfl, same]
  simp only [Parts.instant?, if_pos known, seconds, fraction]
  exact if_pos (inRange_of_year least most)

/-- An instant of the years 0 to 9999 is read back from its text. -/
theorem IsPlain.strict?_text (h : t.IsPlain) : strict? t.text = some t := by
  obtain ⟨regular, least, most⟩ := h
  obtain ⟨year, isYear⟩ := Int.eq_ofNat_of_zero_le least
  have inDay : (t.secondOfDay : Int) = t.seconds % 86400 := by rw [secondOfDay]; omega
  have isDate : t.date.exists = true := exists_ofDays _
  have short := @monthLength_le t.date.year t.date.month
  rw [Date.exists, decide_eq_true_iff] at isDate
  obtain ⟨second, isSecond⟩ : ∃ second, second = if t.nanos ≥ 1000000000 then
      t.secondOfDay % 60 + 1 else t.secondOfDay % 60 := ⟨_, rfl⟩
  obtain ⟨nanos, isNanos⟩ : ∃ nanos, nanos = if t.nanos ≥ 1000000000 then
      t.nanos - 1000000000 else t.nanos := ⟨_, rfl⟩
  have text := toList_text isYear (by omega) isSecond isNanos
  have clock : nanos < 1000000000 ∧ (second = t.secondOfDay % 60 ∧ nanos = t.nanos ∨
      second = 60 ∧ t.secondOfDay % 60 = 59 ∧ nanos + 1000000000 = t.nanos) := by
    by_cases leap : t.nanos ≥ 1000000000
    · rw [if_pos leap] at isSecond isNanos
      rcases regular with below | ⟨below, ends⟩ <;> omega
    · rw [if_neg leap] at isSecond isNanos
      omega
  rw [strict?_eq text (by omega) (by omega) (by omega) (by omega) (by omega) (by omega) clock.1,
    ← isYear]
  exact instant?_parts least most clock.2

end Instant

/-! ## What is read is regular -/

theorem ofDigitChars_lt {ds : List Char} (digits : ∀ c ∈ ds, c.isDigit = true) {init : Nat} :
    Nat.ofDigitChars 10 ds init < 10 ^ ds.length * (init + 1) := by
  induction ds generalizing init with
  | nil => simp
  | cons c rest ih =>
    obtain ⟨digit, others⟩ := List.forall_mem_cons.1 digits
    have small : c.toNat - '0'.toNat ≤ 9 := by
      rw [Char.isDigit_iff_toNat] at digit
      simp only [Char.reduceToNat] at digit ⊢
      omega
    rw [Nat.ofDigitChars_cons, List.length_cons, Nat.pow_succ, Nat.mul_assoc]
    refine Nat.lt_of_lt_of_le (ih others) (Nat.mul_le_mul_left _ ?_)
    omega

theorem exists_of_digits? {least most n : Nat} {cs after : List Char}
    (h : digits? least most cs = some (n, after)) :
    ∃ ds, cs = ds ++ after ∧ (∀ c ∈ ds, c.isDigit = true) ∧ ds.length ≤ most ∧
      n = Nat.ofDigitChars 10 ds 0 := by
  rw [digits?] at h
  split at h
  · cases h
  · cases h
    refine ⟨_, ?_, fun c => List.mem_takeWhile_imp, ?_, rfl⟩
    · have isPrefix := (List.takeWhile_prefix Char.isDigit).trans (List.take_prefix most cs)
      exact (List.prefix_iff_eq_append.1 isPrefix).symm
    · refine Nat.le_trans (List.takeWhile_sublist _).length_le ?_
      rw [List.length_take]
      omega

theorem fraction?_lt {n : Nat} {cs after : List Char} (h : fraction? cs = some (n, after)) :
    n < 1000000000 := by
  rw [fraction?.eq_def] at h
  split at h
  · next rest =>
    simp only [Option.bind_eq_bind, Option.pure_def, Option.bind_eq_some_iff] at h
    obtain ⟨⟨m, rest'⟩, read, h⟩ := h
    obtain ⟨ds, rfl, digits, atMost, rfl⟩ := exists_of_digits? read
    cases h
    have count : (ds ++ rest').length - rest'.length = ds.length := by
      rw [List.length_append]
      omega
    have whole : 10 ^ ds.length * 10 ^ (9 - ds.length) = 1000000000 := by
      rw [← Nat.pow_add, Nat.add_sub_cancel' atMost]
    rw [count, ← whole]
    exact Nat.mul_lt_mul_of_pos_right (by simpa using @ofDigitChars_lt ds digits 0)
      (Nat.pow_pos (by decide))
  · cases h
    decide

theorem offset?_minutes {between : List Char → Option (List Char)} {offset : Int}
    {cs after : List Char} (h : offset? between cs = some (offset, after)) : offset % 60 = 0 := by
  rw [offset?.eq_def] at h
  split at h
  · next c rest =>
    split at h
    · cases h
      rfl
    · split at h
      · simp only [Option.bind_eq_bind, Option.pure_def, Option.bind_eq_some_iff] at h
        obtain ⟨⟨hours, _⟩, -, _, -, ⟨minutes, _⟩, -, h⟩ := h
        dsimp only at h
        split at h
        · cases h
        · cases h
          split <;> omega
      · cases h
  · cases h

theorem Parts.regular {p : Parts} {t : Instant} (h : p.instant? = some t)
    (fraction : p.nanos < 1000000000) (minutes : p.offset % 60 = 0) : t.Regular := by
  rw [Parts.instant?] at h
  split at h
  · dsimp only at h
    obtain ⟨-, h⟩ := Option.ite_none_right_eq_some.1 h
    cases h
    rw [Instant.Regular]
    dsimp only
    split <;> omega
  · cases h

/-- Every instant that is read is regular. -/
theorem regular_of_relaxed? {text : String} {t : Instant} (h : relaxed? text = some t) :
    t.Regular := by
  rw [relaxed?] at h
  iterate 11 obtain ⟨_, -, h⟩ := Option.bind_eq_some_iff.1 h
  obtain ⟨⟨nanos, _⟩, fraction, h⟩ := Option.bind_eq_some_iff.1 h
  obtain ⟨⟨offset, _⟩, zone, h⟩ := Option.bind_eq_some_iff.1 h
  have minutes : offset % 60 = 0 := by
    rw [relaxedOffset?] at zone
    split at zone
    · cases zone
      rfl
    · exact offset?_minutes zone
  dsimp only at h
  split at h
  · cases h
  · exact Parts.regular h (fraction?_lt fraction) minutes

end Clickstream.Time
