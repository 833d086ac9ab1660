import Mathlib.Data.Int.Order.Basic
import Mathlib.Data.Prod.Lex
import Mathlib.Data.String.Basic
import Mathlib.Order.Monotone.Basic
import Clickstream.Comparison

/-! # The order of field values

Swapping two field values turns their order round. Values of one kind are in a linear order: texts
that are instants, values that denote numbers, texts that are neither, truth values. In a mixture of
kinds there may be a value that comes before another although a third one is neither after the
former nor before the latter: incomparable values leave such gaps, and so do texts of which some
compare as numbers and others by code point.
-/

namespace Clickstream

/-- The order of two values by their places in a linear order, if both have one. -/
def comparePlaces {K : Type} [LinearOrder K] (a b : Option K) : Option Ordering :=
  match a, b with
  | some a, some b => some (compare a b)
  | _, _ => none

section

variable {K L : Type} [LinearOrder K] [LinearOrder L]

theorem comparePlaces_swap (a b : Option K) :
    comparePlaces b a = (comparePlaces a b).map Ordering.swap := by
  cases a <;> cases b
  case some.some => exact congrArg some Std.OrientedOrd.eq_swap
  all_goals rfl

private theorem compare_toLex {a c : K} {b d : L} :
    compare (toLex (a, b)) (toLex (c, d)) = (compare a c).then (compare b d) := by
  rw [Prod.Lex.compare_def]
  rfl

private theorem compare_natCast (m n : Nat) : compare (m : Int) n = compare m n := by
  have grows : StrictMono fun n : Nat => (n : Int) := fun _ _ less => Int.ofNat_lt.2 less
  rw [← cmp_eq_compare, ← cmp_eq_compare m n]
  exact grows.cmp_map_eq m n

private theorem compare_neg_neg (m n : Int) : compare (-m) (-n) = (compare m n).swap := by
  have turns : StrictAnti fun n : Int => -n := fun _ _ less => Int.neg_lt_neg less
  rw [← Std.OrientedOrd.eq_swap, ← cmp_eq_compare, ← cmp_eq_compare]
  exact turns.cmp_map_eq m n

end

/-! ## Doubles -/

namespace Decimal

open Float.Model (UnpackedFloat)

/-- Where an unpacked double stands among those that are no NaN. -/
def unpackedPlace? : UnpackedFloat → Option (Int ×ₗ Int ×ₗ Int)
  | .notANumber => none
  | .infinity .negative => some (toLex (-2, toLex (0, 0)))
  | .finite .negative significand exponent _ => some (toLex (-1, toLex (-exponent, -significand)))
  | .zero _ => some (toLex (0, toLex (0, 0)))
  | .finite .positive significand exponent _ => some (toLex (1, toLex (exponent, significand)))
  | .infinity .positive => some (toLex (2, toLex (0, 0)))

theorem compare_unpacked (a b : UnpackedFloat) :
    a.compare b = comparePlaces (unpackedPlace? a) (unpackedPlace? b) := by
  rcases a with (_ | _) | _ | _ | ⟨_ | _, m, e, _⟩ <;>
    rcases b with (_ | _) | _ | _ | ⟨_ | _, m', e', _⟩ <;>
    try rfl
  -- Two finite doubles of one sign are left.
  all_goals change _ = some (compare (toLex (_, toLex (_, _))) (toLex (_, toLex (_, _))))
  all_goals rw [compare_toLex, compare_toLex]
  · rw [compare_neg_neg e, compare_neg_neg m, compare_natCast, ← Ordering.swap_then]
    rfl
  · rw [compare_natCast]
    rfl

/-- The place of a double, by sign, size and significand; the two zeros share one and a NaN has
none. -/
def place? (x : Float) : Option (Int ×ₗ Int ×ₗ Int) := unpackedPlace? x.toModel.unpack

variable {x y : Float}

theorem lt_iff_comparePlaces : x < y ↔ comparePlaces (place? x) (place? y) = some .lt := by
  rw [place?, place?, ← compare_unpacked]
  change decide (_ == some Ordering.lt) = true ↔ _
  rw [decide_eq_true_iff, beq_iff_eq]

theorem beq_iff_comparePlaces : (x == y) = true ↔
    comparePlaces (place? x) (place? y) = some .eq := by
  rw [place?, place?, ← compare_unpacked]
  change (_ == some Ordering.eq) = true ↔ _
  rw [beq_iff_eq]

theorem place?_eq_none (h : place? x = none) : x.isNaN = true := by
  rw [place?, unpackedPlace?.eq_def] at h
  change x.toModel.unpack.isNaN = true
  split at h
  · next nan => rw [nan]; rfl
  all_goals cases h

end Decimal

theorem compareDoubles_eq (x y : Float) :
    compareDoubles x y = comparePlaces (Decimal.place? x) (Decimal.place? y) := by
  rw [compareDoubles]
  simp only [Decimal.lt_iff_comparePlaces, Decimal.beq_iff_comparePlaces]
  rw [comparePlaces_swap (Decimal.place? x)]
  rcases comparePlaces (Decimal.place? x) (Decimal.place? y) with _ | (_ | _ | _) <;> simp

theorem compareTexts_eq (a b : String) : compareTexts a b = compare a b := by
  rw [LinearOrder.compare_eq_compareOfLessAndEq]
  rfl

/-! ## Instants -/

/-- Where an instant stands among all. -/
def Time.Instant.place (t : Instant) : Int ×ₗ Nat := toLex (t.seconds, t.nanos)

namespace Time.Instant

variable {a b : Instant}

theorem before_iff : a.before b = true ↔ a.place < b.place := by
  rw [before, decide_eq_true_iff, place, place, Prod.Lex.toLex_lt_toLex]

theorem place_inj (h : a.place = b.place) : a = b := by
  cases a
  cases b
  simp only [place, toLex_inj, Prod.mk.injEq] at h
  simp [h.1, h.2]

theorem order_eq (a b : Instant) : a.order b = compare a.place b.place := by
  rw [order]
  simp only [before_iff]
  split
  · next less => exact (compare_lt_iff_lt.2 less).symm
  · next notLess =>
    split
    · next greater => exact (compare_gt_iff_gt.2 greater).symm
    · next notGreater =>
      exact (compare_eq_iff_eq.2 (le_antisymm (not_lt.1 notGreater) (not_lt.1 notLess))).symm

end Time.Instant

/-! ## Field values -/

namespace Json

theorem compareNumbers_swap (a b : Json) :
    compareNumbers b a = (compareNumbers a b).map Ordering.swap := by
  rw [compareNumbers, compareNumbers]
  cases a.number? <;> cases b.number? <;> simp [compareDoubles_eq, ← comparePlaces_swap]

theorem compareStrings_swap (a b : String) :
    compareStrings b a = (compareStrings a b).map Ordering.swap := by
  rw [compareStrings, compareStrings]
  -- Both texts are instants, or both are numbers but not both instants, or they compare as texts.
  cases Time.strict? a <;> cases Time.strict? b
  case some.some s t =>
    simp only [Time.Instant.order_eq]
    exact congrArg some Std.OrientedOrd.eq_swap
  all_goals
    cases Decimal.number? a <;> cases Decimal.number? b
    case some.some x y =>
      simp only [compareDoubles_eq]
      exact comparePlaces_swap _ _
    all_goals
      simp only [compareTexts_eq]
      exact congrArg some Std.OrientedOrd.eq_swap

/-- Swapping two values turns their order round. -/
theorem compare?_swap (a b : Json) : b.compare? a = (a.compare? b).map Ordering.swap := by
  cases a <;> cases b
  case bool.bool => exact congrArg some Std.OrientedOrd.eq_swap
  all_goals simp only [compare?, ← compareNumbers_swap, ← compareStrings_swap]

/-- One value comes before another. -/
def Less (a b : Json) : Prop := a.compare? b = some .lt

/-- Of some values, if one comes before another then every third one is after the former or before
the latter. -/
def Consistent (values : Json → Prop) : Prop :=
  ∀ x y z, values x → values y → values z → x.Less z → x.Less y ∨ y.Less z

theorem Less.not_less {a b : Json} (h : a.Less b) : ¬ b.Less a := by
  intro back
  rw [Less, compare?_swap, h] at back
  cases back

/-- Values are consistent if their order is that of places in a linear order. -/
theorem consistent_of_place {K : Type} [LinearOrder K] {values : Json → Prop} (place : Json → K)
    (same : ∀ x y, values x → values y → x.compare? y = some (compare (place x) (place y))) :
    Consistent values := by
  have less_iff : ∀ x y, values x → values y → (x.Less y ↔ place x < place y) := by
    intro x y hx hy
    rw [Less, same x y hx hy, Option.some_inj, compare_lt_iff_lt]
  intro x y z hx hy hz less
  rw [less_iff x z hx hz] at less
  rw [less_iff x y hx hy, less_iff y z hy hz]
  rcases lt_or_ge (place x) (place y) with onward | back
  · exact .inl onward
  · exact .inr (lt_of_le_of_lt back less)

/-- Texts that are instants. -/
theorem consistent_instants :
    Consistent fun v => ∃ s t, v = .string s ∧ Time.strict? s = some t := by
  refine consistent_of_place (fun v => (v.instant?.getD default).place) ?_
  rintro _ _ ⟨s, t, rfl, isT⟩ ⟨s', t', rfl, isT'⟩
  simp only [compare?, compareStrings, instant?, isT, isT', Option.getD_some,
    Time.Instant.order_eq]

/-- Values that denote numbers, but for texts that are instants. -/
theorem consistent_numbers : Consistent fun v =>
    (∃ x, v.number? = some x ∧ x.isNaN = false) ∧ ∀ s, v = .string s → Time.strict? s = none := by
  refine consistent_of_place (fun v => (v.number?.bind Decimal.place?).getD default) ?_
  rintro a b ⟨⟨x, isX, numberX⟩, noTimeA⟩ ⟨⟨y, isY, numberY⟩, noTimeB⟩
  have compared : a.compare? b = compareDoubles x y := by
    have numbers : a.compareNumbers b = compareDoubles x y := by rw [compareNumbers, isX, isY]
    cases a with
    | string s =>
      cases b with
      | string s' =>
        simp only [number?] at isX isY
        rw [compare?, compareStrings, noTimeA s rfl, noTimeB s' rfl, isX, isY]
      | null | bool | number | array | object => exact numbers
    | bool truth => cases isX
    | null | number | array | object => exact numbers
  have placed : ∀ x : Float, x.isNaN = false → ∃ place, Decimal.place? x = some place := by
    intro x number
    cases found : Decimal.place? x with
    | some place => exact ⟨place, rfl⟩
    | none => rw [Decimal.place?_eq_none found] at number; cases number
  obtain ⟨p, atP⟩ := placed x numberX
  obtain ⟨q, atQ⟩ := placed y numberY
  rw [compared, compareDoubles_eq, isX, isY, Option.bind_some, Option.bind_some, atP, atQ]
  rfl

/-- Texts that are neither instants nor numbers. -/
theorem consistent_texts : Consistent fun v =>
    ∃ s, v = .string s ∧ Time.strict? s = none ∧ Decimal.number? s = none := by
  refine consistent_of_place (fun v => v.string?.getD "") ?_
  rintro _ _ ⟨s, rfl, noTime, noNumber⟩ ⟨s', rfl, -, -⟩
  simp only [compare?, compareStrings, noTime, noNumber, string?, Option.getD_some,
    compareTexts_eq]

theorem consistent_bools : Consistent fun v => ∃ truth, v = .bool truth := by
  refine consistent_of_place (fun v => (v.bool?.getD false).toNat) ?_
  rintro _ _ ⟨truth, rfl⟩ ⟨truth', rfl⟩
  rfl

end Json

end Clickstream
