import Clickstream.Proofs.TimeTexts
import Clickstream.Store.Query

/-! # Dates as texts

The bucket of an instant is a text that tells the day, month or year it falls in, for every year.
From the year -1 to 9999 these texts are in the order of time: years have four digits there, and a
minus comes before all of these. Earlier years are written backwards, and a year of five digits
comes before those of four.
-/

namespace Clickstream

namespace Time

variable {width m n : Nat} {ds es after after' : List Char}

/-! ## Digits in order -/

theorem paddedDigits_inj (same : paddedDigits width m = paddedDigits width n) : m = n := by
  rw [← @value_paddedDigits width m, same, value_paddedDigits]

theorem not_mem_paddedDigits {c : Char} (other : c.isDigit = false) :
    c ∉ paddedDigits width n := by
  intro member
  rw [isDigit_of_mem_paddedDigits member] at other
  cases other

/-- Of as many digits the smaller number comes first, whatever follows. -/
theorem append_lt_of_value_lt {init : Nat} (digits : ∀ c ∈ ds, c.isDigit = true)
    (digits' : ∀ c ∈ es, c.isDigit = true) (length : ds.length = es.length)
    (less : Nat.ofDigitChars 10 ds init < Nat.ofDigitChars 10 es init) :
    ds ++ after < es ++ after' := by
  induction ds generalizing es init with
  | nil =>
    rw [List.length_nil, eq_comm, List.length_eq_zero_iff] at length
    rw [length] at less
    exact absurd less (Nat.lt_irrefl _)
  | cons c ds ih =>
    obtain ⟨d, es, rfl⟩ :=
      List.exists_cons_of_length_eq_add_one (length.symm.trans List.length_cons)
    obtain ⟨digit, others⟩ := List.forall_mem_cons.1 digits
    obtain ⟨digit', others'⟩ := List.forall_mem_cons.1 digits'
    rw [Nat.ofDigitChars_cons, Nat.ofDigitChars_cons] at less
    rw [List.cons_append, List.cons_append, List.cons_lt_cons_iff]
    have rest : ds.length = es.length := Nat.succ.inj length
    rcases Nat.lt_trichotomy c.toNat d.toNat with first | same | first
    · exact .inl (UInt32.lt_iff_toNat_lt.2 first)
    · obtain rfl := Char.toNat_inj.1 same
      exact .inr ⟨rfl, ih others others' rest less⟩
    · -- A smaller digit is not made up for by those behind it.
      rw [Char.isDigit_iff_toNat] at digit digit'
      have most := @ofDigitChars_lt es others' (10 * init + (d.toNat - '0'.toNat))
      rw [Nat.ofDigitChars_eq_ofDigitChars_zero, rest] at less
      have step := Nat.mul_le_mul_left (10 ^ es.length)
        (show 10 * init + (d.toNat - '0'.toNat) + 1 ≤ 10 * init + (c.toNat - '0'.toNat) by omega)
      omega

theorem paddedDigits_append_lt (less : m < n) (fits : n < 10 ^ width) (some : 0 < width) :
    paddedDigits width m ++ after < paddedDigits width n ++ after' := by
  refine @append_lt_of_value_lt _ _ _ _ 0 (fun _ => isDigit_of_mem_paddedDigits)
    (fun _ => isDigit_of_mem_paddedDigits) ?_ ?_
  · rw [length_paddedDigits (Nat.lt_trans less fits) some, length_paddedDigits fits some]
  · rw [value_paddedDigits, value_paddedDigits]
    exact less

/-- A minus comes before every digit. -/
theorem minus_lt_paddedDigits : '-' :: after < paddedDigits width n ++ after' := by
  cases digits : paddedDigits width n with
  | nil =>
    have none := (List.append_eq_nil_iff.1 digits).2
    exact absurd none Nat.toDigits_ne_nil
  | cons c cs =>
    have digit : c.isDigit = true :=
      @isDigit_of_mem_paddedDigits width n c (digits ▸ List.mem_cons_self)
    rw [Char.isDigit_iff_toNat] at digit
    refine List.cons_lt_cons_iff.2 (.inl (UInt32.lt_iff_toNat_lt.2 ?_))
    exact Nat.lt_of_lt_of_le (by decide) digit.1

end Time

namespace DateInterval

open Time

variable {interval : DateInterval} {y y' : Int} {date date' : Date} {t u : Instant}
  {after after' : List Char}

/-! ## Buckets as texts -/

/-- The sign of a year in a bucket. -/
def sign (interval : DateInterval) (y : Int) : List Char :=
  if y < 0 then ['-'] else if interval = day ∧ 9999 < y then ['+'] else []

/-- The year in a bucket. A month or a year counts the sign among the four characters. -/
def yearChars (interval : DateInterval) (y : Int) : List Char :=
  interval.sign y ++ paddedDigits (if interval ≠ day ∧ y < 0 then 3 else 4) y.natAbs

/-- What a bucket says after the year. -/
def partChars (interval : DateInterval) (date : Date) : List Char :=
  match interval with
  | day => '-' :: (paddedDigits 2 date.month ++ '-' :: paddedDigits 2 date.day)
  | month => '-' :: paddedDigits 2 date.month
  | year => []

theorem toList_padded_year (other : interval ≠ day) :
    (padded 4 y).toList = yearChars interval y := by
  rw [padded, yearChars, sign]
  by_cases before : y < 0
  · rw [if_pos before, if_pos before, if_pos ⟨other, before⟩, String.toList_append, toList_zeroPad]
    rfl
  · obtain ⟨n, rfl⟩ := Int.eq_ofNat_of_zero_le (Int.not_lt.1 before)
    rw [if_neg before, if_neg before, if_neg (fun both => other both.1),
      if_neg (fun both => before both.2)]
    exact toList_zeroPad

theorem toList_yearText : (yearText y).toList = yearChars day y := by
  have width : (if day ≠ day ∧ y < 0 then 3 else 4) = 4 := if_neg fun both => both.1 rfl
  rw [yearText, yearChars, sign, width]
  by_cases before : y < 0
  · have outside : ¬ (0 ≤ y ∧ y ≤ 9999) := by omega
    rw [if_neg outside, if_pos before, if_pos before, String.toList_append, toList_zeroPad]
    rfl
  · obtain ⟨n, rfl⟩ := Int.eq_ofNat_of_zero_le (Int.not_lt.1 before)
    by_cases long : 9999 < (n : Int)
    · have outside : ¬ (0 ≤ (n : Int) ∧ (n : Int) ≤ 9999) := by omega
      rw [if_neg outside, if_neg before, if_neg before, if_pos ⟨rfl, long⟩, String.toList_append,
        toList_zeroPad]
      rfl
    · have inside : 0 ≤ (n : Int) ∧ (n : Int) ≤ 9999 := by omega
      rw [if_pos inside, if_neg before, if_neg (fun both => long both.2)]
      exact toList_padded

theorem toList_bucket :
    (interval.bucket t).toList = interval.yearChars t.date.year ++ interval.partChars t.date := by
  cases interval with
  | day =>
    simp only [bucket, Date.text, partChars, String.toList_append, toList_yearText, toList_padded]
    simp
  | month =>
    simp only [bucket, partChars, String.toList_append, toList_padded,
      @toList_padded_year month _ nofun]
    simp
  | year =>
    simp only [bucket, partChars, @toList_padded_year year _ nofun, List.append_nil]

/-! ## Instants of one bucket -/

theorem minus_mem_yearChars : '-' ∈ interval.yearChars y ↔ y < 0 := by
  rw [yearChars, List.mem_append, or_iff_left (not_mem_paddedDigits rfl), sign]
  split
  · next before => simpa using before
  · next after => split <;> simpa using after

/-- The digits of the year in a bucket. -/
theorem value_yearChars :
    Nat.ofDigitChars 10 ((interval.yearChars y).filter Char.isDigit) 0 = y.natAbs := by
  have signOnly : (interval.sign y).filter Char.isDigit = [] := by
    rw [sign]
    split
    · rfl
    · split <;> rfl
  rw [yearChars, List.filter_append, signOnly, List.nil_append,
    List.filter_eq_self.2 fun _ => isDigit_of_mem_paddedDigits, value_paddedDigits]

theorem yearChars_inj (same : interval.yearChars y = interval.yearChars y') : y = y' := by
  have minus := @minus_mem_yearChars interval y
  have value := @value_yearChars interval y
  rw [same, minus_mem_yearChars] at minus
  rw [same, value_yearChars] at value
  omega

/-- Two instants fall in the same day, month or year. -/
def Shares (interval : DateInterval) (t u : Instant) : Prop :=
  match interval with
  | day => t.seconds / 86400 = u.seconds / 86400
  | month => t.date.year = u.date.year ∧ t.date.month = u.date.month
  | year => t.date.year = u.date.year

theorem length_partChars (months : date.month < 100) (days : date.day < 100) :
    (interval.partChars date).length = match interval with | day => 6 | month => 3 | year => 0 := by
  have two {n : Nat} (fits : n < 100) : (paddedDigits 2 n).length = 2 :=
    length_paddedDigits fits (by decide)
  cases interval with
  | day => simp [partChars, two months, two days]
  | month => simp [partChars, two months]
  | year => rfl

theorem date_fits : t.date.month < 100 ∧ t.date.day < 100 := by
  have isDate : t.date.exists = true := exists_ofDays _
  have short := @monthLength_le t.date.year t.date.month
  rw [Date.exists, decide_eq_true_iff] at isDate
  omega

theorem date_eq_iff : t.date = u.date ↔ t.seconds / 86400 = u.seconds / 86400 := by
  refine ⟨fun same => ?_, congrArg Date.ofDays⟩
  have days : t.date.toDays = u.date.toDays := congrArg Date.toDays same
  rwa [Instant.date, Instant.date, toDays_ofDays, toDays_ofDays] at days

theorem bucket_eq_iff_chars : interval.bucket t = interval.bucket u ↔
    t.date.year = u.date.year ∧ interval.partChars t.date = interval.partChars u.date := by
  obtain ⟨months, days⟩ := @date_fits t
  obtain ⟨months', days'⟩ := @date_fits u
  have lengths : (interval.partChars t.date).length = (interval.partChars u.date).length := by
    rw [length_partChars months days, length_partChars months' days']
  rw [← String.toList_inj, toList_bucket, toList_bucket]
  constructor
  · intro same
    obtain ⟨years, parts⟩ := List.append_inj' same lengths
    exact ⟨yearChars_inj years, parts⟩
  · rintro ⟨years, parts⟩
    rw [years, parts]

/-- Two instants have the same bucket exactly if they fall in the same day, month or year. -/
theorem bucket_eq_iff : interval.bucket t = interval.bucket u ↔ interval.Shares t u := by
  rw [bucket_eq_iff_chars]
  cases interval with
  | day =>
    rw [Shares, ← date_eq_iff]
    constructor
    · rintro ⟨years, parts⟩
      have digits : (paddedDigits 2 t.date.month).length =
          (paddedDigits 2 u.date.month).length := by
        rw [length_paddedDigits date_fits.1 (by decide),
          length_paddedDigits date_fits.1 (by decide)]
      obtain ⟨months, rest⟩ := List.append_inj (List.cons.inj parts).2 digits
      have days := paddedDigits_inj (List.cons.inj rest).2
      exact Date.mk.injEq .. ▸ ⟨years, paddedDigits_inj months, days⟩
    · intro same
      rw [same]
      exact ⟨rfl, rfl⟩
  | month =>
    refine and_congr_right fun _ => ⟨fun parts => paddedDigits_inj (List.cons.inj parts).2, ?_⟩
    intro same
    rw [partChars, partChars, same]
  | year => exact and_iff_left rfl

/-! ## Buckets in order -/

/-- From the year -1 to 9999 an earlier year comes first, whatever follows. -/
theorem yearChars_append_lt (least : -1 ≤ y) (less : y < y') (most : y' ≤ 9999) :
    interval.yearChars y ++ after < interval.yearChars y' ++ after' := by
  have noSign {z : Int} (least : 0 ≤ z) (most : z ≤ 9999) :
      interval.yearChars z = paddedDigits 4 z.natAbs := by
    rw [yearChars, sign, if_neg (Int.not_lt.2 least), if_neg (fun both => by omega),
      if_neg (fun both => by omega)]
    rfl
  rw [noSign (show 0 ≤ y' by omega) most]
  by_cases before : y < 0
  · rw [yearChars, sign, if_pos before, List.singleton_append, List.cons_append]
    exact minus_lt_paddedDigits
  · rw [noSign (by omega) (by omega)]
    exact paddedDigits_append_lt (by omega) (by omega) (by decide)

theorem cons_lt_cons {c : Char} {cs cs' : List Char} (less : cs < cs') : c :: cs < c :: cs' :=
  List.cons_lt_cons_iff.2 (.inr ⟨rfl, less⟩)

theorem partChars_lt
    (h : date.month < date'.month ∨ date.month = date'.month ∧ date.day < date'.day)
    (months : date'.month < 100) (days : date'.day < 100) :
    interval.partChars date = interval.partChars date' ∨
      interval.partChars date < interval.partChars date' := by
  have alone {m n : Nat} (less : m < n) (fits : n < 100) : paddedDigits 2 m < paddedDigits 2 n := by
    simpa using @paddedDigits_append_lt 2 m n [] [] less fits (by decide)
  cases interval with
  | day =>
    refine .inr (cons_lt_cons ?_)
    rcases h with less | ⟨same, less⟩
    · exact paddedDigits_append_lt less months (by decide)
    · rw [same]
      exact List.append_left_lt (cons_lt_cons (alone less days))
  | month =>
    rcases h with less | ⟨same, -⟩
    · exact .inr (cons_lt_cons (alone less months))
    · rw [partChars, partChars, same]
      exact .inl rfl
  | year => exact .inl rfl

/-- From the year -1 to 9999 an earlier date has the same bucket or one that comes before. -/
theorem bucket_eq_or_lt (least : -1 ≤ t.date.year) (most : u.date.year ≤ 9999)
    (earlier : t.date.Earlier u.date) :
    interval.bucket t = interval.bucket u ∨ interval.bucket t < interval.bucket u := by
  obtain ⟨months, days⟩ := @date_fits u
  rw [← String.toList_inj, String.lt_iff, toList_bucket, toList_bucket]
  rcases earlier with less | ⟨same, rest⟩
  · exact .inr (yearChars_append_lt least less most)
  · rw [same]
    exact (partChars_lt rest months days).imp (congrArg _) List.append_left_lt

/-- From the year -1 to 9999 an instant whose bucket comes before another is the earlier one. -/
theorem before_of_bucket_lt (least : -1 ≤ u.date.year) (most : t.date.year ≤ 9999)
    (less : interval.bucket t < interval.bucket u) : t.before u = true := by
  rcases Int.lt_trichotomy (t.seconds / 86400) (u.seconds / 86400) with first | same | second
  · rw [Instant.before, decide_eq_true_iff]
    omega
  · have shared : interval.bucket t = interval.bucket u := by
      rw [bucket_eq_iff_chars, date_eq_iff.2 same]
      exact ⟨rfl, rfl⟩
    exact absurd (shared ▸ less) (String.lt_irrefl _)
  · rcases @bucket_eq_or_lt interval _ _ least most (earlier_ofDays second) with same | back
    · exact absurd (same ▸ less) (String.lt_irrefl _)
    · exact absurd (String.lt_trans less back) (String.lt_irrefl _)

end DateInterval

end Clickstream
