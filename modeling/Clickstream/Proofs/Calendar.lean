import Clickstream.Time.Calendar

/-! # Days and their dates

The date of a day is one that the calendar has, and counting the days to it gives the day again. The
proof follows the calendar: an era of 400 years is four centuries of twenty-five groups of four
years, each a day longer than its parts but where the leap day is left out, and only the last day of
an era falls outside.
-/

namespace Clickstream.Time

/-! ## Years that begin in March -/

/-- A day, counted from 1970-01-01, by the year and the day of the year that it falls in. -/
structure InYear (days year dayOfYear : Int) : Prop where
  sum : days + 719468 = year * 365 + year / 4 - year / 100 + year / 400 + dayOfYear
  least : 0 ≤ dayOfYear
  most : dayOfYear ≤ 365
  /-- The leap day comes last. -/
  leap : dayOfYear = 365 → isLeap (year + 1) = true

/-- A day of an era by its century, its four years, its year and the days that are left. -/
structure InEra (day century four year rest : Int) : Prop where
  sum : day = 36524 * century + 1461 * four + 365 * year + rest
  inEra : 0 ≤ century ∧ century ≤ 3
  inCentury : 0 ≤ four ∧ four ≤ 24
  inFour : 0 ≤ year ∧ year ≤ 3
  inYear : 0 ≤ rest ∧ rest ≤ 365
  /-- Only the last year of four has a day more. -/
  leap : rest = 365 → year = 3
  /-- The last four years of a century lack that day. -/
  inside : 1461 * four + 365 * year + rest < 36524

/-- The year of an era that a day falls in. -/
def yearOfEra (day : Int) : Int := (day - day / 1460 + day / 36524 - day / 146096) / 365

/-- The date of a day of a month, months counted from March. -/
def Date.fromMarch (year month day : Int) : Date :=
  let month := if month < 10 then month + 3 else month - 9
  ⟨if month ≤ 2 then year + 1 else year, month.toNat, day.toNat⟩

variable {days day era century four year rest dayOfYear month : Int}

theorem exists_inEra (least : 0 ≤ day) (most : day < 146096) :
    ∃ century four year rest, InEra day century four year rest := by
  refine ⟨day / 36524, day % 36524 / 1461, min 3 (day % 36524 % 1461 / 365),
    day % 36524 % 1461 - 365 * min 3 (day % 36524 % 1461 / 365), ?_⟩
  constructor <;> omega

theorem InEra.yearOfEra_eq (h : InEra day century four year rest) :
    yearOfEra day = 100 * century + 4 * four + year := by
  obtain ⟨rfl, hcentury, hfour, hyear, hrest, leap, inside⟩ := h
  have before : (36524 * century + 1461 * four + 365 * year + rest) / 36524 = century := by omega
  have notLast : (36524 * century + 1461 * four + 365 * year + rest) / 146096 = 0 := by omega
  rw [yearOfEra, before, notLast]
  omega

/-- A day of an era falls in the year that is worked out, on the day that is left of it. -/
theorem inYear_of_era (sum : days + 719468 = 146097 * era + day) (least : 0 ≤ day)
    (most : day < 146097) : InYear days (yearOfEra day + era * 400)
      (day - (365 * yearOfEra day + yearOfEra day / 4 - yearOfEra day / 100)) := by
  by_cases last : day = 146096
  · subst last
    have year : yearOfEra 146096 = 399 := by decide
    rw [year]
    refine ⟨by omega, by decide, by decide, fun _ => ?_⟩
    rw [isLeap, decide_eq_true_iff]
    omega
  · obtain ⟨century, four, year, rest, place⟩ := exists_inEra least (by omega)
    rw [place.yearOfEra_eq]
    obtain ⟨rfl, hcentury, hfour, hyear, hrest, leap, inside⟩ := place
    have leapDays : (100 * century + 4 * four + year) / 4 = 25 * century + four := by omega
    have centuries : (100 * century + 4 * four + year) / 100 = century := by omega
    rw [leapDays, centuries]
    generalize whole : 100 * century + 4 * four + year + era * 400 = total
    have leapDays' : total / 4 = 25 * century + four + era * 100 := by omega
    have centuries' : total / 100 = century + era * 4 := by omega
    have eras : total / 400 = era := by omega
    refine ⟨by omega, by omega, by omega, fun isLast => ?_⟩
    rw [isLeap, decide_eq_true_iff]
    omega

/-! ## Months -/

theorem monthLength_le {year : Int} {month : Nat} : monthLength year month ≤ 31 := by
  rw [monthLength]
  split
  · split <;> decide
  · split <;> decide

theorem fromMarch_of_lt (least : 0 ≤ month) (most : month < 10) :
    Date.fromMarch year month day = ⟨year, (month + 3).toNat, day.toNat⟩ := by
  rw [Date.fromMarch]
  simp only [if_pos most]
  rw [if_neg (by omega)]

/-- The last two months are in the next year of the calendar. -/
theorem fromMarch_of_ge (least : 10 ≤ month) (most : month ≤ 11) :
    Date.fromMarch year month day = ⟨year + 1, (month - 9).toNat, day.toNat⟩ := by
  rw [Date.fromMarch]
  simp only [if_neg (Int.not_lt.2 least)]
  rw [if_pos (by omega)]

section

variable (h : InYear days year dayOfYear) (least : 153 * month ≤ 5 * dayOfYear + 2)
  (most : 5 * dayOfYear + 2 < 153 * (month + 1))

include h least most

theorem InYear.toDays_fromMarch :
    (Date.fromMarch year month (dayOfYear - (153 * month + 2) / 5 + 1)).toDays = days := by
  obtain ⟨sum, first, last, -⟩ := h
  by_cases early : month < 10
  · have same : (((month + 3).toNat : Int) + 9) % 12 = month := by omega
    rw [fromMarch_of_lt (by omega) early, Date.toDays]
    simp only [same]
    rw [if_neg (by omega)]
    omega
  · have same : (((month - 9).toNat : Int) + 9) % 12 = month := by omega
    rw [fromMarch_of_ge (by omega) (by omega), Date.toDays]
    simp only [same, Int.add_sub_cancel]
    rw [if_pos (by omega)]
    omega

theorem InYear.exists_fromMarch :
    (Date.fromMarch year month (dayOfYear - (153 * month + 2) / 5 + 1)).exists = true := by
  obtain ⟨-, first, last, leap⟩ := h
  by_cases early : month < 10
  · rw [fromMarch_of_lt (by omega) early, Date.exists, decide_eq_true_iff]
    simp only [monthLength]
    rw [if_neg (by omega)]
    split <;> omega
  · rw [fromMarch_of_ge (by omega) (by omega), Date.exists, decide_eq_true_iff]
    dsimp only
    obtain rfl | rfl : month = 10 ∨ month = 11 := by omega
    · have january : monthLength (year + 1) (Int.toNat (10 - 9)) = 31 := rfl
      rw [january]
      omega
    · have february : monthLength (year + 1) (Int.toNat (11 - 9)) =
          if isLeap (year + 1) then 29 else 28 := rfl
      rw [february]
      split
      · omega
      · next short =>
        have notLast : dayOfYear ≠ 365 := fun isLast => short (leap isLast)
        omega

end

/-! ## Days -/

/-- The date of a day is that of a day of a month of a year. -/
theorem exists_fromMarch_eq (days : Int) : ∃ year month dayOfYear, InYear days year dayOfYear ∧
    153 * month ≤ 5 * dayOfYear + 2 ∧ 5 * dayOfYear + 2 < 153 * (month + 1) ∧
    Date.ofDays days = .fromMarch year month (dayOfYear - (153 * month + 2) / 5 + 1) := by
  have least := Int.emod_nonneg (days + 719468) (show (146097 : Int) ≠ 0 by decide)
  have most := Int.emod_lt_of_pos (days + 719468) (show (0 : Int) < 146097 by decide)
  have sum := (Int.mul_ediv_add_emod (days + 719468) 146097).symm
  have inMonth (n : Int) : 153 * (n / 153) ≤ n ∧ n < 153 * (n / 153 + 1) := by omega
  exact ⟨_, _, _, inYear_of_era sum least most, (inMonth _).1, (inMonth _).2, rfl⟩

/-- The calendar has the date of every day. -/
theorem exists_ofDays (days : Int) : (Date.ofDays days).exists = true := by
  obtain ⟨_, _, _, inYear, least, most, same⟩ := exists_fromMarch_eq days
  rw [same]
  exact inYear.exists_fromMarch least most

/-- Counting the days to the date of a day gives the day. -/
@[simp] theorem toDays_ofDays (days : Int) : (Date.ofDays days).toDays = days := by
  obtain ⟨_, _, _, inYear, least, most, same⟩ := exists_fromMarch_eq days
  rw [same]
  exact inYear.toDays_fromMarch least most

/-! ## The order of days -/

/-- One date comes before another. -/
def Date.Earlier (a b : Date) : Prop :=
  a.year < b.year ∨ a.year = b.year ∧ (a.month < b.month ∨ a.month = b.month ∧ a.day < b.day)

variable {later laterYear laterDay laterMonth : Int}

/-- A later day falls in a later year, or on a later day of the year. -/
theorem InYear.lt (h : InYear days year dayOfYear) (h' : InYear later laterYear laterDay)
    (less : days < later) : year < laterYear ∨ year = laterYear ∧ dayOfYear < laterDay := by
  obtain ⟨sum, first, last, -⟩ := h
  obtain ⟨sum', first', last', leap⟩ := h'
  rcases Int.lt_trichotomy year laterYear with before | rfl | after
  · exact .inl before
  · exact .inr ⟨rfl, by omega⟩
  · -- The year that begins after the later day cannot have begun by the earlier one.
    by_cases isLast : laterDay = 365
    · have leapDay := leap isLast
      rw [isLeap, decide_eq_true_iff] at leapDay
      omega
    · omega

/-- Dates are in the order of the years that begin in March, their months and the days of these. -/
theorem earlier_fromMarch {laterDay : Int} (least : 0 ≤ month) (most : month ≤ 11)
    (least' : 0 ≤ laterMonth) (most' : laterMonth ≤ 11) (inMonth : 0 ≤ day)
    (order : year < laterYear ∨ year = laterYear ∧
      (month < laterMonth ∨ month = laterMonth ∧ day < laterDay)) :
    (Date.fromMarch year month day).Earlier (.fromMarch laterYear laterMonth laterDay) := by
  by_cases early : month < 10 <;> by_cases early' : laterMonth < 10
  · rw [fromMarch_of_lt least early, fromMarch_of_lt least' early']
    dsimp only [Date.Earlier]
    omega
  · rw [fromMarch_of_lt least early, fromMarch_of_ge (by omega) most']
    dsimp only [Date.Earlier]
    omega
  · rw [fromMarch_of_ge (by omega) most, fromMarch_of_lt least' early']
    dsimp only [Date.Earlier]
    omega
  · rw [fromMarch_of_ge (by omega) most, fromMarch_of_ge (by omega) most']
    dsimp only [Date.Earlier]
    omega

/-- A later day has a later date. -/
theorem earlier_ofDays (less : days < later) : (Date.ofDays days).Earlier (.ofDays later) := by
  obtain ⟨year, month, dayOfYear, inYear, least, most, same⟩ := exists_fromMarch_eq days
  obtain ⟨year', month', dayOfYear', inYear', least', most', same'⟩ := exists_fromMarch_eq later
  have order := inYear.lt inYear' less
  obtain ⟨-, first, last, -⟩ := inYear
  obtain ⟨-, first', last', -⟩ := inYear'
  rw [same, same']
  have bounds : 0 ≤ month ∧ month ≤ 11 ∧ 0 ≤ month' ∧ month' ≤ 11 := by omega
  exact earlier_fromMarch bounds.1 bounds.2.1 bounds.2.2.1 bounds.2.2.2 (by omega) (by omega)

end Clickstream.Time
