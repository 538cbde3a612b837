import Mathlib.Tactic

/-! The Gregorian calendar: the number of a day, and the division of the days of an era of 400
years into its years, of which each begins in March. -/

namespace FastcgiContainer.Calendar

def isLeap (year : Int) : Bool := year % 4 == 0 && (year % 100 != 0 || year % 400 == 0)

def monthStarts : List Nat := [0, 31, 59, 90, 120, 151, 181, 212, 243, 273, 304, 334]

/-- The number of a day, counted from the first of January 1970. Days before and behind the
month belong to the neighbouring months. -/
def dayNumber (year : Int) (month day : Nat) : Int :=
  365 * (year - 1970) + ((year - 1) / 4 - 492) - ((year - 1) / 100 - 19) + ((year - 1) / 400 - 4) +
    monthStarts.getD (month - 1) 0 + (if isLeap year && 2 < month then 1 else 0) + day - 1

example : dayNumber 2000 3 1 = 11017 := by decide

theorem leaps_step (year : Int) :
    (year - 1) / 4 - (year - 1) / 100 + (year - 1) / 400 + (if isLeap year then 1 else 0) =
      year / 4 - year / 100 + year / 400 := by
  by_cases leap : isLeap year = true
  · simp only [leap, if_true]
    simp only [isLeap, Bool.and_eq_true, beq_iff_eq, Bool.or_eq_true, bne_iff_ne] at leap
    omega
  · simp only [leap]
    simp only [isLeap, Bool.and_eq_true, beq_iff_eq, Bool.or_eq_true, bne_iff_ne] at leap
    rw [if_neg (by simp)]
    omega

/-- The month of a year that begins in March. -/
def monthOf (shifted : Nat) : Nat := if shifted < 10 then shifted + 3 else shifted - 9

theorem monthStarts_eq (shifted : Nat) (inYear : shifted ≤ 11) :
    (monthStarts.getD (monthOf shifted - 1) 0 : Int) =
      (153 * shifted + 2) / 5 + (if shifted < 10 then 59 else -306) := by
  interval_cases shifted <;> rfl

theorem dayNumber_shifted (year : Int) (shifted day : Nat) (inYear : shifted ≤ 11) :
    dayNumber (year + (if monthOf shifted ≤ 2 then 1 else 0)) (monthOf shifted) day =
      365 * year + year / 4 - year / 100 + year / 400 + (153 * shifted + 2) / 5 + day - 1 - 719468 := by
  have starts := monthStarts_eq shifted inYear
  have leaps := leaps_step year
  unfold dayNumber
  rw [starts]
  unfold monthOf
  by_cases first : shifted < 10
  · have late : ¬shifted + 3 ≤ 2 := by omega
    have after : 2 < shifted + 3 := by omega
    simp only [first, if_true, late, if_false, add_zero, after, decide_true, Bool.and_true]
    omega
  · have early : shifted - 9 ≤ 2 := by omega
    have before : ¬2 < shifted - 9 := by omega
    simp only [first, if_true, early, if_false, before, decide_false, Bool.and_false, Bool.false_eq_true]
    clear leaps starts
    omega

section Era

/-- A day of an era by its century, the four years in the century, the year in the four years,
and the day in the year. -/
theorem era_parts (dayOfEra : Nat) (inEra : dayOfEra < 146097) :
    ∃ century quad year dayOfYear, dayOfEra = 36524 * century + 1461 * quad + 365 * year + dayOfYear ∧
      century ≤ 3 ∧ quad ≤ 24 ∧ year ≤ 3 ∧ dayOfYear ≤ 365 ∧
        (dayOfYear = 365 → year = 3 ∧ (quad = 24 → century = 3)) := by
  obtain ⟨century, inCentury, split, three, short⟩ : ∃ century inCentury, dayOfEra = 36524 * century + inCentury ∧
      century ≤ 3 ∧ (inCentury < 36524 ∨ century = 3 ∧ inCentury = 36524) :=
    ⟨min (dayOfEra / 36524) 3, dayOfEra - 36524 * min (dayOfEra / 36524) 3, by omega, by omega, by omega⟩
  refine ⟨century, inCentury / 1461, min (inCentury % 1461 / 365) 3,
    inCentury % 1461 - 365 * min (inCentury % 1461 / 365) 3, ?_, three, ?_, ?_, ?_, ?_⟩ <;> omega

variable (century quad year dayOfYear : Nat)

theorem yearOfEra_eq (extra last : Nat) (early : extra ≤ dayOfYear) (less : dayOfYear - extra < 365) :
    (36524 * century + 1461 * quad + 365 * year + dayOfYear - (25 * century + quad + extra) + (century + last) -
      last) / 365 = 100 * century + 4 * quad + year := by
  omega

variable (c : century ≤ 3) (q : quad ≤ 24) (y : year ≤ 3) (d : dayOfYear ≤ 365)
  (leap : dayOfYear = 365 → year = 3 ∧ (quad = 24 → century = 3))

include c q y d leap

/-- The leap days are estimated by quotients; the estimate is too large by one near the end of
four years, and on the last day of an era. -/
theorem leap_estimates :
    ∃ extra last, (36524 * century + 1461 * quad + 365 * year + dayOfYear) / 1460 = 25 * century + quad + extra ∧
      (36524 * century + 1461 * quad + 365 * year + dayOfYear) / 36524 = century + last ∧
      (36524 * century + 1461 * quad + 365 * year + dayOfYear) / 146096 = last ∧ extra ≤ dayOfYear ∧
      dayOfYear - extra < 365 := by
  have quads : (36524 * century + 1461 * quad + 365 * year + dayOfYear) / 1460 =
      25 * century + quad + (24 * century + quad + 365 * year + dayOfYear) / 1460 := by omega
  refine ⟨_, (36524 * century + 1461 * quad + 365 * year + dayOfYear) / 146096, quads, ?_, rfl, ?_, ?_⟩
  · have inCentury : 1461 * quad + 365 * year + dayOfYear < 36524 ∨
        century = 3 ∧ 1461 * quad + 365 * year + dayOfYear = 36524 := by
      by_cases ends : dayOfYear = 365 ∧ quad = 24
      · have fourth := leap ends.1
        have three := fourth.2 ends.2
        omega
      · clear leap quads
        omega
    rw [Nat.add_assoc, Nat.add_assoc, ← Nat.add_assoc (1461 * quad)]
    generalize 1461 * quad + 365 * year + dayOfYear = rest at inCentury
    clear * - inCentury c
    omega
  · clear quads leap
    omega
  · clear quads
    rcases Nat.lt_or_ge dayOfYear 365 with usual | long
    · omega
    · obtain ⟨rfl, -⟩ := leap (by omega)
      omega

end Era

end FastcgiContainer.Calendar
