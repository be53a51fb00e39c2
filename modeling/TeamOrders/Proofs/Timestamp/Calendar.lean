import TeamOrders.Timestamp

/-!
# Counting days and naming them

A day has a place in a cycle of four hundred years, counted from March: a century of the cycle, a leap
period of the century, a year of the period, and a day of that year. The last year of a period has one
day more, except for the last period of the first three centuries. With the place at hand, the year of
the cycle and the day of the year are read off, so numbering the day with a number gives that number
again, and the day exists.
-/

namespace TeamOrders.Timestamp

/-! ### Places in a cycle -/

/-- A place in a cycle of four hundred years: 36524 days are a century without its last leap day, 1461
days are four years. -/
structure Place where
  century : Nat
  period : Nat
  year : Nat
  day : Nat
  century_le : century ≤ 3
  period_le : period ≤ 24
  year_le : year ≤ 3
  day_le : day ≤ 365
  leap : day = 365 → year = 3 ∧ (period = 24 → century = 3)

namespace Place

def days (p : Place) : Nat := 36524 * p.century + 1461 * p.period + 365 * p.year + p.day

def years (p : Place) : Nat := 100 * p.century + 4 * p.period + p.year

theorem exists_days_eq {d : Nat} (h : d < 146097) : ∃ p : Place, p.days = d := by
  -- The last day of the cycle is the only one that division by whole centuries misplaces.
  obtain ⟨century, inCentury, hd, hcentury, hin, hlast⟩ : ∃ century inCentury,
      d = 36524 * century + inCentury ∧ century ≤ 3 ∧ inCentury ≤ 36524 ∧
        (inCentury = 36524 → century = 3) := by
    by_cases hend : d = 146096
    · exact ⟨3, 36524, by omega, by omega, by omega, by omega⟩
    · exact ⟨d / 36524, d % 36524, by omega, by omega, by omega, by omega⟩
  obtain ⟨year, day, hperiod, hyear, hday, hleap⟩ : ∃ year day,
      inCentury % 1461 = 365 * year + day ∧ year ≤ 3 ∧ day ≤ 365 ∧ (day = 365 → year = 3) := by
    by_cases hend : inCentury % 1461 = 1460
    · exact ⟨3, 365, by omega, by omega, by omega, by omega⟩
    · exact ⟨inCentury % 1461 / 365, inCentury % 1461 % 365, by omega, by omega, by omega,
        by omega⟩
  let p : Place :=
    { century, period := inCentury / 1461, year, day
      century_le := hcentury, period_le := by omega, year_le := hyear, day_le := hday
      leap := fun h365 => ⟨hleap h365, by omega⟩ }
  refine ⟨p, ?_⟩
  change 36524 * century + 1461 * (inCentury / 1461) + 365 * year + day = d
  omega

/-- The year of the cycle, found by taking out the leap days. -/
theorem years_eq (p : Place) :
    (p.days - p.days / 1460 + p.days / 36524 - p.days / 146096) / 365 = p.years := by
  obtain ⟨century, period, year, day, hcentury, hperiod, hyear, hday, hleap⟩ := p
  simp only [days, years]
  have hcenturies : (36524 * century + 1461 * period + 365 * year + day) / 36524
      = if century = 3 ∧ period = 24 ∧ year = 3 ∧ day = 365 then 4 else century := by
    split <;> omega
  have hcycles : (36524 * century + 1461 * period + 365 * year + day) / 146096
      = if century = 3 ∧ period = 24 ∧ year = 3 ∧ day = 365 then 1 else 0 := by
    split <;> omega
  rw [hcenturies, hcycles]
  obtain rfl | rfl | rfl | rfl : year = 0 ∨ year = 1 ∨ year = 2 ∨ year = 3 := by omega
  all_goals split <;> omega

theorem years_le (p : Place) : p.years ≤ 399 := by
  have := p.century_le
  have := p.period_le
  have := p.year_le
  simp only [years]
  omega

theorem days_eq (p : Place) :
    365 * p.years + p.years / 4 - p.years / 100 + p.day = p.days := by
  have := p.century_le
  have := p.period_le
  have := p.year_le
  simp only [years, days]
  omega

end Place

/-! ### Years from March -/

def Day.ofMarch (year : Int) (dayOfYear : Nat) : Day :=
  let marchMonth := (5 * dayOfYear + 2) / 153
  let month := if marchMonth < 10 then marchMonth + 3 else marchMonth - 9
  { year := if month ≤ 2 then year + 1 else year
    month
    day := dayOfYear - (153 * marchMonth + 2) / 5 + 1 }

theorem ofNumber_eq_ofMarch (n : Int) : ∃ (cycle : Int) (p : Place),
    n = cycle * 146097 + p.days - 719468 ∧
    Day.ofNumber n = Day.ofMarch (p.years + cycle * 400) p.day := by
  let cycle := (n + 719468).fdiv 146097
  let dayOfCycle := (n + 719468 - cycle * 146097).toNat
  have hnumber : n = cycle * 146097 + dayOfCycle - 719468 ∧ dayOfCycle < 146097 := by
    simp only [dayOfCycle, cycle, Int.fdiv_eq_ediv_of_nonneg _ (by decide : (0 : Int) ≤ 146097)]
    omega
  obtain ⟨p, hp⟩ := Place.exists_days_eq hnumber.2
  refine ⟨cycle, p, by rw [hp]; exact hnumber.1, ?_⟩
  have hday : p.days - (365 * p.years + p.years / 4 - p.years / 100) = p.day := by
    have := p.days_eq
    omega
  rw [← hday, ← p.years_eq, hp]
  rfl

/-- The year that the day belongs to when years start in March. -/
def Day.marchYear (d : Day) : Int := if d.month ≤ 2 then d.year - 1 else d.year

def Day.dayOfMarchYear (d : Day) : Nat := (153 * ((d.month + 9) % 12) + 2) / 5 + d.day - 1

theorem Day.number_eq (d : Day) : d.number = d.marchYear / 400 * 146097
    + (d.marchYear % 400 * 365 + d.marchYear % 400 / 4 - d.marchYear % 400 / 100
      + d.dayOfMarchYear) - 719468 := by
  have hcycle : d.number = d.marchYear.fdiv 400 * 146097
      + ((d.marchYear - d.marchYear.fdiv 400 * 400) * 365
        + (d.marchYear - d.marchYear.fdiv 400 * 400) / 4
        - (d.marchYear - d.marchYear.fdiv 400 * 400) / 100 + d.dayOfMarchYear) - 719468 := rfl
  have hrest : d.marchYear - d.marchYear / 400 * 400 = d.marchYear % 400 := by omega
  rw [hcycle, Int.fdiv_eq_ediv_of_nonneg _ (by decide : (0 : Int) ≤ 400), hrest]

theorem marchYear_ofMarch (year : Int) (dayOfYear : Nat) :
    (Day.ofMarch year dayOfYear).marchYear = year := by
  let early := (Day.ofMarch year dayOfYear).month ≤ 2
  change (if early then (if early then year + 1 else year) - 1
    else if early then year + 1 else year) = year
  split
  · rw [Int.add_sub_cancel]
  · rfl

theorem dayOfMarchYear_ofMarch (year : Int) {dayOfYear : Nat} (h : dayOfYear ≤ 365) :
    (Day.ofMarch year dayOfYear).dayOfMarchYear = dayOfYear := by
  have hback : ((if (5 * dayOfYear + 2) / 153 < 10 then (5 * dayOfYear + 2) / 153 + 3
      else (5 * dayOfYear + 2) / 153 - 9) + 9) % 12 = (5 * dayOfYear + 2) / 153 := by
    split <;> omega
  simp only [Day.dayOfMarchYear, Day.ofMarch, hback]
  omega

theorem number_ofNumber (n : Int) : (Day.ofNumber n).number = n := by
  obtain ⟨cycle, p, hn, hday⟩ := ofNumber_eq_ofMarch n
  have hyears := p.years_le
  have hdays := p.days_eq
  have hcycle : ((p.years : Int) + cycle * 400) / 400 = cycle := by omega
  have hrest : ((p.years : Int) + cycle * 400) % 400 = p.years := by omega
  rw [Day.number_eq, hday, marchYear_ofMarch, dayOfMarchYear_ofMarch _ p.day_le, hcycle, hrest, hn]
  omega

/-! ### Days that exist -/

theorem isLeapYear_iff {year : Int} :
    isLeapYear year = true ↔ year % 4 = 0 ∧ (year % 100 ≠ 0 ∨ year % 400 = 0) := by
  simp [isLeapYear]

theorem month_ofMarch (year : Int) {dayOfYear : Nat} (h : dayOfYear ≤ 365) :
    1 ≤ (Day.ofMarch year dayOfYear).month ∧ (Day.ofMarch year dayOfYear).month ≤ 12 := by
  simp only [Day.ofMarch]
  split <;> omega

/-- Every month has days enough, but the 29th of February takes a leap year. -/
theorem day_ofMarch_le (year : Int) {dayOfYear : Nat} (h : dayOfYear ≤ 365)
    (leap : dayOfYear = 365 → isLeapYear (year + 1) = true) :
    (Day.ofMarch year dayOfYear).day
      ≤ daysInMonth (Day.ofMarch year dayOfYear).year (Day.ofMarch year dayOfYear).month := by
  obtain ⟨marchMonth, hmarch⟩ : ∃ marchMonth, (5 * dayOfYear + 2) / 153 = marchMonth := ⟨_, rfl⟩
  have hbounds : 153 * marchMonth ≤ 5 * dayOfYear + 2 ∧ 5 * dayOfYear + 2 < 153 * (marchMonth + 1) := by
    omega
  simp only [Day.ofMarch, hmarch]
  by_cases hlast : marchMonth = 11
  · subst hlast
    by_cases hleap : dayOfYear = 365
    · simp [daysInMonth, leap hleap, hleap]
    · have : 28 ≤ daysInMonth (year + 1) 2 := by
        simp only [daysInMonth]
        split <;> split <;> decide
      simp
      omega
  · obtain rfl | rfl | rfl | rfl | rfl | rfl | rfl | rfl | rfl | rfl | rfl :
        marchMonth = 0 ∨ marchMonth = 1 ∨ marchMonth = 2 ∨ marchMonth = 3 ∨ marchMonth = 4
          ∨ marchMonth = 5 ∨ marchMonth = 6 ∨ marchMonth = 7 ∨ marchMonth = 8 ∨ marchMonth = 9
          ∨ marchMonth = 10 := by omega
    all_goals
      simp [daysInMonth]
      omega

/-- The last day of a place in the cycle stands in front of a March that ends a leap year. -/
theorem Place.leapYear_of_lastDay (p : Place) (cycle : Int) (h : p.day = 365) :
    isLeapYear (p.years + cycle * 400 + 1) = true := by
  obtain ⟨hyear, hperiod⟩ := p.leap h
  have := p.period_le
  have := p.century_le
  rw [isLeapYear_iff]
  simp only [years]
  omega

theorem valid_ofNumber {n : Int} (hfirst : firstYear ≤ (Day.ofNumber n).year)
    (hlast : (Day.ofNumber n).year ≤ lastYear) : (Day.ofNumber n).valid = true := by
  obtain ⟨cycle, p, -, hday⟩ := ofNumber_eq_ofMarch n
  have hmonth := month_ofMarch (p.years + cycle * 400) p.day_le
  have hle := day_ofMarch_le (p.years + cycle * 400) p.day_le (p.leapYear_of_lastDay cycle)
  have hone : 1 ≤ (Day.ofMarch (p.years + cycle * 400) p.day).day := Nat.le_add_left 1 _
  rw [← hday] at hmonth hle hone
  simp only [Day.valid, Bool.and_eq_true, decide_eq_true_eq]
  exact ⟨⟨⟨⟨⟨hfirst, hlast⟩, hmonth.1⟩, hmonth.2⟩, hone⟩, hle⟩

end TeamOrders.Timestamp
