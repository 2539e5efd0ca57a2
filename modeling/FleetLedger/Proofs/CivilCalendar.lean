import Mathlib.Algebra.Order.Group.Int
import Mathlib.Order.SuccPred.Basic
import FleetLedger.Proofs.DateText

/-!
# Day counts follow the calendar

A date is a day count here, and a calendar on the wall goes by years, months and days.  This file shows
that both are the same calendar.  `Civil.next` is the day after as one reads it off the wall, by the
lengths of the months and the rule for leap years, and `Civil.Before` is the order of days on the wall.

The way from a day count to its civil form leads through years that begin in March, and only there the
lengths of months do not show.  So the way back is taken apart instead, by the first day of each year
(`yearStart`) and of each month in it (`monthStart`): `dayCount_mk`.  From this follow what a day count
says of the day after (`next_spec`) and of an earlier day (`Before.dayCount_lt`), and since the civil form
of a day count is a day of the calendar (`isValid_ofDayCount`), the same holds in the other direction:

* **`ofDayCount_add_one`** — one day more is the next day of the calendar;
* **`ofDayCount_before_iff`** — a smaller day count is an earlier day;
* **`ofDayCount_dayCount`** — each day of the calendar has a day count that leads back to it.
-/

namespace FleetLedger

namespace Civil

/-- The day after: in the same month, or the first of the next month, or New Year. -/
def next (c : Civil) : Civil :=
  if c.day < monthLength c.year c.month then { c with day := c.day + 1 }
  else if c.month < 12 then ⟨c.year, c.month + 1, 1⟩
  else ⟨c.year + 1, 1, 1⟩

/-- The order of days: by their years, then by their months, then within the month. -/
def Before (a b : Civil) : Prop :=
  a.year < b.year ∨ a.year = b.year ∧ (a.month < b.month ∨ a.month = b.month ∧ a.day < b.day)

lemma Before.trichotomy (a b : Civil) : a.Before b ∨ a = b ∨ b.Before a := by
  obtain ⟨y, m, d⟩ := a
  obtain ⟨y', m', d'⟩ := b
  simp only [Before, mk.injEq]
  omega

/-! ## Years and months -/

lemma isLeap_iff {y : Int} : isLeap y = true ↔ y % 4 = 0 ∧ (y % 100 ≠ 0 ∨ y % 400 = 0) := by
  simp [isLeap]

/-- The leap days of a year, of which it has one or none. -/
def leapDay (year : Int) : Int := if isLeap year then 1 else 0

lemma leapDay_cases (y : Int) :
    isLeap y = true ∧ leapDay y = 1 ∨ isLeap y = false ∧ leapDay y = 0 := by
  cases h : isLeap y <;> simp [leapDay, h]

/-- The day count of the first day of a year. -/
def yearStart (year : Int) : Int :=
  365 * year + (year - 1) / 4 - (year - 1) / 100 + (year - 1) / 400 - 719527

/-- The days of a year before a month of it. -/
def monthStart (year month : Int) : Int :=
  if month = 1 then 0 else if month = 2 then 31
  else daysBeforeMonth (month - 3) + 59 + leapDay year

/-- A year has 365 days and its leap day.  Each of the three quotients grows by one after a year that
its divisor divides. -/
lemma yearStart_add_one (y : Int) : yearStart (y + 1) = yearStart y + 365 + leapDay y := by
  have h4 : y / 4 = (y - 1) / 4 + if y % 4 = 0 then 1 else 0 := by split <;> omega
  have h100 : y / 100 = (y - 1) / 100 + if y % 100 = 0 then 1 else 0 := by split <;> omega
  have h400 : y / 400 = (y - 1) / 400 + if y % 400 = 0 then 1 else 0 := by split <;> omega
  have hhundred : y % 100 = 0 → y % 4 = 0 := by omega
  have hcycle : y % 400 = 0 → y % 100 = 0 := by omega
  simp only [yearStart, Int.add_sub_cancel, leapDay, isLeap_iff, h4, h100, h400]
  grind

lemma yearStart_mono {y y' : Int} (h : y ≤ y') : yearStart y ≤ yearStart y' := by
  refine monotone_int_of_le_succ (fun z => ?_) h
  rw [yearStart_add_one]
  rcases leapDay_cases z with ⟨-, hz⟩ | ⟨-, hz⟩ <;> omega

lemma monthLength_bounds (y m : Int) : 28 ≤ monthLength y m ∧ monthLength y m ≤ 31 := by
  simp only [monthLength]
  split <;> split <;> omega

/-- After each month but the last the next one begins. -/
lemma monthStart_add_one (y : Int) {m : Int} (h : 1 ≤ m ∧ m < 12) :
    monthStart y (m + 1) = monthStart y m + monthLength y m := by
  have hm : m = 1 ∨ m = 2 ∨ m = 3 ∨ m = 4 ∨ m = 5 ∨ m = 6 ∨ m = 7 ∨ m = 8 ∨ m = 9 ∨ m = 10
      ∨ m = 11 := by omega
  rcases leapDay_cases y with ⟨hy, hd⟩ | ⟨hy, hd⟩ <;>
    rcases hm with rfl | rfl | rfl | rfl | rfl | rfl | rfl | rfl | rfl | rfl | rfl <;>
    simp [monthStart, monthLength, daysBeforeMonth, hy, hd]

lemma monthStart_mono (y : Int) {m m' : Int} (hm : 1 ≤ m) (h : m ≤ m') :
    monthStart y m ≤ monthStart y m' := by
  simp only [monthStart, daysBeforeMonth]
  rcases leapDay_cases y with ⟨-, hd⟩ | ⟨-, hd⟩ <;> grind

lemma monthStart_twelve (y : Int) : monthStart y 12 = 334 + leapDay y := by
  simp [monthStart, daysBeforeMonth]

/-- No month goes on beyond its year. -/
lemma monthStart_add_monthLength_le (y : Int) {m : Int} (h : 1 ≤ m ∧ m ≤ 12) :
    monthStart y m + monthLength y m ≤ 365 + leapDay y := by
  rcases eq_or_ne m 12 with rfl | hne
  · have hlength : monthLength y 12 = 31 := rfl
    rw [monthStart_twelve]
    omega
  · have hlater : monthStart y (m + 1) ≤ monthStart y 12 :=
      monthStart_mono y (by omega) (by omega)
    rw [monthStart_add_one y ⟨h.1, by omega⟩, monthStart_twelve] at hlater
    omega

/-! ## From the calendar to day counts -/

/-- Whole cycles of 400 years, and what remains of the years. -/
lemma cycles_eq (y : Int) :
    y / 400 * 146097 + daysBefore (y - y / 400 * 400) = 365 * y + y / 4 - y / 100 + y / 400 := by
  have h4 : (y - y / 400 * 400) / 4 = y / 4 - y / 400 * 100 := by omega
  have h100 : (y - y / 400 * 400) / 100 = y / 100 - y / 400 * 4 := by omega
  rw [daysBefore, h4, h100]
  omega

/-- **The day count of a day** of the calendar, by its year, its month and its place in the month. -/
theorem dayCount_mk {y m : Int} (d : Int) (h : 1 ≤ m ∧ m ≤ 12) :
    (Civil.mk y m d).dayCount = yearStart y + monthStart y m + (d - 1) := by
  by_cases hm : m ≤ 2
  · -- January and February belong to the year that began in March before
    have hmarch : daysBeforeMonth ((m + 9) % 12) = monthStart y m + 306 := by
      obtain rfl | rfl : m = 1 ∨ m = 2 := by omega
      · rfl
      · rfl
    simp only [dayCount, hm, if_true, cycles_eq, hmarch, yearStart]
    omega
  · have hmarch : daysBeforeMonth ((m + 9) % 12) = monthStart y m - 59 - leapDay y := by
      have hindex : (m + 9) % 12 = m - 3 := by omega
      have h1 : m ≠ 1 := by omega
      have h2 : m ≠ 2 := by omega
      simp only [hindex, monthStart, h1, h2, if_false]
      omega
    -- the leap days up to this year are those before it and its own
    have hnext := yearStart_add_one y
    simp only [dayCount, hm, if_false, cycles_eq, hmarch]
    simp only [yearStart, Int.add_sub_cancel] at hnext ⊢
    omega

lemma isValid_mk_iff {y m d : Int} : (Civil.mk y m d).isValid = true
    ↔ (1 ≤ m ∧ m ≤ 12) ∧ 1 ≤ d ∧ d ≤ monthLength y m := by
  simp [isValid, and_assoc]

/-- **The next day** of the calendar is a day of it, and its day count is one more. -/
theorem next_spec {c : Civil} (h : c.isValid = true) :
    c.next.isValid = true ∧ c.next.dayCount = c.dayCount + 1 := by
  obtain ⟨y, m, d⟩ := c
  obtain ⟨hm, hd, hlast⟩ := isValid_mk_iff.mp h
  rw [dayCount_mk d hm]
  simp only [next]
  split
  case isTrue hlt =>
    refine ⟨isValid_mk_iff.mpr ⟨hm, by omega, by omega⟩, ?_⟩
    rw [dayCount_mk _ hm]
    omega
  case isFalse hend =>
    split
    case isTrue hlt =>
      have hm' : 1 ≤ m + 1 ∧ m + 1 ≤ 12 := by omega
      have hlength := monthLength_bounds y (m + 1)
      refine ⟨isValid_mk_iff.mpr ⟨hm', by omega, by omega⟩, ?_⟩
      rw [dayCount_mk _ hm', monthStart_add_one y ⟨hm.1, hlt⟩]
      omega
    case isFalse hlate =>
      obtain rfl : m = 12 := by omega
      have hlength : monthLength y 12 = 31 := rfl
      have hjanuary : monthLength (y + 1) 1 = 31 := rfl
      have hfirst : monthStart (y + 1) 1 = 0 := rfl
      refine ⟨isValid_mk_iff.mpr ⟨by omega, by omega, by omega⟩, ?_⟩
      rw [dayCount_mk _ (by omega), yearStart_add_one, monthStart_twelve, hfirst]
      omega

/-- **An earlier day** of the calendar has a smaller day count. -/
theorem Before.dayCount_lt {a b : Civil} (ha : a.isValid = true) (hb : b.isValid = true)
    (h : a.Before b) : a.dayCount < b.dayCount := by
  obtain ⟨y, m, d⟩ := a
  obtain ⟨y', m', d'⟩ := b
  obtain ⟨hm, hd, hlast⟩ := isValid_mk_iff.mp ha
  obtain ⟨hm', hd', hlast'⟩ := isValid_mk_iff.mp hb
  rw [dayCount_mk d hm, dayCount_mk d' hm']
  simp only [Before] at h
  rcases h with hyear | ⟨rfl, hmonth | ⟨rfl, hday⟩⟩
  · have hnext : yearStart (y + 1) ≤ yearStart y' := yearStart_mono hyear
    have hend := monthStart_add_monthLength_le y hm
    have hbegin : 0 ≤ monthStart y' m' := monthStart_mono y' (by omega) hm'.1
    rw [yearStart_add_one] at hnext
    omega
  · have hlater : monthStart y (m + 1) ≤ monthStart y m' := monthStart_mono y (by omega) hmonth
    rw [monthStart_add_one y ⟨hm.1, by omega⟩] at hlater
    omega
  · omega

/-! ## From day counts to the calendar -/

/-- Only the last year of a cycle, and years before one that four divides and a hundred does not, have
a leap day at their end. -/
lemma isLeap_of_dayOfYear {d : Int} (hd : 0 ≤ d ∧ d < 146097)
    (h : d - daysBefore (yearOfCycle d) = 365) (cycle : Int) :
    isLeap (cycle * 400 + yearOfCycle d + 1) = true := by
  have hend : (yearOfCycle d + 1) % 4 = 0
      ∧ ((yearOfCycle d + 1) % 100 ≠ 0 ∨ yearOfCycle d = 399) := by
    rcases eq_or_ne d 146096 with rfl | hlast
    · decide
    · obtain ⟨hyear, hcentury⟩ := yearOfCycle_spec ⟨hd.1, by omega⟩
      have hplace : yearOfCycle d % 4 = 0 ∨ yearOfCycle d % 4 = 1 ∨ yearOfCycle d % 4 = 2
          ∨ yearOfCycle d % 4 = 3 := by omega
      rw [daysBefore, hcentury] at h
      rcases hplace with hy | hy | hy | hy <;> omega
  rw [isLeap_iff]
  omega

lemma day_le_monthLength (n : Int) :
    (ofDayCount n).day ≤ monthLength (ofDayCount n).year (ofDayCount n).month := by
  have hd : 0 ≤ n + 719468 - (n + 719468) / 146097 * 146097
      ∧ n + 719468 - (n + 719468) / 146097 * 146097 < 146097 := by omega
  generalize hc : (n + 719468) / 146097 = cycle at hd
  generalize hday : n + 719468 - cycle * 146097 = d at hd
  have ht := dayOfYear_bounds hd
  have hleap := fun h => isLeap_of_dayOfYear hd h cycle
  simp only [ofDayCount, hc, hday]
  generalize d - daysBefore (yearOfCycle d) = t at ht hleap ⊢
  generalize hm : monthOfYear t = m
  rw [monthOfYear] at hm
  have hmonths : m = 0 ∨ m = 1 ∨ m = 2 ∨ m = 3 ∨ m = 4 ∨ m = 5 ∨ m = 6 ∨ m = 7 ∨ m = 8 ∨ m = 9
      ∨ m = 10 ∨ m = 11 := by omega
  rcases hmonths with rfl | rfl | rfl | rfl | rfl | rfl | rfl | rfl | rfl | rfl | rfl | rfl <;>
    simp [ofMarch, monthLength, daysBeforeMonth] <;> grind

/-- The civil form of a day count is a day of the calendar. -/
lemma isValid_ofDayCount (n : Int) : (ofDayCount n).isValid = true :=
  isValid_mk_iff.mpr ⟨(ofDayCount_bounds n).1, (ofDayCount_bounds n).2.1, day_le_monthLength n⟩

/-- **Smaller day counts are earlier days.** -/
theorem ofDayCount_before_iff {m n : Int} : (ofDayCount m).Before (ofDayCount n) ↔ m < n := by
  have hlt : ∀ {k l : Int}, (ofDayCount k).Before (ofDayCount l) → k < l := by
    intro k l h
    have hcounts := h.dayCount_lt (isValid_ofDayCount k) (isValid_ofDayCount l)
    rwa [dayCount_ofDayCount, dayCount_ofDayCount] at hcounts
  refine ⟨hlt, fun h => ?_⟩
  rcases Before.trichotomy (ofDayCount m) (ofDayCount n) with hbefore | heq | hafter
  · exact hbefore
  · have hcounts := congrArg dayCount heq
    rw [dayCount_ofDayCount, dayCount_ofDayCount] at hcounts
    omega
  · have := hlt hafter
    omega

/-- **A day of the calendar** is the civil form of its day count. -/
theorem ofDayCount_dayCount {c : Civil} (h : c.isValid = true) : ofDayCount c.dayCount = c := by
  have hvalid := isValid_ofDayCount c.dayCount
  have hcount := dayCount_ofDayCount c.dayCount
  rcases Before.trichotomy (ofDayCount c.dayCount) c with hbefore | heq | hafter
  · have := hbefore.dayCount_lt hvalid h
    omega
  · exact heq
  · have := hafter.dayCount_lt h hvalid
    omega

/-- **One day more is the next day** of the calendar. -/
theorem ofDayCount_add_one (n : Int) : ofDayCount (n + 1) = (ofDayCount n).next := by
  obtain ⟨hvalid, hcount⟩ := next_spec (isValid_ofDayCount n)
  rw [dayCount_ofDayCount] at hcount
  rw [← hcount, ofDayCount_dayCount hvalid]

end Civil

end FleetLedger
