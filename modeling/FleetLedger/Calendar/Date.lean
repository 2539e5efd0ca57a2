/-!
# Calendar dates

A date is a day of the proleptic Gregorian calendar, between the first day of the year -262143 and
the last day of the year 262142.  It is held as a day count, so that the order of dates, the number
of days between them and the day after one are plain arithmetic on integers.  The civil form (year,
month, day) is computed: years are counted from 1 March, so that the leap day is the last day of its
year, and in cycles of 400 years, after which the calendar repeats.

`Civil.dayCount_ofDayCount` says that the civil form loses nothing.
-/

namespace FleetLedger

/-- Year, month and day of the month, as a calendar prints them. -/
structure Civil where
  year : Int
  month : Int
  day : Int
  deriving Repr, DecidableEq

namespace Civil

/-- A year is a leap year when four divides it, unless a hundred does and four hundred does not. -/
def isLeap (year : Int) : Bool :=
  year % 4 == 0 && (year % 100 != 0 || year % 400 == 0)

/-- The number of days of a month. -/
def monthLength (year month : Int) : Int :=
  if month == 2 then (if isLeap year then 29 else 28)
  else if month == 4 || month == 6 || month == 9 || month == 11 then 30
  else 31

/-- The month exists, and the day exists in it. -/
def isValid (c : Civil) : Bool :=
  1 ≤ c.month && c.month ≤ 12 && 1 ≤ c.day && c.day ≤ monthLength c.year c.month

/-- The days of a cycle before its year `y`: every fourth year has a leap day at its end, every
hundredth has not. -/
def daysBefore (y : Int) : Int := y * 365 + y / 4 - y / 100

/-- The days of a year before its month `m`, both counted from March. -/
def daysBeforeMonth (m : Int) : Int := (153 * m + 2) / 5

/-- Days from 1 January 1970, the day with count 0. -/
def dayCount (c : Civil) : Int :=
  let year := if c.month ≤ 2 then c.year - 1 else c.year
  let cycle := year / 400
  cycle * 146097 + daysBefore (year - cycle * 400)
    + daysBeforeMonth ((c.month + 9) % 12) + c.day - 1 - 719468

/-- The civil form of a day whose year and month are counted from March. -/
def ofMarch (year month day : Int) : Civil :=
  if month < 10 then ⟨year, month + 3, day⟩ else ⟨year + 1, month - 9, day⟩

/-- The year of a cycle in which its day `d` lies. -/
def yearOfCycle (d : Int) : Int := (d - d / 1460 + d / 36524 - d / 146096) / 365

/-- The month, counted from March, in which the day `d` of a year lies. -/
def monthOfYear (d : Int) : Int := (5 * d + 2) / 153

/-- The civil form of the day with count `n`. -/
def ofDayCount (n : Int) : Civil :=
  let cycle := (n + 719468) / 146097
  let dayOfCycle := n + 719468 - cycle * 146097
  let year := yearOfCycle dayOfCycle
  let dayOfYear := dayOfCycle - daysBefore year
  let month := monthOfYear dayOfYear
  ofMarch (cycle * 400 + year) month (dayOfYear - daysBeforeMonth month + 1)

/-- The day count of a day given from March. -/
theorem dayCount_ofMarch {cycle year month day : Int} (hy : 0 ≤ year ∧ year < 400)
    (hm : 0 ≤ month ∧ month < 12) :
    (ofMarch (cycle * 400 + year) month day).dayCount
      = cycle * 146097 + daysBefore year + daysBeforeMonth month + day - 1 - 719468 := by
  have hcycle : (cycle * 400 + year) / 400 = cycle := by omega
  by_cases h : month < 10
  · have h1 : ¬ month + 3 ≤ 2 := by omega
    have h2 : (month + 3 + 9) % 12 = month := by omega
    simp only [ofMarch, h, if_true, dayCount, h1, if_false, h2, hcycle]
    congr 6
    omega
  · have h1 : month - 9 ≤ 2 := by omega
    have h2 : (month - 9 + 9) % 12 = month := by omega
    have h3 : cycle * 400 + year + 1 - 1 = cycle * 400 + year := by omega
    simp only [ofMarch, h, if_false, dayCount, h1, if_true, h2, h3, hcycle]
    congr 6
    omega

/-- Within a century the leap days fall every four years, so each century of a cycle is settled by
arithmetic on its own; the last day of the cycle belongs to none of them. -/
theorem yearOfCycle_spec {d : Int} (hd : 0 ≤ d ∧ d < 146096) :
    yearOfCycle d = (d - d / 1460 + d / 36524) / 365 ∧ yearOfCycle d / 100 = d / 36524 := by
  have hlast : d / 146096 = 0 := by omega
  have hyear : yearOfCycle d = (d - d / 1460 + d / 36524) / 365 := by
    rw [yearOfCycle, hlast, Int.sub_zero]
  have hcentury : d / 36524 = 0 ∨ d / 36524 = 1 ∨ d / 36524 = 2 ∨ d / 36524 = 3 := by omega
  refine ⟨hyear, ?_⟩
  rw [hyear]
  rcases hcentury with h | h | h | h <;> omega

/-- The day of the year that remains is a day of a year. -/
theorem dayOfYear_bounds {d : Int} (hd : 0 ≤ d ∧ d < 146097) :
    0 ≤ d - daysBefore (yearOfCycle d) ∧ d - daysBefore (yearOfCycle d) ≤ 365 := by
  by_cases hlast : d = 146096
  · subst hlast
    decide
  · obtain ⟨hyear, hcentury⟩ := yearOfCycle_spec ⟨hd.1, by omega⟩
    rw [daysBefore, hcentury]
    omega

/-- **The civil form loses nothing**: the day count comes back from it. -/
theorem dayCount_ofDayCount (n : Int) : (ofDayCount n).dayCount = n := by
  have hd : 0 ≤ n + 719468 - (n + 719468) / 146097 * 146097
      ∧ n + 719468 - (n + 719468) / 146097 * 146097 < 146097 := by omega
  generalize hc : (n + 719468) / 146097 = cycle at hd
  generalize hday : n + 719468 - cycle * 146097 = d at hd
  have hy : 0 ≤ yearOfCycle d ∧ yearOfCycle d < 400 := by unfold yearOfCycle; omega
  have ht := dayOfYear_bounds hd
  have hm : 0 ≤ monthOfYear (d - daysBefore (yearOfCycle d))
      ∧ monthOfYear (d - daysBefore (yearOfCycle d)) < 12 := by unfold monthOfYear; omega
  simp only [ofDayCount, hc, hday, dayCount_ofMarch hy hm]
  omega

end Civil

/-- A day between 1 January -262143 and 31 December 262142, by its distance from 1 January 1970. -/
structure Date where
  count : Int
  first_le : -96465292 ≤ count := by omega
  le_last : count ≤ 95026236 := by omega
  deriving DecidableEq

namespace Date

/-- The day count of the earliest date. -/
def firstCount : Int := -96465292

/-- The day count of the latest date. -/
def lastCount : Int := 95026236

/-- The date with a given day count, if there is one. -/
def ofCount? (n : Int) : Option Date :=
  if h : -96465292 ≤ n ∧ n ≤ 95026236 then some ⟨n, h.1, h.2⟩ else none

/-- The date with a given civil form, if the calendar has that day and reaches it. -/
def ofCivil? (c : Civil) : Option Date :=
  if c.isValid then ofCount? c.dayCount else none

/-- Year, month and day of a date. -/
def civil (d : Date) : Civil := Civil.ofDayCount d.count

/-- The day after, which the last date has not. -/
def next? (d : Date) : Option Date := ofCount? (d.count + 1)

/-- A number in at least `width` decimal digits. -/
def padded (width n : Nat) : String :=
  let digits := Nat.toDigits 10 n
  String.ofList (List.replicate (width - digits.length) '0' ++ digits)

/-- A year in four digits; one before the year 0 has a minus sign, one of more than four digits a
plus sign. -/
def yearText (year : Int) : String :=
  if year < 0 then "-" ++ padded 4 year.natAbs
  else if 9999 < year then "+" ++ padded 5 year.natAbs
  else padded 4 year.natAbs

/-- A date as year, month and day with hyphens between: the key of a day's counters. -/
def text (d : Date) : String :=
  let c := d.civil
  yearText c.year ++ "-" ++ padded 2 c.month.natAbs ++ "-" ++ padded 2 c.day.natAbs

/-- All dates from `first` on, `n` of them, as far as the calendar goes. -/
def upFrom (first : Date) (n : Nat) : List Date :=
  (List.range n).filterMap fun (i : Nat) => ofCount? (first.count + i)

end Date

end FleetLedger
