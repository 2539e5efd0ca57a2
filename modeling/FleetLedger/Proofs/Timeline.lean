import FleetLedger.Proofs.DateOrder

/-!
# Days cut the timeline

Counters go by the key of a day, and lists by the instants at which days start.  Here both are compared
for every instant there is, with the nanoseconds that a clock shows: an instant has the key of just that
day which has started by then and whose next day has not (**`day_keys_cut_timeline`**).

Days start at whole milliseconds, so the nanoseconds make no difference (`Reading.start_le_iff`,
`Reading.lt_nextStart_iff`), and in milliseconds a day is what a division by its length gives.  What is
left to show is which dates there are: all days of the calendar from the first of the year -262143 to the
last of the year 262142 (`Date.exists_civil_iff`).
-/

namespace FleetLedger

/-! ## Which dates there are -/

namespace Date

/-- **Dates are the days of the calendar** in the years that it reaches. -/
theorem exists_civil_iff {c : Civil} :
    (∃ d : Date, d.civil = c) ↔ c.isValid = true ∧ -262143 ≤ c.year ∧ c.year ≤ 262142 := by
  have hfirst : Civil.ofDayCount (-96465292) = ⟨-262143, 1, 1⟩ := by decide
  have hlast : Civil.ofDayCount 95026236 = ⟨262142, 12, 31⟩ := by decide
  constructor
  · rintro ⟨d, rfl⟩
    refine ⟨Civil.isValid_ofDayCount d.count, ?_, ?_⟩
    · by_contra hyear
      have hbefore : d.civil.Before (Civil.ofDayCount (-96465292)) :=
        hfirst ▸ Or.inl (Int.not_le.mp hyear)
      have := Civil.ofDayCount_before_iff.mp hbefore
      have := d.first_le
      omega
    · by_contra hyear
      have hbefore : (Civil.ofDayCount 95026236).Before d.civil :=
        hlast ▸ Or.inl (Int.not_le.mp hyear)
      have := Civil.ofDayCount_before_iff.mp hbefore
      have := d.le_last
      omega
  · rintro ⟨hvalid, hyear, hyear'⟩
    have hcivil := Civil.ofDayCount_dayCount hvalid
    obtain ⟨y, m, d⟩ := c
    obtain ⟨hmonth, hday, hlength⟩ := Civil.isValid_mk_iff.mp hvalid
    have hend := Civil.monthLength_bounds y m
    have hge : ¬ (Civil.mk y m d).dayCount < -96465292 := by
      rw [← Civil.ofDayCount_before_iff, hcivil, hfirst]
      simp only [Civil.Before] at hyear ⊢
      omega
    have hle : ¬ 95026236 < (Civil.mk y m d).dayCount := by
      rw [← Civil.ofDayCount_before_iff, hcivil, hlast]
      simp only [Civil.Before] at hyear' ⊢
      omega
    exact ⟨⟨(Civil.mk y m d).dayCount, by omega, by omega⟩, hcivil⟩

/-! ## The day after -/

/-- The next start is that of the day with the next number. -/
lemma nextStart?_eq_some_iff {d : Date} {next : Timestamp} :
    d.nextStart? = some next ↔ ∃ d' : Date, d'.count = d.count + 1 ∧ d'.start = next := by
  simp only [nextStart?, next?, Option.map_eq_some_iff, ofCount?_eq_some_iff]

/-- Only on the last day of the calendar no next day starts. -/
lemma nextStart?_eq_none_iff {d : Date} : d.nextStart? = none ↔ d.count = lastCount := by
  have hfirst := d.first_le
  have hlast := d.le_last
  simp only [nextStart?, next?, ofCount?, lastCount, Option.map_eq_none_iff, dite_eq_right_iff,
    reduceCtorEq, imp_false, not_and]
  omega

lemma count_eq_lastCount_iff {d : Date} : d.count = lastCount ↔ d.civil = ⟨262142, 12, 31⟩ := by
  have hlast : Civil.ofDayCount lastCount = ⟨262142, 12, 31⟩ := by decide
  refine ⟨fun h => ?_, fun h => ?_⟩
  · rw [civil, h, hlast]
  · rw [← Civil.dayCount_ofDayCount d.count, ← Civil.dayCount_ofDayCount lastCount, hlast]
    exact congrArg Civil.dayCount h

end Date

/-! ## Instants and the days around them -/

/-- An instant is on a day or later if the start of the day is not after it. -/
lemma start_le_iff (d : Date) (t : Timestamp) :
    d.start.millis ≤ t.millis ↔ d.count ≤ t.day.count := by
  simp only [Date.start, Timestamp.day]
  omega

/-- An instant is on a day or earlier if it is before the next day starts. -/
lemma lt_nextStart_iff {d : Date} {next : Timestamp} (h : d.nextStart? = some next)
    (t : Timestamp) : t.millis < next.millis ↔ t.day.count ≤ d.count := by
  obtain ⟨d', hcount, rfl⟩ := Date.nextStart?_eq_some_iff.mp h
  simp only [Date.start, Timestamp.day, hcount]
  omega

namespace Reading

variable (r : Reading)

/-- A day has started once its number is reached. -/
lemma start_le_iff (d : Date) :
    d.start.reading.count ≤ r.count ↔ d.count ≤ r.instant.day.count := by
  have hnanos := r.nanos_lt
  rw [← FleetLedger.start_le_iff]
  simp only [count, Timestamp.reading]
  omega

/-- The next day has not started while the number of the day is not passed. -/
lemma lt_nextStart_iff {d : Date} {next : Timestamp} (h : d.nextStart? = some next) :
    r.count < next.reading.count ↔ r.instant.day.count ≤ d.count := by
  have hnanos := r.nanos_lt
  rw [← FleetLedger.lt_nextStart_iff h]
  simp only [count, Timestamp.reading]
  omega

end Reading

namespace Date

/-- A day goes from its start to the start of the next day, or to the end of the calendar. -/
def Covers (d : Date) (r : Reading) : Prop :=
  d.start.reading.count ≤ r.count
    ∧ ∀ next, d.nextStart? = some next → r.count < next.reading.count

/-- **An instant lies in its own day** and in no other. -/
theorem covers_iff {d : Date} {r : Reading} : d.Covers r ↔ r.instant.day = d := by
  have hday := r.instant.day.le_last
  rw [Covers, r.start_le_iff, ← count_inj]
  constructor
  · rintro ⟨hle, hnext⟩
    have hge : r.instant.day.count ≤ d.count := by
      cases hstart : d.nextStart? with
      | none =>
          rw [nextStart?_eq_none_iff.mp hstart]
          exact hday
      | some next => exact (r.lt_nextStart_iff hstart).mp (hnext next hstart)
    omega
  · intro hcount
    exact ⟨Int.le_of_eq hcount.symm,
      fun next h => (r.lt_nextStart_iff h).mpr (Int.le_of_eq hcount)⟩

/-- Days start in the order of the calendar. -/
lemma start_lt_start_iff {d d' : Date} :
    d.start.reading.count < d'.start.reading.count ↔ d.civil.Before d'.civil := by
  rw [civil_before_iff]
  simp only [Reading.count, Timestamp.reading, start]
  omega

end Date

/-- **Keys and bounds of days cut the timeline alike.**  Dates are the days of the calendar from the
first of the year -262143 to the last of the year 262142.  Any instant has the key of just that day which
has started by then and whose next day has not; the last day of the calendar alone has no next one.  So
each instant belongs to one day and no more.  Days start in the order of the calendar, each next day with
the civil date that follows. -/
theorem day_keys_cut_timeline :
    (∀ c : Civil,
      (∃ d : Date, d.civil = c) ↔ c.isValid = true ∧ -262143 ≤ c.year ∧ c.year ≤ 262142)
      ∧ (∀ (r : Reading) (d : Date), r.instant.dayKey = d.text ↔ d.Covers r)
      ∧ (∀ d : Date, d.nextStart? = none ↔ d.civil = ⟨262142, 12, 31⟩)
      ∧ (∀ r : Reading, ∃ d : Date, d.Covers r ∧ ∀ d', d'.Covers r → d' = d)
      ∧ (∀ d d' : Date,
        d.start.reading.count < d'.start.reading.count ↔ d.civil.Before d'.civil)
      ∧ ∀ (d : Date) (next : Timestamp), d.nextStart? = some next →
        ∃ d' : Date, next = d'.start ∧ d'.civil = d.civil.next := by
  refine ⟨?_, ?_, ?_, ?_, ?_, ?_⟩
  · intro c
    exact Date.exists_civil_iff
  · intro r d
    rw [Timestamp.dayKey_eq_text_iff, Date.covers_iff]
  · intro d
    rw [Date.nextStart?_eq_none_iff, Date.count_eq_lastCount_iff]
  · intro r
    refine ⟨r.instant.day, Date.covers_iff.mpr rfl, fun d' h => ?_⟩
    exact (Date.covers_iff.mp h).symm
  · intro d d'
    exact Date.start_lt_start_iff
  · intro d next h
    obtain ⟨d', hcount, hstart⟩ := Date.nextStart?_eq_some_iff.mp h
    exact ⟨d', hstart.symm, Date.civil_of_count_succ hcount⟩

end FleetLedger
