import FleetLedger.Model.Query
import FleetLedger.Proofs.DayRanges
import FleetLedger.Proofs.Expiry

/-!
# The calendar in words

Dates and instants are plain integers in this library, so no sum or product of them is ever too large.
A machine calculates in words of 64 bits, keeps lengths of time as seconds and nanoseconds, and takes
an instant apart into its day and the time of that day.  Where a step leaves its word, or leads out of
the calendar where nobody has asked whether it does, there is no result, and the machine breaks down.

Here the calculations are done once more as a machine does them, with `none` for a breakdown.  They come
to what the library says, near both ends of the calendar, too (`Date.throughInWords?_eq`,
`cutoffInWords?_eq`), with one exception: the last day of the calendar has no next day, and a query that
ends on it asks for the start of that day (`Query.filterInWords?_eq`).
-/

namespace FleetLedger

/-! ## Words -/

namespace Word

/-- A number with a sign, in 64 bits. -/
def signed? (n : Int) : Option Int :=
  if -9223372036854775808 ≤ n ∧ n ≤ 9223372036854775807 then some n else none

/-- A number without a sign, in 64 bits. -/
def unsigned? (n : Int) : Option Nat :=
  if 0 ≤ n ∧ n ≤ 18446744073709551615 then some n.toNat else none

/-- A number with a sign, in half a word. -/
def short? (n : Int) : Option Int :=
  if -2147483648 ≤ n ∧ n ≤ 2147483647 then some n else none

/-- A length of time of whole seconds, whose milliseconds have to fit a word. -/
def span? (seconds : Int) : Option Int :=
  if -9223372036854775 ≤ seconds ∧ seconds ≤ 9223372036854775 then some seconds else none

/-- So many days as a length of time. -/
def days? (n : Int) : Option Int := do span? (← signed? (n * 86400))

lemma signed?_eq {n : Int} (h : -9223372036854775808 ≤ n ∧ n ≤ 9223372036854775807) :
    signed? n = some n := if_pos h

lemma short?_eq {n : Int} (h : -2147483648 ≤ n ∧ n ≤ 2147483647) : short? n = some n := if_pos h

/-- The calendar has far fewer days than a length of time can have. -/
lemma days?_eq {n : Int} (h : -200000000 ≤ n ∧ n ≤ 200000000) : days? n = some (n * 86400) := by
  have hword : signed? (n * 86400) = some (n * 86400) := signed?_eq (by omega)
  have hspan : span? (n * 86400) = some (n * 86400) := if_pos (by omega)
  rw [days?, hword]
  exact hspan

end Word

open Word

/-- Every time is one of the calendar. -/
lemma Timestamp.ofMillis?_millis (t : Timestamp) : ofMillis? t.millis = some t :=
  dif_pos ⟨t.first_le, t.le_last⟩

/-! ## Dates -/

namespace Date

/-- The date a length of time later, or earlier. -/
def plus? (d : Date) (span : Int) : Option Date := do
  let days ← short? (span / 86400)
  ofCount? (d.count + days)

/-- The date so many days later. -/
def later? (d : Date) (n : Int) : Option Date := do d.plus? (← days? n)

/-- The length of time from one date to another. -/
def since? (d earlier : Date) : Option Int := days? (d.count - earlier.count)

/-- Every day of a range: the length of the range, and then each day by its distance from the first. -/
def throughInWords? (first last : Date) : Option (Outcome (List Date)) :=
  if last.count < first.count then some (.error (.invertedDays first last))
  else do
    let span ← last.since? first
    let days ← (List.range ((span / 86400).toNat + 1)).mapM fun (i : Nat) => first.later? i
    return .ok days

/-- The instant at a time of a day. -/
def at? (d : Date) (second nanos : Int) : Option Timestamp := do
  let start ← signed? (d.count * 86400)
  let seconds ← signed? (start + second)
  let millis ← signed? (seconds * 1000)
  Timestamp.ofMillis? (← signed? (millis + nanos / 1000000))

/-- Counting days on does not overflow for any distance within the calendar. -/
lemma later?_eq (d : Date) {n : Int} (h : -200000000 ≤ n ∧ n ≤ 200000000) :
    d.later? n = ofCount? (d.count + n) := by
  have hdays : n * 86400 / 86400 = n := by omega
  have hshort : short? n = some n := short?_eq (by omega)
  rw [later?, days?_eq h, Option.bind_eq_bind, Option.bind_some, plus?, hdays, hshort]
  rfl

/-- Within the calendar every day has those that are later. -/
lemma mapM_later? {first : Date} {offsets : List Nat}
    (h : ∀ i ∈ offsets, first.count + i ≤ lastCount) :
    (offsets.mapM fun (i : Nat) => first.later? i)
      = some (offsets.filterMap fun (i : Nat) => ofCount? (first.count + i)) := by
  have hfirst := first.first_le
  induction offsets with
  | nil => rfl
  | cons i rest ih =>
      have hi := h i List.mem_cons_self
      simp only [lastCount] at hi
      have hin : -96465292 ≤ first.count + i ∧ first.count + i ≤ 95026236 := by omega
      have hdate : ofCount? (first.count + i) = some ⟨first.count + i, hin.1, hin.2⟩ := dif_pos hin
      have hrest := ih fun j hj => h j (List.mem_cons_of_mem i hj)
      rw [List.mapM_cons, later?_eq first (by omega), hrest, List.filterMap_cons, hdate]
      rfl

/-- **No range breaks down**, be it as long as the calendar. -/
theorem throughInWords?_eq (first last : Date) :
    throughInWords? first last = some (through first last) := by
  have hfirst := first.first_le
  have hlast := last.le_last
  rw [throughInWords?, through]
  split
  case isTrue => rfl
  case isFalse hle =>
    have hspan : last.since? first = some ((last.count - first.count) * 86400) :=
      days?_eq (by omega)
    have hlength : (last.count - first.count) * 86400 / 86400 = last.count - first.count := by omega
    have hoffsets : ∀ i ∈ List.range ((last.count - first.count).toNat + 1),
        first.count + i ≤ lastCount := by
      intro i hi
      rw [List.mem_range] at hi
      simp only [lastCount]
      omega
    rw [hspan, Option.bind_eq_bind, Option.bind_some, hlength, mapM_later? hoffsets]
    rfl

/-- A time of a day is an instant. -/
lemma at?_eq (d : Date) {second nanos : Int} (hsecond : 0 ≤ second ∧ second < 86400)
    (hnanos : 0 ≤ nanos ∧ nanos < 1000000000) :
    d.at? second nanos
      = Timestamp.ofMillis? ((d.count * 86400 + second) * 1000 + nanos / 1000000) := by
  have hfirst := d.first_le
  have hlast := d.le_last
  have hstart : signed? (d.count * 86400) = some (d.count * 86400) := signed?_eq (by omega)
  have hseconds : signed? (d.count * 86400 + second) = some (d.count * 86400 + second) :=
    signed?_eq (by omega)
  have hmillis : signed? ((d.count * 86400 + second) * 1000)
      = some ((d.count * 86400 + second) * 1000) := signed?_eq (by omega)
  have hsum : signed? ((d.count * 86400 + second) * 1000 + nanos / 1000000)
      = some ((d.count * 86400 + second) * 1000 + nanos / 1000000) := signed?_eq (by omega)
  simp only [at?, hstart, hseconds, hmillis, hsum, Option.bind_eq_bind, Option.bind_some]

lemma at?_start (d : Date) : d.at? 0 0 = some d.start := by
  have hfirst := d.first_le
  have hlast := d.le_last
  have hmillis : (d.count * 86400 + 0) * 1000 + 0 / 1000000 = d.start.millis := by
    simp only [start]
    omega
  rw [d.at?_eq (by omega) (by omega), hmillis]
  exact Timestamp.ofMillis?_millis d.start

end Date

/-! ## Queries -/

/-- The first instant after a date. -/
def Date.nextStartInWords? (d : Date) : Option Timestamp := do (← d.later? 1).at? 0 0

/-- The start of the next day does not overflow before the calendar ends. -/
lemma Date.nextStartInWords?_eq (d : Date) : d.nextStartInWords? = d.nextStart? := by
  have hlater : d.later? 1 = d.next? := d.later?_eq (by omega)
  rw [nextStartInWords?, hlater, nextStart?]
  cases d.next? with
  | none => rfl
  | some next => exact next.at?_start

/-- The filter of a query, for which the start of its first day is needed, and the start of the day
after its last one. -/
def Query.filterInWords? (q : Query) : Option Filter := do
  let _ ← q.firstDay.mapM fun d => d.at? 0 0
  let ended ← q.lastDay.mapM Date.nextStartInWords?
  return allOf (q.clauses ended)

/-- **Only the end of the calendar breaks a query down.** -/
theorem Query.filterInWords?_eq (q : Query) : q.filterInWords? = q.filter? := by
  have hfirst : q.firstDay.mapM (fun d => d.at? 0 0) = some (q.firstDay.map Date.start) := by
    cases q.firstDay with
    | none => rfl
    | some d => rw [Option.mapM_some, d.at?_start, Option.map_some, Option.map_eq_map, Option.map_some]
  rw [filterInWords?, hfirst, filter?]
  cases q.lastDay with
  | none => rfl
  | some d =>
      simp only [Option.mapM_some, d.nextStartInWords?_eq]
      cases d.nextStart? <;> rfl

/-! ## Counting back -/

/-- The date to which so many seconds lead that were carried over, if it is a date at all. -/
def Date.carried? (d : Date) (seconds : Int) : Option Date := do
  let span ← span? (-seconds)
  let days ← short? (span / 86400)
  ofCount? (d.count - days)

/-- Where a length of time has no word, it leads out of the calendar. -/
lemma Date.carried?_days (d : Date) (n : Int) : d.carried? (n * 86400) = ofCount? (d.count + n) := by
  have hfirst := d.first_le
  have hlast := d.le_last
  have hdays : -(n * 86400) / 86400 = -n := by omega
  have hsum : d.count - -n = d.count + n := by omega
  by_cases hfar : -200000000 ≤ n ∧ n ≤ 200000000
  · have hspan : span? (-(n * 86400)) = some (-(n * 86400)) := if_pos (by omega)
    have hshort : short? (-n) = some (-n) := short?_eq (by omega)
    simp only [carried?, hspan, Option.bind_eq_bind, Option.bind_some, hdays, hshort, hsum]
  · have hnone : ofCount? (d.count + n) = none := dif_neg (by omega)
    rw [hnone, carried?, span?]
    split
    case isTrue =>
      simp only [Option.bind_eq_bind, Option.bind_some, hdays, short?]
      split
      case isTrue => rwa [Option.bind_some, hsum]
      case isFalse => rfl
    case isFalse => rfl

namespace Reading

/-- The second of the day. -/
def second (r : Reading) : Int := r.instant.millis / 1000 % 86400

/-- The nanoseconds since the last second. -/
def fraction (r : Reading) : Int := r.instant.millis % 1000 * 1000000 + r.nanos

/-- The instant that a clock shows. -/
def instantInWords? (r : Reading) : Option Timestamp := r.instant.day.at? r.second r.fraction

/-- The instant a window ago, none where its day is no date.  The nanoseconds are subtracted, which may
borrow a second, then the seconds, which may carry over to another day. -/
def backInWords? (r : Reading) (w : Ledger.Window) : Option (Option Timestamp) := do
  let fraction ← short? (r.fraction - w.nanos)
  let borrowed : Int := if fraction < 0 then 1 else 0
  let difference ← signed? (r.second - w.seconds)
  let second ← signed? (difference - borrowed)
  let carried ← signed? (second - second % 86400)
  match r.instant.day.carried? carried with
  | none => return none
  | some d => some <$> d.at? (second % 86400) (fraction + borrowed * 1000000000)

variable (r : Reading)

lemma second_bounds : 0 ≤ r.second ∧ r.second < 86400 := by
  simp only [second]
  omega

lemma fraction_bounds : 0 ≤ r.fraction ∧ r.fraction < 1000000000 := by
  have hnanos := r.nanos_lt
  simp only [fraction]
  omega

/-- The day and the time of the day make up the reading. -/
lemma count_eq : r.count = (r.instant.day.count * 86400 + r.second) * 1000000000 + r.fraction := by
  have hday : r.instant.day.count = r.instant.millis / 86400000 := rfl
  simp only [count, hday, second, fraction]
  omega

/-- What a clock shows is computed without overflow. -/
lemma instantInWords?_eq : r.instantInWords? = some r.instant := by
  have hnanos := r.nanos_lt
  have hcount := r.count_eq
  have hmillis : (r.instant.day.count * 86400 + r.second) * 1000 + r.fraction / 1000000
      = r.instant.millis := by
    simp only [count] at hcount
    omega
  rw [instantInWords?, Date.at?_eq _ r.second_bounds r.fraction_bounds, hmillis]
  exact r.instant.ofMillis?_millis

/-- **Subtracting part by part** leads to the same instant as subtracting nanoseconds, and out of the
calendar where these do. -/
theorem backInWords?_eq {w : Ledger.Window} (hnanos : w.nanos < 1000000000)
    (hseconds : w.seconds ≤ 9223372036854775) :
    r.backInWords? w = some (r.back? w.length) := by
  obtain ⟨hsecond, hsecond'⟩ := r.second_bounds
  obtain ⟨hfraction, hfraction'⟩ := r.fraction_bounds
  have hshort : short? (r.fraction - w.nanos) = some (r.fraction - w.nanos) := short?_eq (by omega)
  obtain ⟨borrowed, hborrowed, hrest, hrest'⟩ : ∃ borrowed : Int,
      (if r.fraction - w.nanos < 0 then 1 else 0) = borrowed
        ∧ 0 ≤ r.fraction - w.nanos + borrowed * 1000000000
        ∧ r.fraction - w.nanos + borrowed * 1000000000 < 1000000000 := by
    split
    case isTrue => exact ⟨1, rfl, by omega, by omega⟩
    case isFalse => exact ⟨0, rfl, by omega, by omega⟩
  generalize hfraction : r.fraction - w.nanos + borrowed * 1000000000 = fraction at hrest hrest'
  generalize hsecond : r.second - w.seconds - borrowed = second
  have hdifference : signed? (r.second - w.seconds) = some (r.second - w.seconds) :=
    signed?_eq (by omega)
  have hword : signed? second = some second := signed?_eq (by omega)
  have hcarried : signed? (second - second % 86400) = some (second / 86400 * 86400) := by
    have hdays : second - second % 86400 = second / 86400 * 86400 := by omega
    rw [hdays]
    exact signed?_eq (by omega)
  -- the moment a window ago, by its day and the time of that day
  have hstart : (r.count - w.length) / 1000000
      = ((r.instant.day.count + second / 86400) * 86400 + second % 86400) * 1000
        + fraction / 1000000 := by
    rw [r.count_eq, Ledger.Window.length]
    omega
  simp only [backInWords?, back?, hshort, hborrowed, hdifference, hsecond, hword, hcarried,
    Date.carried?_days, hfraction, hstart, Option.bind_eq_bind, Option.bind_some]
  cases hdate : Date.ofCount? (r.instant.day.count + second / 86400) with
  | none =>
      have hout : Timestamp.ofMillis? (((r.instant.day.count + second / 86400) * 86400
          + second % 86400) * 1000 + fraction / 1000000) = none := by
        rw [Date.ofCount?, dite_eq_right_iff] at hdate
        refine dif_neg fun hin => ?_
        exact Option.some_ne_none _ (hdate (by omega))
      rw [hout]
      rfl
  | some d =>
      have hcount := Date.ofCount?_eq_some_iff.mp hdate
      have hfirst := d.first_le
      have hlast := d.le_last
      have htime : 0 ≤ second % 86400 ∧ second % 86400 < 86400 := by omega
      have hmillis : -8334601228800000
            ≤ (d.count * 86400 + second % 86400) * 1000 + fraction / 1000000
          ∧ (d.count * 86400 + second % 86400) * 1000 + fraction / 1000000
            ≤ 8210266876799999 := by omega
      simp only [d.at?_eq htime ⟨hrest, hrest'⟩, ← hcount, Timestamp.ofMillis?, dif_pos hmillis]
      rfl

end Reading

/-- The instant that is a window ago; how long the window is was looked at before. -/
def cutoffInWords? (now : Reading) (w : Ledger.Window) : Option (Outcome Timestamp) :=
  match w.span with
  | .error e => some (.error e)
  | .ok _ => do
    match ← now.backInWords? w with
    | some t => return .ok t
    | none => return .error (Ledger.windowTooEarly w)

/-- **No window breaks down**, whatever a clock shows. -/
theorem cutoffInWords?_eq (now : Reading) {w : Ledger.Window} (hnanos : w.nanos < 1000000000) :
    cutoffInWords? now w = some (Ledger.cutoff now w) := by
  cases hspan : w.span with
  | error e =>
      rw [cutoffInWords?, Ledger.cutoff, hspan]
      rfl
  | ok length =>
      have hseconds : w.seconds ≤ 9223372036854775 ∧ length = w.length := by
        rw [Ledger.Window.span] at hspan
        split at hspan
        case isTrue => cases hspan
        case isFalse hlong =>
          cases hspan
          simp only [Ledger.Window.longest] at hlong
          exact ⟨by omega, rfl⟩
      obtain ⟨hseconds, rfl⟩ := hseconds
      simp only [cutoffInWords?, Ledger.cutoff, hspan, now.backInWords?_eq hnanos hseconds,
        Option.bind_some, bind, Except.bind]
      cases now.back? w.length <;> rfl

end FleetLedger
