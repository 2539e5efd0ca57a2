import FleetLedger.Proofs.Rows

/-!
# Which executions are due

A sweep compares the milliseconds of executions with two bounds that it takes from a clock, which
shows nanoseconds: the last instant, and the instant that is a window ago, both rounded down.  What
it means is said here without rounding: `Execution.isDue` compares nanoseconds.

Rounding makes no difference because instants are whole milliseconds: `holds_dueFilter`.  A window
can be counted back unless that leads to before the earliest instant (`Window.tooLong`).  There are
two ways to find out, one for windows whose milliseconds 63 bits cannot hold and one for all others,
and `cutoff_cases` brings them together.
-/

namespace FleetLedger

open Ledger

/-- The earliest instant of the calendar. -/
def Timestamp.first : Timestamp := { millis := -8334601228800000 }

/-- Instants are stored as integers of the signed range. -/
lemma Timestamp.millis_bounds (t : Timestamp) :
    Json.leastInt ≤ t.millis ∧ t.millis ≤ Json.greatestSigned := by
  have hfirst := t.first_le
  have hlast := t.le_last
  simp only [Json.leastInt, Json.greatestSigned]
  omega

namespace Ledger.Window

/-- How long a window is, in nanoseconds. -/
def length (w : Window) : Nat := w.seconds * 1000000000 + w.nanos

/-- The moment that is a window ago, in nanoseconds since the start of 1970. -/
def start (w : Window) (clock : Reading) : Int := clock.count - w.length

/-- The window reaches back before the earliest instant. -/
def tooLong (w : Window) (clock : Reading) : Bool :=
  w.start clock < Timestamp.first.reading.count

end Ledger.Window

/-- **An execution is due**: the time set for it has come, or none is set and it ended at least a
window ago. -/
def Execution.isDue (clock : Reading) (w : Window) (e : Execution) : Bool :=
  match e.cleanup with
  | some t => t.reading.count ≤ clock.count
  | none => e.endTime.reading.count ≤ w.start clock

/-! ## Counting back -/

@[simp] lemma Timestamp.count_reading (t : Timestamp) : t.reading.count = t.millis * 1000000 := by
  simp [Timestamp.reading, Reading.count]

/-- A window is too long if it begins before the earliest time. -/
lemma Ledger.Window.tooLong_iff {w : Window} {clock : Reading} :
    w.tooLong clock = true ↔ w.start clock < -8334601228800000000000 := by
  simp [tooLong, Timestamp.first]

/-- A window that can be counted back leads to an instant, as clocks show no later ones. -/
lemma Ledger.Window.start_bounds {w : Window} {clock : Reading} (h : w.tooLong clock = false) :
    -8334601228800000 ≤ w.start clock / 1000000 ∧ w.start clock / 1000000 ≤ 8210266876799999 := by
  have hlast := clock.instant.le_last
  have hnanos := clock.nanos_lt
  have hstart : ¬ w.start clock < -8334601228800000000000 := fun hlt => by
    rw [tooLong_iff.mpr hlt] at h
    exact Bool.noConfusion h
  simp only [start, Reading.count] at hstart ⊢
  omega

/-- The span of a window is its length, unless 63 bits cannot hold that in milliseconds, which is
longer than the calendar. -/
lemma span_cases (w : Window) : w.span = .ok w.length
    ∨ w.span = .error windowTooLong ∧ ∀ clock, w.tooLong clock = true := by
  simp only [Window.span]
  split
  case isTrue hlong =>
    refine Or.inr ⟨rfl, fun clock => Window.tooLong_iff.mpr ?_⟩
    have hlast := clock.instant.le_last
    have hnanos := clock.nanos_lt
    simp only [Window.longest] at hlong
    simp only [Window.start, Window.length, Reading.count]
    omega
  case isFalse => exact Or.inl rfl

/-- **The cutoff** is the start of the window to the millisecond, and a window that is too long has
none. -/
theorem cutoff_cases (clock : Reading) (w : Window) :
    (w.tooLong clock = false ∧ ∃ t, cutoff clock w = .ok t ∧ t.millis = w.start clock / 1000000)
      ∨ w.tooLong clock = true ∧ ∃ reason, cutoff clock w = .error (.validation reason) := by
  rcases span_cases w with hspan | ⟨hspan, hlong⟩
  · have hcutoff : cutoff clock w = match clock.back? w.length with
        | some t => .ok t
        | none => .error (windowTooEarly w) := by
      rw [cutoff, hspan]
      rfl
    have hback : clock.back? w.length = Timestamp.ofMillis? (w.start clock / 1000000) := rfl
    rw [hcutoff, hback, Timestamp.ofMillis?]
    cases hlong : w.tooLong clock with
    | false =>
        have hrange := Window.start_bounds hlong
        exact Or.inl ⟨rfl, _, by rw [dif_pos hrange], rfl⟩
    | true =>
        have hstart := Window.tooLong_iff.mp hlong
        rw [dif_neg (by omega)]
        exact Or.inr ⟨rfl, _, rfl⟩
  · rw [cutoff, hspan]
    exact Or.inr ⟨hlong clock, _, rfl⟩

/-! ## The filter of a sweep -/

/-- With a time for removal, only this time decides. -/
lemma Execution.isDue_of_cleanup {e : Execution} {due : Timestamp} (h : e.cleanup = some due)
    (clock : Reading) (w : Window) :
    e.isDue clock w = true ↔ due.millis ≤ clock.instant.millis := by
  have hnanos := clock.nanos_lt
  rw [isDue, h, decide_eq_true_iff, Timestamp.count_reading, Reading.count]
  omega

/-- Without a time for removal, the end and the window decide. -/
lemma Execution.isDue_of_end {e : Execution} (h : e.cleanup = none) (clock : Reading)
    (w : Window) : e.isDue clock w = true ↔ e.endTime.millis ≤ w.start clock / 1000000 := by
  rw [isDue, h, decide_eq_true_iff, Timestamp.count_reading]
  omega

/-- **The filter of a sweep holds of what is due**, unless there is a null in the place of the time
for removal: that field is there, and it is within no bound. -/
theorem Execution.Spelled.holds_dueFilter {e : Execution} {d : Document} (h : Spelled e d)
    {clock : Reading} {w : Window} {t : Timestamp} (ht : t.millis = w.start clock / 1000000) :
    (dueFilter clock.instant t).holds d = true
      ↔ e.isDue clock w = true ∧ d.get? "cleanup" ≠ some .null := by
  have hcleanup := h.cleanup
  simp only [dueFilter, Filter.holds_or, Filter.holds_and, List.any_cons, List.any_nil,
    List.all_cons, List.all_nil, Bool.and_true, Bool.or_false, Bool.or_eq_true, Bool.and_eq_true,
    Filter.holds_has, Table.contains]
  cases hc : e.cleanup with
  | some due =>
      rw [hc] at hcleanup
      rw [Filter.holds_lte_int hcleanup due.millis_bounds clock.instant.millis_bounds,
        isDue_of_cleanup hc, hcleanup]
      simp [stamp]
  | none =>
      rw [hc] at hcleanup
      rw [Filter.holds_lte_int h.endTime e.endTime.millis_bounds t.millis_bounds, isDue_of_end hc,
        ht]
      rcases hcleanup with habsent | hnull
      · simp [habsent]
      · have hunbounded : (Filter.lte "cleanup" (.int clock.instant.millis)).holds d = false := by
          rw [Filter.holds, Filter.within, hnull]
          rfl
        simp [hnull, hunbounded]

/-- The filter of a sweep selects what is due. -/
lemma holds_dueFilter {clock : Reading} {w : Window} {t : Timestamp}
    (ht : t.millis = w.start clock / 1000000) (e : Execution) :
    (dueFilter clock.instant t).holds e.toDocument = e.isDue clock w := by
  have hnull : e.toDocument.get? "cleanup" ≠ some .null := by
    rw [e.get?_cleanup_toDocument]
    cases e.cleanup <;> simp [Execution.stamp]
  rw [Bool.eq_iff_iff, e.spelled_toDocument.holds_dueFilter ht]
  exact and_iff_left hnull

end FleetLedger
