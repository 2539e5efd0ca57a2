import FleetLedger.Proofs.Configurations
import FleetLedger.Proofs.Counters
import FleetLedger.Proofs.History

/-!
# Which windows are swept

A worker is configured to keep executions for a number of days.  The configuration takes any number of
days whose seconds 64 bits can hold (`Config.expiration_of_load`), but a sweep has to count that many
days back from now, and no more days can be counted back than the calendar had so far
(`tooLong_ofDays`).  What is accepted therefore falls into three parts: windows that are swept, windows
that a sweep refuses because they begin too early, and windows that it refuses before it looks at the
clock (`cutoff_ofDays`).

A sweep that is refused removes nothing, not even what is due by the time that was set for it.  And it
will be refused again for as many years as the window is too long: **`accepted_windows`**.
-/

namespace FleetLedger

open Ledger

/-! ## What is accepted -/

namespace Config

/-- The window of a configuration that loads is a number of whole days, and its seconds fit into 64
bits. -/
lemma expiration_of_load {vars : Lookup} {host : Host} {c : Config} (h : load vars host = .ok c) :
    ∃ days, number vars "LOG_EXPIRATION_DAYS" greatest64 30 = .ok days
      ∧ c.expiration = days * 86400 ∧ days * 86400 ≤ greatest64 := by
  obtain ⟨d, hd, hfits, hexpiration⟩ := (load_eq_ok_iff.mp h).expiration
  exact ⟨d, (number_eq_ok_iff days).mpr hd, hexpiration, hfits⟩

end Config

/-! ## Counting days back -/

/-- The days of the calendar before the one that a clock shows. -/
def Reading.daysBefore (clock : Reading) : Int := clock.instant.day.count + 96465292

namespace Ledger.Window

/-- A window of whole days. -/
def ofDays (days : Nat) : Window := { seconds := days * 86400 }

/-- A window of whole days is too long where it has more days than the calendar has before today. -/
lemma tooLong_ofDays (days : Nat) (clock : Reading) :
    (ofDays days).tooLong clock = decide (clock.daysBefore < days) := by
  have hday : clock.instant.day.count = clock.instant.millis / 86400000 := rfl
  have hnanos := clock.nanos_lt
  rw [Bool.eq_iff_iff, tooLong_iff, decide_eq_true_iff]
  simp only [start, length, ofDays, Reading.count, Reading.daysBefore, hday]
  omega

/-- The most days whose milliseconds 63 bits hold. -/
def mostDays : Nat := 106751991167

/-- A window of whole days can be measured if it has at most `mostDays` days. -/
lemma span_ofDays (days : Nat) : (ofDays days).span
    = if mostDays < days then .error windowTooLong else .ok (ofDays days).length := by
  have hlongest : Window.longest.seconds < (ofDays days).seconds
      ∨ (ofDays days).seconds = Window.longest.seconds ∧ Window.longest.nanos < (ofDays days).nanos
      ↔ mostDays < days := by
    simp only [Window.longest, ofDays, mostDays]
    omega
  simp only [span, hlongest]
  rfl

end Ledger.Window

open Ledger.Window

/-- Why a window is refused that cannot be counted back. -/
def refusal (days : Nat) : Error :=
  if mostDays < days then windowTooLong else windowTooEarly (ofDays days)

/-- A window that is too long is refused, and gives no time before which to delete. -/
lemma cutoff_ofDays {days : Nat} {clock : Reading} (h : clock.daysBefore < days) :
    cutoff clock (ofDays days) = .error (refusal days) := by
  have hlong : (ofDays days).tooLong clock = true := by
    rw [tooLong_ofDays]
    exact decide_eq_true h
  have hback : clock.back? (ofDays days).length = none := by
    have hstart := tooLong_iff.mp hlong
    have hnone : ¬ (-8334601228800000 ≤ (ofDays days).start clock / 1000000
        ∧ (ofDays days).start clock / 1000000 ≤ 8210266876799999) := by omega
    exact dif_neg hnone
  rw [cutoff, span_ofDays, refusal]
  by_cases hmost : mostDays < days
  · rw [if_pos hmost, if_pos hmost]
    rfl
  · rw [if_neg hmost, if_neg hmost]
    simp only [bind, Except.bind, hback]

/-- The refusal is a validation error, for either reason. -/
lemma refusal_is_validation (days : Nat) : ∃ reason, refusal days = .validation reason := by
  rw [refusal]
  split
  · exact ⟨_, rfl⟩
  · exact ⟨_, rfl⟩

/-! ## Sweeping -/

section Sweeping

variable (turns : List Turn) (clock : Reading) (fresh : FreshId) {w : Window}

/-- A sweep with a window that is not too long deletes what is due. -/
lemma run_sweep_run (h : w.tooLong clock = false) :
    ((inMemory clock fresh).sweep w).run.run (run turns)
      = (.ok ((chronicle turns).countP (·.isDue clock w)),
        run (turns ++ [⟨clock, fresh, .sweep w⟩])) := by
  obtain ⟨t, ht, hswept⟩ := run_sweep clock fresh (run turns) h
  have hanswer := congrArg Prod.fst hswept
  rw [Memory.snd_deleteMany, (kept_run turns).history, history_booksOf,
    countP_due_toDocument _ ht] at hanswer
  rw [run_concat]
  exact Prod.ext hanswer rfl

/-- After a sweep with such a window nothing is left that was due. -/
lemma isDue_of_mem_swept (h : w.tooLong clock = false) {e : Execution}
    (he : e ∈ chronicle (turns ++ [⟨clock, fresh, .sweep w⟩])) : e.isDue clock w = false := by
  have hchronicle : chronicle (turns ++ [⟨clock, fresh, .sweep w⟩])
      = (chronicle turns).filter fun e => !e.isDue clock w := by
    rw [chronicle_concat]
    exact if_neg (by simp [h])
  rw [hchronicle] at he
  simpa using (List.mem_filter.mp he).2

end Sweeping

/-- **Which of the accepted windows are swept.**  A configuration keeps executions for a number of
days.  As long as the calendar had as many days before today, a sweep of that window removes all that
is due and says how many executions these were.  Before that, it is refused and removes nothing. -/
theorem accepted_windows (turns : List Turn) {vars : Config.Lookup} {host : Host} {c : Config}
    (hload : Config.load vars host = .ok c) :
    ∃ days, Config.number vars "LOG_EXPIRATION_DAYS" Config.greatest64 30 = .ok days
      ∧ c.expiration = days * 86400 ∧ days * 86400 ≤ Config.greatest64
      ∧ (∃ reason, refusal days = .validation reason)
      ∧ ∀ (clock : Reading) (fresh : FreshId),
        if clock.daysBefore < days then
          ((inMemory clock fresh).sweep { seconds := c.expiration }).run.run (run turns)
            = (.error (refusal days), run turns)
        else ((inMemory clock fresh).sweep { seconds := c.expiration }).run.run (run turns)
            = (.ok ((chronicle turns).countP (·.isDue clock (ofDays days))),
              run (turns ++ [⟨clock, fresh, .sweep (ofDays days)⟩]))
          ∧ ∀ e ∈ chronicle (turns ++ [⟨clock, fresh, .sweep (ofDays days)⟩]),
            e.isDue clock (ofDays days) = false := by
  obtain ⟨days, hdays, hexpiration, hfits⟩ := Config.expiration_of_load hload
  refine ⟨days, hdays, hexpiration, hfits, refusal_is_validation days, ?_⟩
  intro clock fresh
  have hwindow : ({ seconds := c.expiration } : Window) = ofDays days := by
    rw [hexpiration]
    rfl
  rw [hwindow]
  have hlong := tooLong_ofDays days clock
  by_cases hearly : clock.daysBefore < days
  · rw [if_pos hearly]
    exact run_sweep_of_error clock fresh (run turns) (cutoff_ofDays hearly)
  · rw [decide_eq_false hearly] at hlong
    rw [if_neg hearly]
    refine ⟨run_sweep_run turns clock fresh hlong, ?_⟩
    intro e he
    exact isDue_of_mem_swept turns clock fresh hlong he

/-- A configuration to keep executions for a hundred million days. -/
def hundredMillionDays : Config.Lookup := fun name =>
  [("DATABASE_URL", "postgres://localhost/jobwatch"), ("NODE_ID", "node-a"),
    ("NODE_IP", "10.0.0.7"), ("LOG_EXPIRATION_DAYS", "100000000")].lookup name

/-- The configuration that these variables make. -/
def patient : Config where
  databaseUrl := "postgres://localhost/jobwatch"
  databaseMaxConnections := 20
  nodeId := "node-a"
  nodeIp := "10.0.0.7"
  keys := {}
  cleanPeriod := some 3600
  expiration := 8640000000000

/-- A configuration with a hundred million days loads. -/
lemma load_hundredMillionDays : Config.load hundredMillionDays {} = .ok patient := by decide

/-- With a hundred million days every sweep is refused, and the record that is due stays. -/
theorem sweep_patient : Config.load hundredMillionDays {} = .ok patient
    ∧ ∃ days, patient.expiration = days * 86400
      ∧ ∀ fresh, ((inMemory backup.endTime.reading fresh).sweep
        { seconds := patient.expiration }).run.run (run twoDays)
          = (.error (refusal days), run twoDays) := by
  obtain ⟨days, -, hexpiration, -, -, hswept⟩ := accepted_windows twoDays load_hundredMillionDays
  have hearly : backup.endTime.reading.daysBefore < days := by
    have hdays : days = 100000000 := by
      have h : 8640000000000 = days * 86400 := hexpiration
      omega
    rw [hdays]
    decide
  refine ⟨load_hundredMillionDays, days, hexpiration, ?_⟩
  intro fresh
  have h := hswept backup.endTime.reading fresh
  rwa [if_pos hearly] at h

/-- A window that is accepted and that no sweep takes, though the clock shows an instant since
1970. -/
theorem accepted_window_refused : ¬ ∀ (vars : Config.Lookup) (host : Host) (c : Config),
    Config.load vars host = .ok c →
    ∀ (turns : List Turn) (clock : Reading) (fresh : FreshId), 0 ≤ clock.instant.millis →
      ∀ reason, (((inMemory clock fresh).sweep { seconds := c.expiration }).run.run (run turns)).1
        ≠ .error (.validation reason) := by
  intro hswept
  have hearly : backup.endTime.reading.daysBefore < (100000000 : Nat) := by decide
  have hrefused := run_sweep_of_error backup.endTime.reading
    (RecordId.Source.fresh {} backup.endTime) (run twoDays) (cutoff_ofDays hearly)
  obtain ⟨reason, hreason⟩ := refusal_is_validation 100000000
  rw [hreason] at hrefused
  exact hswept hundredMillionDays {} patient load_hundredMillionDays twoDays _ _ (by decide) reason
    (congrArg Prod.fst hrefused)

end FleetLedger
