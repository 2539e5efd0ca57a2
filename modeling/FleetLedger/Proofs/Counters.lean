import FleetLedger.Proofs.DateText
import FleetLedger.Proofs.DayRanges
import FleetLedger.Proofs.Readings
import FleetLedger.Proofs.Runs

/-!
# The tallies count what was recorded

After a run the tally for all time counts what was recorded in it, and the tally of a day what was
recorded while the clock showed that day.  **`counters_exact`** says so of what callers read.

The books have it already, by period (`countOf_booksOf`), and `Kept.run_stats` and
`Kept.run_dailyStats` read the books.  A day goes by its text there, and here it matters that no two
days share one (`Date.text_injective`).  The days of a range that has them all divide what was
recorded (`perm_flatMap_days`), so their tallies add up to the tally for all time.
-/

namespace FleetLedger

open Ledger

/-- The tally of what was recorded. -/
def tallied (rs : List Recording) (date : Option String) : Tally where
  total := rs.length
  succeeded := rs.countP (·.execution.success)
  failed := rs.countP (!·.execution.success)
  date := date

lemma tallied_perm {rs rs' : List Recording} (h : rs.Perm rs') (date : Option String) :
    tallied rs date = tallied rs' date := by
  simp only [tallied, h.length_eq, h.countP_eq]

/-- Tallies of some recordings and of others make the tally of all of them. -/
lemma absorb_tallied (rs rs' : List Recording) (date date' : Option String) :
    (tallied rs date).absorb (tallied rs' date') = tallied (rs ++ rs') date := by
  simp [tallied, Tally.absorb]

/-- Tallies of the parts make the tally of the whole. -/
lemma foldl_absorb_tallied {α : Type} (xs : List α) (f : α → List Recording)
    (g : α → Option String) (rs : List Recording) (date : Option String) :
    (xs.map fun x => tallied (f x) (g x)).foldl Tally.absorb (tallied rs date)
      = tallied (rs ++ xs.flatMap f) date := by
  induction xs generalizing rs with
  | nil => simp
  | cons x xs ih =>
      rw [List.map_cons, List.foldl_cons, absorb_tallied, ih, List.flatMap_cons, List.append_assoc]

/-- Days divide what was recorded on them. -/
lemma perm_flatMap_days {days : List Date} (hn : days.Nodup) {rs : List Recording}
    (h : ∀ r ∈ rs, r.day ∈ days) : (days.flatMap fun d => rs.filter (·.day = d)).Perm rs := by
  induction days generalizing rs with
  | nil =>
      have hnone : rs = [] := List.eq_nil_iff_forall_not_mem.mpr fun r hr => by simpa using h r hr
      rw [hnone]
      exact List.Perm.nil
  | cons d days ih =>
      rw [List.nodup_cons] at hn
      have hothers : ∀ r ∈ rs.filter (fun r => !decide (r.day = d)), r.day ∈ days := by
        intro r hr
        obtain ⟨hr, hne⟩ := List.mem_filter.mp hr
        rcases List.mem_cons.mp (h r hr) with heq | hmem
        · simp [heq] at hne
        · exact hmem
      -- the other days divide what was recorded on other days
      have hrest := ih hn.2 hothers
      -- what was not recorded on `d` has the same part on every other day as all there is
      have hsame : (days.flatMap fun d' =>
            (rs.filter fun r => !decide (r.day = d)).filter (·.day = d'))
          = days.flatMap fun d' => rs.filter (·.day = d') := by
        refine List.flatMap_congr fun d' hd' => ?_
        rw [List.filter_filter]
        refine List.filter_congr fun r _ => ?_
        rw [Bool.and_eq_left_iff_imp]
        intro hday
        have hne : d' ≠ d := fun he => hn.1 (he ▸ hd')
        simpa [of_decide_eq_true hday] using hne
      rw [hsame] at hrest
      rw [List.flatMap_cons]
      exact (hrest.append_left _).trans (List.filter_append_perm _ rs)

/-! ## Counts of recordings -/

/-- A recording falls into a day if it was made on that day: no two days have one text. -/
lemma falls_day_iff {r : Recording} {d : Date} : r.falls (.day d.text) = true ↔ r.day = d := by
  rw [Recording.falls, decide_eq_true_iff]
  exact ⟨fun h => Date.text_injective h, fun h => by rw [h]⟩

/-- Each execution has succeeded or failed. -/
lemma length_eq_succeeded_add_failed (rs : List Recording) :
    rs.length = rs.countP (·.execution.success) + rs.countP (!·.execution.success) := by
  rw [List.length_eq_countP_add_countP (·.execution.success)]
  simp only [Bool.not_eq_true, Bool.decide_eq_false]

lemma Count.of_eq_filter (p : Period) (rs : List Recording) :
    Count.of p rs
      = { period := p
          succeeded := (rs.filter (·.falls p)).countP (·.execution.success)
          failed := (rs.filter (·.falls p)).countP (!·.execution.success) } := by
  rw [Count.of, List.countP_filter, List.countP_filter, Count.mk.injEq]
  refine ⟨rfl, List.countP_congr fun r _ => ?_, List.countP_congr fun r _ => ?_⟩
  · rw [Bool.and_comm]
  · rw [Bool.and_comm]

/-- The count of a period is the tally of the recordings that fall into it. -/
lemma Count.tally_of (p : Period) (rs : List Recording) :
    (Count.of p rs).tally = tallied (rs.filter (·.falls p)) p.date? := by
  rw [of_eq_filter, tally, ← length_eq_succeeded_add_failed]
  rfl

/-- Counts of fewer than `2 ^ 63` recordings can be stored. -/
lemma Count.fits_of {rs : List Recording} (hfit : rs.length < 2 ^ 63) (p : Period) :
    (Count.of p rs).Fits := by
  have hle := List.length_filter_le (·.falls p) rs
  rw [of_eq_filter, Fits, ← length_eq_succeeded_add_failed]
  omega

namespace Books

variable {b : Books} {s : Memory} {rs : List Recording}

/-- Where the count for all time is that of some recordings, it is their tally that is read. -/
lemma Kept.run_stats_tallied (h : b.Kept s) (htidy : b.Tidy)
    (hcount : b.countOf .allTime = Count.of .allTime rs) (hfit : rs.length < 2 ^ 63)
    (clock : Reading) (fresh : FreshId) :
    (inMemory clock fresh).stats.run.run s = (.ok (tallied rs none), s) := by
  have hall : rs.filter (·.falls .allTime) = rs := List.filter_eq_self.mpr fun _ _ => rfl
  rw [h.run_stats htidy (hcount ▸ Count.fits_of hfit _), hcount, Count.tally_of, hall]
  rfl

/-- Where the counts of days are those of some recordings, it is the tallies of these by day that
are read. -/
lemma Kept.run_dailyStats_tallied (h : b.Kept s) (htidy : b.Tidy)
    (hcount : ∀ key, b.countOf (.day key) = Count.of (.day key) rs) (hfit : rs.length < 2 ^ 63)
    {first last : Date} {days : List Date} (hdays : Date.through first last = .ok days)
    (clock : Reading) (fresh : FreshId) :
    ((inMemory clock fresh).dailyStats first last).run.run s
      = (.ok (days.map fun d => tallied (rs.filter (·.day = d)) (some d.text)), s) := by
  rw [h.run_dailyStats htidy hdays fun d _ => hcount d.text ▸ Count.fits_of hfit _]
  refine congrArg (fun ts => (Except.ok ts, s)) (List.map_congr_left fun d _ => ?_)
  have hday : rs.filter (·.falls (.day d.text)) = rs.filter (·.day = d) :=
    List.filter_congr fun r _ => by rw [Bool.eq_iff_iff, falls_day_iff, decide_eq_true_iff]
  rw [hcount, Count.tally_of, hday]
  rfl

end Books

/-- **The tallies count what was recorded.**  There is at most one document for all time and at most
one for each day.  The tally for all time counts all executions that were recorded; those of a range
of days are one for each day, in order, and count what was recorded while the clock showed that day.
So each of them adds up, and the days of a range that has all days add up to the tally for all time.
No operation but recording changes a tally. -/
theorem counters_exact (turns : List Turn) (hfit : (recordings turns).length < 2 ^ 63) :
    (∀ p : Period, (((run turns).rows tallies).filter p.filter.holds).length ≤ 1)
      ∧ (∀ clock fresh, (inMemory clock fresh).stats.run.run (run turns)
          = (.ok (tallied (recordings turns) none), run turns))
      ∧ (∀ first last : Date, first.count ≤ last.count → ∃ days : List Date,
          (days.Pairwise fun d d' => d.count < d'.count)
          ∧ (∀ d, d ∈ days ↔ first.count ≤ d.count ∧ d.count ≤ last.count)
          ∧ (∀ clock fresh, ((inMemory clock fresh).dailyStats first last).run.run (run turns)
            = (.ok (days.map fun d =>
                tallied ((recordings turns).filter (·.day = d)) (some d.text)), run turns))
          ∧ ((∀ r ∈ recordings turns, r.day ∈ days) →
            (days.map fun d => tallied ((recordings turns).filter (·.day = d)) (some d.text)).foldl
              Tally.absorb {} = tallied (recordings turns) none))
      ∧ (∀ row ∈ (run turns).rows tallies, ∃ t, row.decode Tally.decoder tallies = .ok t
          ∧ t.total = t.succeeded + t.failed)
      ∧ ∀ t : Turn, t.recording? = none →
        (run (turns ++ [t])).rows tallies = (run turns).rows tallies := by
  have hkept := kept_run turns
  have htidy := tidy_booksOf turns
  have hcount := countOf_booksOf turns
  refine ⟨?_, ?_, ?_, ?_, ?_⟩
  · intro p
    exact hkept.length_period_le_one htidy p
  · intro clock fresh
    exact hkept.run_stats_tallied htidy (hcount .allTime) hfit clock fresh
  · intro first last hle
    obtain ⟨days, hthrough, hordered, hmem⟩ := Date.through_spec hle
    refine ⟨days, hordered, hmem, ?_, ?_⟩
    · intro clock fresh
      have hdaily := fun key => hcount (.day key)
      exact hkept.run_dailyStats_tallied htidy hdaily hfit hthrough clock fresh
    · intro hcover
      have hn : days.Nodup := hordered.imp fun {d d'} hlt he => by
        rw [he] at hlt
        omega
      have hsum := foldl_absorb_tallied days
        (fun d => (recordings turns).filter (·.day = d)) (fun d => some d.text) [] none
      exact hsum.trans (tallied_perm (perm_flatMap_days hn hcover) none)
  · intro row hrow
    exact hkept.decode_row htidy (fun p => hcount p ▸ Count.fits_of hfit p) hrow
  · intro t ht
    rw [run_concat]
    exact t.rows_after ht (by decide) (run turns)

/-- A backup that ended one second into 1970, not yet recorded. -/
def backup : Execution where
  id := ""
  jobId := "backup"
  jobGroup := "nightly"
  user := "root"
  name := "Backup"
  node := "n1"
  hostname := "alpha"
  ip := "10.0.0.1"
  command := "tar"
  output := ""
  success := true
  beginTime := { millis := 0 }
  endTime := { millis := 1000 }
  cleanup := none

/-- A run over two days: a backup that succeeds, one that fails on the day after, and a sweep. -/
def twoDays : List Turn :=
  let later : Timestamp := { millis := 90000000 }
  let fresh := RecordId.Source.fresh {} backup.endTime
  [⟨backup.endTime.reading, fresh, .record backup⟩,
    ⟨later.reading, fresh, .record { backup with success := false }⟩,
    ⟨later.reading, fresh, .sweep { seconds := 60 }⟩]

/-- Over two days one backup succeeded and one failed. -/
theorem stats_twoDays : (recordings twoDays).length < 2 ^ 63
    ∧ ∀ clock fresh, (inMemory clock fresh).stats.run.run (run twoDays)
      = (.ok { total := 2, succeeded := 1, failed := 1 }, run twoDays) := by
  have hfit : (recordings twoDays).length < 2 ^ 63 := by decide
  exact ⟨hfit, (counters_exact twoDays hfit).2.1⟩

end FleetLedger
