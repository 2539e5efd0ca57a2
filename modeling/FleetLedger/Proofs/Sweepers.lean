import Mathlib.Logic.Function.Basic
import Mathlib.Logic.Relation
import FleetLedger.Proofs.Punctuality
import FleetLedger.Rehearsal.Clock

/-!
# Sweepers follow courses

A rehearsal does not let its jobs look at the clock every second.  It wakes a sweeper when there is
something for it to do, and lets all the seconds before pass at once.  That comes to the same: each
sweeper is at any time where a course has come to (`Sweeper.Follows`), so what is proved about courses
is true of what runs.

There are two reasons for that.  A job that is not woken would not have done anything
(`Course.after_seconds`).  And no waking is missed: the stopwatch moves to the first waking there is,
and `advance` allows for enough of them, as a sweeper that was woken wakes next at a later time
(`Rehearsal.Paced.wakeAt`).  The main statement is **`sweepers_follow_courses`**.
-/

namespace FleetLedger

open Retention

/-! ## Seconds in which nothing is due -/

namespace Retention

/-- A turn before anything is due leaves the job as it was. -/
lemma Job.turn_of_early {j : Job} {now : Nat} (hasked : j.phase = .waiting → j.asked = false)
    (hearly : ∀ t, j.due? = some t → now < t) : (j.turn now).1 = j := by
  by_cases hp : j.phase = .waiting
  · have hdue : j.due? = some j.ticker.due := by simp only [due?, hp]
    rw [turn_of_waiting hp (hasked hp), if_pos (hearly _ hdue)]
  · rw [turn_of_busy hp]

/-- A turn that puts a waiting job to sweep is a due one, and the sweep begins with it. -/
lemma Job.since_of_turn {j : Job} {now since : Nat} (hp : j.phase = .waiting)
    (h : (j.turn now).1.phase = .sweeping since) : since = now ∧ j.ticker.due ≤ now := by
  cases hasked : j.asked with
  | true =>
      rw [turn_of_asked hp hasked] at h
      cases h
  | false =>
      rw [turn_of_waiting hp hasked] at h
      split at h
      case isTrue =>
        rw [hp] at h
        cases h
      case isFalse hdue =>
        cases h
        exact ⟨rfl, Nat.le_of_not_lt hdue⟩

namespace Course

/-- Seconds before the next tick only move the clock of a course. So one waking may stand for all
the seconds before it. -/
lemma after_seconds {c : Course} (hasked : c.job.phase = .waiting → c.job.asked = false) {n : Nat}
    (hearly : ∀ t, c.job.due? = some t → c.clock + n < t) :
    c.after (List.replicate n .second) = { c with clock := c.clock + n } := by
  obtain ⟨j, clock, past⟩ := c
  induction n generalizing clock with
  | zero => rfl
  | succ n ih =>
      have hturn : (j.turn (clock + 1)).1 = j := by
        refine Job.turn_of_early hasked ?_
        intro t ht
        have : clock + (n + 1) < t := hearly t ht
        omega
      have hrest : Course.after ⟨j, clock + 1, past⟩ (List.replicate n .second)
          = ⟨j, clock + 1 + n, past⟩ := by
        refine ih (clock + 1) hasked ?_
        intro t ht
        have : clock + (n + 1) < t := hearly t ht
        show clock + 1 + n < t
        omega
      show (next ⟨j, clock, past⟩ .second).after (List.replicate n .second) = _
      rw [next_second, hturn, hrest]
      show (⟨j, clock + 1 + n, past⟩ : Course) = ⟨j, clock + (n + 1), past⟩
      rw [Nat.add_right_comm, Nat.add_assoc]

/-- The job of the course was started at some time. -/
def Started (c : Course) : Prop :=
  ∃ start period expiration os, c = (Course.start start period expiration).after os

variable {c : Course}

lemma Started.after (h : c.Started) (os : List Occasion) : (c.after os).Started := by
  obtain ⟨start, period, expiration, before, rfl⟩ := h
  exact ⟨start, period, expiration, before ++ os, (after_append _ before os).symm⟩

/-- What is known of a started job: it has failed at its start, or its course is on time. -/
lemma Started.onTime (h : c.Started) :
    c.job.phase = .failed ∨ ∃ start period, 0 < period ∧ c.OnTime start period := by
  obtain ⟨start, period, expiration, os, rfl⟩ := h
  by_cases hfit : 0 < period ∧ period ≤ longestPeriod
  · exact Or.inr ⟨start, period, hfit.1, (onTime_start hfit.1 hfit.2 start expiration).after os⟩
  · have hbad : period = 0 ∨ longestPeriod < period := by omega
    have hfailed : (Course.start start period expiration).job.phase = .failed := by
      simp only [Course.start, Job.start, if_pos hbad]
    exact Or.inl (after_of_over hfailed (by simp) (by simp) os).1

/-- A started job that waits was not asked to stop, and its tick is still to come. -/
lemma Started.waiting (h : c.Started) (hp : c.job.phase = .waiting) :
    c.job.asked = false ∧ c.clock < c.job.ticker.due := by
  rcases h.onTime with hfailed | ⟨start, period, -, htime⟩
  · rw [hp] at hfailed
    cases hfailed
  · have hphase := htime.phase
    simp only [hp] at hphase
    exact ⟨hphase.1, hphase.2.1⟩

/-- The tick after a sweep is due later than the moment at which the sweep began. -/
lemma Started.sweeping {since : Nat} (h : c.Started) (hp : c.job.phase = .sweeping since) :
    since < c.job.ticker.due := by
  rcases h.onTime with hfailed | ⟨start, period, hperiod, htime⟩
  · rw [hp] at hfailed
    cases hfailed
  · have hphase := htime.phase
    simp only [hp] at hphase
    omega

end Course

end Retention

/-! ## Following -/

namespace Sweeper

/-- **A sweeper follows a course**: its job is where the course has come to, and it waits for a
removal, which is still to come, if and only if the job is sweeping. -/
structure Follows (w : Sweeper) (c : Course) : Prop where
  job : w.job = c.job
  started : c.Started
  busy : ∀ since, w.job.phase = .sweeping since → w.removal ≠ none
  removing : ∀ r, w.removal = some r → c.clock < r.due ∧ ∃ since, w.job.phase = .sweeping since

/-- A sweeper has found the calendar unreadable, and does nothing any more. -/
def Crashed (w : Sweeper) : Prop := w.job.phase = .failed ∧ w.removal = none

/-- A sweeper has followed a course up to some time, unless it has crashed on the way; it was not
asked to stop. -/
def Followed (w : Sweeper) (c : Course) (clock : Nat) : Prop :=
  w.Crashed ∨ ∃ os, .stop ∉ os ∧ w.Follows (c.after os) ∧ (c.after os).clock = clock

variable {w : Sweeper} {c : Course} {clock : Nat}

/-- It does not matter which part of a course a sweeper has followed before, if it was not asked to
stop in it. -/
lemma Followed.of_after {o : List Occasion} (hgoing : .stop ∉ o)
    (h : w.Followed (c.after o) clock) : w.Followed c clock := by
  rcases h with hcrashed | ⟨more, hmore, hfollows, hclock⟩
  · exact Or.inl hcrashed
  · rw [← Course.after_append] at hfollows hclock
    refine Or.inr ⟨o ++ more, ?_, hfollows, hclock⟩
    intro hstop
    exact (List.mem_append.mp hstop).elim hgoing hmore

/-- A crashed sweeper never wakes again. -/
lemma Crashed.wakes? (h : w.Crashed) : w.wakes? = none := by
  simp only [Sweeper.wakes?, h.2, Job.due?, h.1]

lemma Follows.asked (h : w.Follows c) (hp : c.job.phase = .waiting) : c.job.asked = false :=
  (h.started.waiting hp).1

/-- Where the tick of the course is due, the sweeper wakes for it. -/
lemma Follows.wakes_of_due (h : w.Follows c) {t : Nat} (ht : c.job.due? = some t) :
    w.wakes? = some t := by
  cases hr : w.removal with
  | none => simp only [Sweeper.wakes?, hr, h.job, ht]
  | some r =>
      obtain ⟨-, since, hp⟩ := h.removing r hr
      rw [h.job] at hp
      simp only [Job.due?, hp] at ht
      cases ht

/-- A sweeper always wakes later than now. -/
lemma Follows.lt_wakes (h : w.Follows c) {t : Nat} (ht : w.wakes? = some t) : c.clock < t := by
  cases hr : w.removal with
  | some r =>
      simp only [Sweeper.wakes?, hr, Option.some.injEq] at ht
      rw [← ht]
      exact (h.removing r hr).1
  | none =>
      simp only [Sweeper.wakes?, hr, h.job, Job.due?] at ht
      split at ht
      case h_1 hp =>
        cases ht
        exact (h.started.waiting hp).2
      case h_2 => cases ht

/-- A sweeper that does not wake up to some time is where its course gets by letting the seconds
until then pass. -/
lemma Follows.seconds (h : w.Follows c) (hlate : c.clock ≤ clock)
    (hearly : ∀ t, w.wakes? = some t → clock < t) :
    ∃ os, .stop ∉ os ∧ w.Follows (c.after os) ∧ (c.after os).clock = clock := by
  obtain ⟨n, rfl⟩ := Nat.exists_eq_add_of_le hlate
  have hseconds := Course.after_seconds h.asked fun t ht => hearly t (h.wakes_of_due ht)
  refine ⟨List.replicate n .second, by simp, ?_, ?_⟩
  · have hstarted := h.started.after (List.replicate n .second)
    rw [hseconds] at hstarted ⊢
    refine ⟨h.job, hstarted, h.busy, ?_⟩
    intro r hr
    exact ⟨hearly r.due (by simp only [Sweeper.wakes?, hr]), (h.removing r hr).2⟩
  · rw [hseconds]

/-- A sweeper without a sweep under way, and so without a removal to wait for, follows its course.
-/
lemma Follows.of_free (hjob : w.job = c.job) (hstarted : c.Started) (hremoval : w.removal = none)
    (hfree : ∀ since, c.job.phase ≠ .sweeping since) : w.Follows c where
  job := hjob
  started := hstarted
  busy since hp := by
    rw [hjob] at hp
    exact absurd hp (hfree since)
  removing r hr := by
    rw [hremoval] at hr
    cases hr

end Sweeper

/-! ## Waking -/

namespace Rehearsal

/-- The stopwatch and the jobs are as they were. -/
structure SameJobs (s s' : Rehearsal) : Prop where
  clock : s'.clock = s.clock
  tasks : s'.tasks = s.tasks

lemma SameJobs.trans {s s' s'' : Rehearsal} (h : SameJobs s s') (h' : SameJobs s' s'') :
    SameJobs s s'' := ⟨h'.clock.trans h.clock, h'.tasks.trans h.tasks⟩

variable {s : Rehearsal} {w : Sweeper} {c : Course}

lemma sameJobs_remove (s : Rehearsal) (collection : String) (f : Filter) :
    SameJobs s (s.remove collection f).1 := by
  simp only [remove]
  split
  · exact ⟨rfl, rfl⟩
  · exact ⟨rfl, rfl⟩

/-- A sweep may count a removal and report what it gave; stopwatch and jobs stay. -/
lemma sameJobs_beginSweep (s : Rehearsal) (w : Sweeper) : SameJobs s (s.beginSweep w).1 := by
  simp only [beginSweep]
  split
  · exact ⟨rfl, rfl⟩
  · exact ⟨rfl, rfl⟩
  · split
    · have h := sameJobs_remove { s with removals := s.removals + 1 } Ledger.history
      exact ⟨(h _).clock, (h _).tasks⟩
    · exact ⟨rfl, rfl⟩

lemma sameJobs_proceed (s : Rehearsal) (w : Sweeper) : SameJobs s (s.proceed w).1 := by
  simp only [proceed]
  split
  · exact sameJobs_beginSweep s w
  · exact ⟨rfl, rfl⟩

lemma wakeSweeper_of_none (s : Rehearsal) (h : w.removal = none) :
    s.wakeSweeper w = (s.report (w.job.turn s.clock).2).proceed
      { w with job := (w.job.turn s.clock).1 } := by
  simp only [wakeSweeper, h]

lemma wakeSweeper_of_some (s : Rehearsal) {r : Removal} (h : w.removal = some r) :
    s.wakeSweeper w
      = (let removed := s.remove Ledger.history r.filter
        let swept := removed.1.finishSweep w removed.2
        swept.1.proceed swept.2) := by
  simp only [wakeSweeper, h]

/-- A sweeper that wakes gives back what has become of it, and changes no job by itself. -/
lemma sameJobs_wakeSweeper (s : Rehearsal) (w : Sweeper) : SameJobs s (s.wakeSweeper w).1 := by
  cases hr : w.removal with
  | none =>
      rw [wakeSweeper_of_none s hr]
      have hreported : SameJobs s (s.report (w.job.turn s.clock).2) := ⟨rfl, rfl⟩
      exact hreported.trans (sameJobs_proceed _ _)
  | some r =>
      rw [wakeSweeper_of_some s hr]
      have hremoved := sameJobs_remove s Ledger.history r.filter
      have hswept : ∀ result,
          SameJobs s ((s.remove Ledger.history r.filter).1.finishSweep w result).1 :=
        fun _ => ⟨hremoved.clock, hremoved.tasks⟩
      exact (hswept _).trans (sameJobs_proceed _ _)

/-- A sweep that ends as soon as it has begun: the tick after it is not due yet. -/
lemma followed_finishSweep (hjob : w.job = c.job) (hstarted : c.Started) (hclock : s.clock = c.clock)
    (hp : c.job.phase = .sweeping c.clock) (result : Outcome Nat) :
    (s.finishSweep w result).2.Followed c c.clock := by
  have hended : (s.finishSweep w result).2.job = (c.next (.swept result)).job := by
    show (w.job.finish s.clock result).1 = (c.job.finish c.clock result).1
    rw [hjob, hclock]
  have hfree : ∀ since, (c.next (.swept result)).job.phase ≠ .sweeping since := by
    intro since h
    have hfinish : (c.next (.swept result)).job = ({ c.job with phase := .waiting }.turn c.clock).1 :=
      Job.finish_of_sweeping hp c.clock result
    rw [hfinish] at h
    have hdue : c.job.ticker.due ≤ c.clock := (Job.since_of_turn rfl h).2
    have hlater := hstarted.sweeping hp
    omega
  exact Or.inr ⟨[.swept result], by simp, .of_free hended (hstarted.after [.swept result]) rfl hfree, rfl⟩

/-- A sweep that begins ends at once, or crashes, or leaves the sweeper waiting for a removal that
takes at least a second. -/
lemma followed_beginSweep (hjob : w.job = c.job) (hstarted : c.Started) (hclock : s.clock = c.clock)
    (hp : c.job.phase = .sweeping c.clock) (hremoval : w.removal = none) :
    (s.beginSweep w).2.Followed c c.clock := by
  simp only [beginSweep]
  split
  · exact Or.inl ⟨rfl, hremoval⟩
  · exact followed_finishSweep hjob hstarted hclock hp _
  · rename_i filter _
    split
    · have hremoved := sameJobs_remove { s with removals := s.removals + 1 } Ledger.history filter
      exact followed_finishSweep hjob hstarted (hremoved.clock.trans hclock) hp _
    · refine Or.inr ⟨[], by simp, ⟨hjob, hstarted, fun _ _ => by simp, ?_⟩, rfl⟩
      rintro r hr
      cases hr
      refine ⟨?_, c.clock, hjob ▸ hp⟩
      show c.clock < s.clock + s.removalTime
      omega

/-- A sweep that has just begun is carried out. -/
lemma followed_proceed (hjob : w.job = c.job) (hstarted : c.Started) (hclock : s.clock = c.clock)
    (hremoval : w.removal = none) (hnew : ∀ since, c.job.phase = .sweeping since → since = c.clock) :
    (s.proceed w).2.Followed c c.clock := by
  simp only [proceed, hjob]
  split
  case h_1 since hp =>
    rw [hnew since hp] at hp
    exact followed_beginSweep hjob hstarted hclock hp hremoval
  case h_2 hfree =>
    exact Or.inr ⟨[], by simp, .of_free hjob hstarted hremoval hfree, rfl⟩

/-- A sweeper woken for a tick follows its course through the seconds before the tick and the one in
which it is taken. -/
lemma followed_wake_tick (h : w.Follows c) (hr : w.removal = none)
    (hw : w.wakes? = some s.clock) : (s.wakeSweeper w).2.Followed c s.clock := by
  have hdue : c.job.due? = some s.clock := by
    rw [← h.job]
    simpa only [Sweeper.wakes?, hr] using hw
  have hphase : c.job.phase = .waiting := by
    simp only [Job.due?] at hdue
    split at hdue
    · assumption
    · cases hdue
  -- some seconds before the tick, and the one in which it is taken
  obtain ⟨n, hn⟩ := Nat.exists_eq_add_of_lt (h.lt_wakes hw)
  have hseconds : c.after (List.replicate n .second) = { c with clock := c.clock + n } := by
    refine Course.after_seconds h.asked ?_
    intro t ht
    rw [hdue] at ht
    cases ht
    omega
  have hcourse : c.after (List.replicate n .second ++ [.second])
      = { c with clock := s.clock, job := (c.job.turn s.clock).1 } := by
    rw [Course.after_append, hseconds, hn]
    rfl
  have hstarted := h.started.after (List.replicate n .second ++ [.second])
  refine Sweeper.Followed.of_after (o := List.replicate n .second ++ [.second]) (by simp) ?_
  rw [hcourse] at hstarted ⊢
  rw [wakeSweeper_of_none s hr]
  refine followed_proceed (s := s.report _) ?_ hstarted rfl hr ?_
  · show (w.job.turn s.clock).1 = (c.job.turn s.clock).1
    rw [h.job]
  · intro since hsince
    exact (Job.since_of_turn hphase hsince).1

/-- A sweeper woken by the end of its removal follows its course through the seconds that the
removal took, and the end of the sweep. -/
lemma followed_wake_removal (h : w.Follows c) {r : Removal} (hr : w.removal = some r)
    (hw : w.wakes? = some s.clock) : (s.wakeSweeper w).2.Followed c s.clock := by
  obtain ⟨-, since, hp⟩ := h.removing r hr
  rw [h.job] at hp
  obtain ⟨n, hn⟩ := Nat.exists_eq_add_of_le (Nat.le_of_lt (h.lt_wakes hw))
  have hseconds : c.after (List.replicate n .second) = { c with clock := s.clock } := by
    rw [hn]
    refine Course.after_seconds h.asked ?_
    intro t ht
    simp only [Job.due?, hp] at ht
    cases ht
  rw [wakeSweeper_of_some s hr]
  have hremoved := sameJobs_remove s Ledger.history r.filter
  generalize s.remove Ledger.history r.filter = outcome at hremoved
  obtain ⟨s', result⟩ := outcome
  have hnow : s'.clock = s.clock := hremoved.clock
  have hcourse : c.after (List.replicate n .second ++ [.swept result])
      = Course.next { c with clock := s.clock } (.swept result) := by
    rw [Course.after_append, hseconds]
    rfl
  have hstarted := h.started.after (List.replicate n .second ++ [.swept result])
  refine Sweeper.Followed.of_after (o := List.replicate n .second ++ [.swept result]) (by simp) ?_
  rw [hcourse] at hstarted ⊢
  refine followed_proceed ?_ hstarted hnow rfl ?_
  · show (w.job.finish s'.clock result).1 = (c.job.finish s.clock result).1
    rw [h.job, hnow]
  · intro since' hsince
    have hfinish : (Course.next { c with clock := s.clock } (.swept result)).job
        = ({ c.job with phase := .waiting }.turn s.clock).1 :=
      Job.finish_of_sweeping hp s.clock result
    rw [hfinish] at hsince
    exact (Job.since_of_turn rfl hsince).1

/-- **A sweeper that wakes follows its course** to the moment at which it wakes. -/
theorem followed_wakeSweeper (h : w.Follows c) (hw : w.wakes? = some s.clock) :
    (s.wakeSweeper w).2.Followed c s.clock := by
  cases hr : w.removal with
  | none => exact followed_wake_tick h hr hw
  | some r => exact followed_wake_removal h hr hw

/-! ## The next waking -/

/-- The soonest of some wakings is one of them, and none is sooner. -/
lemma foldl_sooner (x : Nat × Nat × Nat) (xs : List (Nat × Nat × Nat)) :
    xs.foldl sooner x ∈ x :: xs ∧ ∀ y ∈ x :: xs, (xs.foldl sooner x).1 ≤ y.1 := by
  induction xs generalizing x with
  | nil => simp
  | cons z zs ih =>
      obtain ⟨hmem, hle⟩ := ih (sooner x z)
      have hcases : sooner x z = x ∨ sooner x z = z := by
        simp only [sooner]
        split
        · exact Or.inr rfl
        · exact Or.inl rfl
      have hsooner : (sooner x z).1 ≤ x.1 ∧ (sooner x z).1 ≤ z.1 := by
        simp only [sooner]
        split <;> omega
      have hfirst : (zs.foldl sooner (sooner x z)).1 ≤ (sooner x z).1 := hle _ List.mem_cons_self
      refine ⟨?_, ?_⟩
      · rcases List.mem_cons.mp hmem with h | h
        · rw [List.foldl_cons, h]
          rcases hcases with h | h
          · simp [h]
          · simp [h]
        · exact List.mem_cons_of_mem _ (List.mem_cons_of_mem _ h)
      · intro y hy
        rw [List.foldl_cons]
        rcases List.mem_cons.mp hy with rfl | hy
        · exact Nat.le_trans hfirst hsooner.1
        · rcases List.mem_cons.mp hy with rfl | hy
          · exact Nat.le_trans hfirst hsooner.2
          · exact hle y (List.mem_cons_of_mem _ hy)

/-- The waking of a sweeper up to some time, with its turn and its place. -/
lemma wakingBy_sweeper (time i : Nat) (w : Sweeper) {x : Nat × Nat × Nat} :
    wakingBy time (i, .sweeper w) = some x
      ↔ w.wakes? = some x.1 ∧ x.1 ≤ time ∧ x.2 = (w.turn, i) := by
  obtain ⟨t, k, j⟩ := x
  simp only [wakingBy]
  cases w.wakes? with
  | none => simp
  | some u =>
      by_cases h : u ≤ time
      · simp only [h, if_true, Option.some.injEq, Prod.mk.injEq]
        constructor
        · rintro ⟨rfl, rfl, rfl⟩
          exact ⟨rfl, h, rfl, rfl⟩
        · rintro ⟨rfl, -, rfl, rfl⟩
          exact ⟨rfl, rfl, rfl⟩
      · simp only [h, if_false, Option.some.injEq, Prod.mk.injEq]
        constructor
        · intro hx
          cases hx
        · rintro ⟨rfl, ht, -⟩
          exact absurd ht h

/-- The wakings up to some time are those of the sweepers. -/
lemma mem_wakings (s : Rehearsal) (time : Nat) {x : Nat × Nat × Nat} :
    x ∈ (s.tasks.mapIdx fun i t => (i, t)).filterMap (wakingBy time)
      ↔ ∃ i w, s.tasks[i]? = some (.sweeper w) ∧ w.wakes? = some x.1 ∧ x.1 ≤ time
        ∧ x.2 = (w.turn, i) := by
  simp only [List.mem_filterMap, List.mem_mapIdx]
  constructor
  · rintro ⟨-, ⟨i, hi, rfl⟩, hx⟩
    cases htask : s.tasks[i] with
    | listener l =>
        rw [htask] at hx
        cases hx
    | sweeper w =>
        rw [htask, wakingBy_sweeper] at hx
        exact ⟨i, w, by rw [List.getElem?_eq_getElem hi, htask], hx⟩
  · rintro ⟨i, w, htask, hx⟩
    obtain ⟨hi, hget⟩ := List.getElem?_eq_some_iff.mp htask
    exact ⟨_, ⟨i, hi, rfl⟩, by rw [hget, wakingBy_sweeper]; exact hx⟩

/-- If there is no next waking, each sweeper wakes after the time in question. -/
lemma lt_wakes_of_nextWaking? {time : Nat} (h : s.nextWaking? time = none) {i t : Nat}
    (htask : s.tasks[i]? = some (.sweeper w)) (hw : w.wakes? = some t) : time < t := by
  by_contra hle
  have hmem := (mem_wakings s time (x := (t, w.turn, i))).mpr
    ⟨i, w, htask, hw, Nat.le_of_not_lt hle, rfl⟩
  simp only [nextWaking?] at h
  split at h
  case h_1 hnil =>
    rw [hnil] at hmem
    cases hmem
  case h_2 => cases h

/-- The next waking is that of a sweeper, and no sweeper wakes before it. -/
lemma exists_of_nextWaking? {time t turn i : Nat} (h : s.nextWaking? time = some (t, turn, i)) :
    ∃ w, s.tasks[i]? = some (.sweeper w) ∧ w.wakes? = some t ∧ t ≤ time
      ∧ ∀ (j : Nat) (v : Sweeper) (u : Nat),
        s.tasks[j]? = some (.sweeper v) → v.wakes? = some u → t ≤ u := by
  simp only [nextWaking?] at h
  split at h
  case h_1 => cases h
  case h_2 x xs hwakings =>
    obtain ⟨hmem, hleast⟩ := foldl_sooner x xs
    rw [Option.some.inj h, ← hwakings, mem_wakings] at hmem
    obtain ⟨i', w, htask, hw, ht, hplace⟩ := hmem
    obtain ⟨-, rfl⟩ := Prod.mk.inj hplace
    refine ⟨w, htask, hw, ht, ?_⟩
    intro j v u hv hu
    by_cases hlate : u ≤ time
    · have hother := (mem_wakings s time (x := (u, v.turn, j))).mpr ⟨j, v, hv, hu, hlate, rfl⟩
      rw [hwakings] at hother
      have hle := hleast _ hother
      rwa [Option.some.inj h] at hle
    · have ht' : t ≤ time := ht
      omega

/-! ## Moving on -/

/-- **Every sweeper follows its course**, or has crashed; the courses are named by the places of the
sweepers. -/
def OnCourse (s : Rehearsal) (cs : Nat → Course) : Prop :=
  ∀ (i : Nat) (w : Sweeper), s.tasks[i]? = some (.sweeper w) →
    w.Crashed ∨ w.Follows (cs i) ∧ (cs i).clock = s.clock

/-- Meanwhile, some courses may be behind the stopwatch, but none has missed a waking. -/
def Paced (s : Rehearsal) (cs : Nat → Course) : Prop :=
  ∀ (i : Nat) (w : Sweeper), s.tasks[i]? = some (.sweeper w) →
    w.Crashed ∨ w.Follows (cs i) ∧ (cs i).clock ≤ s.clock ∧ ∀ t, w.wakes? = some t → s.clock ≤ t

/-- Courses go on, and no job is asked to stop. -/
def GoOn (cs cs' : Nat → Course) : Prop := ∀ i, ∃ os, .stop ∉ os ∧ cs' i = (cs i).after os

lemma GoOn.trans {cs cs' cs'' : Nat → Course} (h : GoOn cs cs') (h' : GoOn cs' cs'') :
    GoOn cs cs'' := by
  intro i
  obtain ⟨os, hgoing, hos⟩ := h i
  obtain ⟨os', hgoing', hos'⟩ := h' i
  refine ⟨os ++ os', ?_, by rw [hos', hos, Course.after_append]⟩
  intro hstop
  exact (List.mem_append.mp hstop).elim hgoing hgoing'

variable {cs : Nat → Course}

/-- Where every sweeper is on course, no waking has been missed. -/
lemma OnCourse.paced (h : s.OnCourse cs) : s.Paced cs := by
  intro i w htask
  rcases h i w htask with hcrashed | ⟨hfollows, hclock⟩
  · exact Or.inl hcrashed
  · refine Or.inr ⟨hfollows, Nat.le_of_eq hclock, ?_⟩
    intro t ht
    have := hfollows.lt_wakes ht
    omega

/-- A sweeper that wakes has not crashed, and its waking is not missed. -/
lemma Paced.follows (h : s.Paced cs) {i t : Nat} (htask : s.tasks[i]? = some (.sweeper w))
    (hw : w.wakes? = some t) : w.Follows (cs i) ∧ s.clock ≤ t := by
  rcases h i w htask with hcrashed | ⟨hfollows, -, hpaced⟩
  · rw [hcrashed.wakes?] at hw
    cases hw
  · exact ⟨hfollows, hpaced t hw⟩

/-- The stopwatch may move to any time up to which no sweeper wakes. -/
lemma Paced.moved (h : s.Paced cs) (time : Nat) (htime : s.clock ≤ time)
    (hearly : ∀ (i : Nat) (w : Sweeper) (t : Nat),
      s.tasks[i]? = some (.sweeper w) → w.wakes? = some t → time ≤ t) :
    ({ s with clock := time } : Rehearsal).Paced cs := by
  intro i w htask
  rcases h i w htask with hcrashed | ⟨hfollows, hclock, -⟩
  · exact Or.inl hcrashed
  · exact Or.inr ⟨hfollows, Nat.le_trans hclock htime, fun t ht => hearly i w t htask ht⟩

/-- What is done to the job at one place concerns the course of that place only. -/
lemma forall_sweeper_set {P : Sweeper → Course → Prop} {tasks : List FleetLedger.Task}
    (h : ∀ (j : Nat) (w : Sweeper), tasks[j]? = some (.sweeper w) → P w (cs j)) {i : Nat}
    {task : FleetLedger.Task} {c : Course} (htask : ∀ w, task = .sweeper w → P w c) (j : Nat)
    (w : Sweeper) (hw : (tasks.set i task)[j]? = some (.sweeper w)) :
    P w (Function.update cs i c j) := by
  rw [List.getElem?_set] at hw
  by_cases hj : i = j
  · subst hj
    rw [if_pos rfl] at hw
    split at hw
    · rw [Function.update_self]
      exact htask w (Option.some.inj hw)
    · cases hw
  · rw [if_neg hj] at hw
    rw [Function.update_of_ne (Ne.symm hj)]
    exact h j w hw

/-- If no sweeper wakes up to some time, letting all the seconds until then pass puts every sweeper
on course. -/
lemma Paced.onCourse (h : s.Paced cs) {time : Nat} (htime : s.clock ≤ time)
    (hover : ∀ (i : Nat) (w : Sweeper) (t : Nat),
      s.tasks[i]? = some (.sweeper w) → w.wakes? = some t → time < t) :
    ∃ cs', GoOn cs cs' ∧ ({ s with clock := time } : Rehearsal).OnCourse cs' := by
  have hcourse : ∀ i, ∃ c, (∃ os, .stop ∉ os ∧ c = (cs i).after os) ∧ ∀ w : Sweeper,
      s.tasks[i]? = some (.sweeper w) → w.Crashed ∨ w.Follows c ∧ c.clock = time := by
    intro i
    by_cases hfollowed : ∃ w : Sweeper, s.tasks[i]? = some (.sweeper w) ∧ ¬ w.Crashed
    · obtain ⟨w, htask, hcrashed⟩ := hfollowed
      obtain ⟨hfollows, hclock, -⟩ := (h i w htask).resolve_left hcrashed
      obtain ⟨os, hgoing, hlater⟩ := hfollows.seconds (Nat.le_trans hclock htime) fun t ht =>
        hover i w t htask ht
      refine ⟨(cs i).after os, ⟨os, hgoing, rfl⟩, ?_⟩
      intro v hv
      rw [htask] at hv
      cases hv
      exact Or.inr hlater
    · refine ⟨cs i, ⟨[], by simp, rfl⟩, ?_⟩
      intro w htask
      by_contra hnot
      exact hfollowed ⟨w, htask, fun hcrashed => hnot (Or.inl hcrashed)⟩
  choose cs' hgo hcourse using hcourse
  exact ⟨cs', hgo, hcourse⟩

/-! ## Wakings are limited -/

/-- In how many of the seconds up to some time a job may wake. -/
def workloadOf (time : Nat) : FleetLedger.Task → Nat
  | .sweeper w => (w.wakes?.map fun t => time + 1 - t).getD 0
  | .listener _ => 0

/-- In how many seconds some jobs may wake, counting each job by itself. -/
def workload (time : Nat) : List FleetLedger.Task → Nat
  | [] => 0
  | task :: tasks => workloadOf time task + workload time tasks

/-- There is less to do where there is less to do for one job. -/
lemma workload_set_lt {time i : Nat} {tasks : List FleetLedger.Task} {old new : FleetLedger.Task}
    (h : tasks[i]? = some old) (hless : workloadOf time new < workloadOf time old) :
    workload time (tasks.set i new) < workload time tasks := by
  induction tasks generalizing i with
  | nil => cases h
  | cons task tasks ih =>
      cases i with
      | zero =>
          cases h
          simp only [List.set_cons_zero, workload]
          omega
      | succ i =>
          have hrest := ih (i := i) h
          simp only [List.set_cons_succ, workload]
          omega

lemma workload_le {time most : Nat} {tasks : List FleetLedger.Task}
    (h : ∀ task ∈ tasks, workloadOf time task ≤ most) :
    workload time tasks ≤ most * tasks.length := by
  induction tasks with
  | nil => exact Nat.zero_le _
  | cons task tasks ih =>
      have hfirst := h task List.mem_cons_self
      have hrest := ih fun other hother => h other (List.mem_cons_of_mem _ hother)
      simp only [workload, List.length_cons, Nat.mul_succ]
      omega

lemma workloadOf_le (time : Nat) {task : FleetLedger.Task} {tasks : List FleetLedger.Task}
    (h : task ∈ tasks) : workloadOf time task ≤ workload time tasks := by
  induction tasks with
  | nil => cases h
  | cons other tasks ih =>
      simp only [workload]
      rcases List.mem_cons.mp h with rfl | h
      · omega
      · have hrest := ih h
        omega

/-- No sweeper wakes twice in a second, and none in the second that has begun: `advance` allows for
enough wakings. -/
lemma OnCourse.workload_le (h : s.OnCourse cs) (seconds : Nat) :
    workload (s.clock + seconds) s.tasks ≤ (seconds + 1) * s.tasks.length := by
  refine Rehearsal.workload_le ?_
  intro task htask
  cases task with
  | listener l => exact Nat.zero_le _
  | sweeper w =>
      obtain ⟨i, hi⟩ := List.getElem?_of_mem htask
      rw [workloadOf]
      cases hw : w.wakes? with
      | none => exact Nat.zero_le _
      | some t =>
          have hlater := (h.paced.follows hi hw).2
          show s.clock + seconds + 1 - t ≤ seconds + 1
          omega

/-- Where nothing is left to do, no sweeper wakes any more. -/
lemma lt_wakes_of_workload {time : Nat} (h : workload time s.tasks = 0) {i t : Nat}
    (htask : s.tasks[i]? = some (.sweeper w)) (hw : w.wakes? = some t) : time < t := by
  have hnone := workloadOf_le time (List.mem_of_getElem? htask)
  rw [h, workloadOf, hw] at hnone
  have hover : time + 1 - t ≤ 0 := hnone
  omega

/-- A waking replaces the sweeper at its place, and moves it to the end of the queue. -/
lemma tasks_wakeAt {i : Nat} (htask : s.tasks[i]? = some (.sweeper w)) :
    (s.wakeAt i).tasks = s.tasks.set i (.sweeper { (s.wakeSweeper w).2 with
      turn := (s.wakeSweeper w).1.turns }) ∧ (s.wakeAt i).clock = s.clock := by
  have hsame := sameJobs_wakeSweeper s w
  simp only [wakeAt, htask]
  exact ⟨by rw [hsame.tasks], hsame.clock⟩

/-- **A waking** keeps the pace, and there is less left to do. -/
theorem Paced.wakeAt (h : s.Paced cs) {i : Nat} (time : Nat) (htime : s.clock ≤ time)
    (htask : s.tasks[i]? = some (.sweeper w)) (hw : w.wakes? = some s.clock) :
    ∃ cs', GoOn cs cs' ∧ (s.wakeAt i).Paced cs'
      ∧ workload time (s.wakeAt i).tasks < workload time s.tasks := by
  obtain ⟨htasks, hclock⟩ := tasks_wakeAt htask
  obtain ⟨hfollows, -⟩ := h.follows htask hw
  have hfollowed := followed_wakeSweeper hfollows hw
  generalize (s.wakeSweeper w).2 = v at htasks hfollowed
  generalize (s.wakeSweeper w).1.turns = turns at htasks
  -- the course of this sweeper goes on to the clock, if it goes on at all
  obtain ⟨os, hgoing, hos⟩ : ∃ os, .stop ∉ os ∧ (v.Crashed ∨ v.Follows ((cs i).after os)
      ∧ ((cs i).after os).clock = s.clock) := by
    rcases hfollowed with hcrashed | ⟨os, hgoing, hos⟩
    · exact ⟨[], by simp, Or.inl hcrashed⟩
    · exact ⟨os, hgoing, Or.inr hos⟩
  have hlater : ∀ t, v.wakes? = some t → s.clock < t := by
    intro t ht
    rcases hos with hcrashed | ⟨hv, hnow⟩
    · rw [hcrashed.wakes?] at ht
      cases ht
    · rw [← hnow]
      exact hv.lt_wakes ht
  refine ⟨Function.update cs i ((cs i).after os), ?_, ?_, ?_⟩
  · intro j
    by_cases hj : j = i
    · subst hj
      exact ⟨os, hgoing, Function.update_self ..⟩
    · exact ⟨[], by simp, Function.update_of_ne hj ..⟩
  · rw [Paced, htasks, hclock]
    refine forall_sweeper_set (P := fun u c => u.Crashed ∨ u.Follows c ∧ c.clock ≤ s.clock
      ∧ ∀ t, u.wakes? = some t → s.clock ≤ t) h ?_
    rintro u hu
    cases hu
    rcases hos with hcrashed | ⟨hv, hnow⟩
    · exact Or.inl hcrashed
    · refine Or.inr ⟨⟨hv.job, hv.started, hv.busy, hv.removing⟩, Nat.le_of_eq hnow, ?_⟩
      intro t ht
      exact Nat.le_of_lt (hlater t ht)
  · rw [htasks]
    refine workload_set_lt htask ?_
    show (v.wakes?.map fun t => time + 1 - t).getD 0 < (w.wakes?.map fun t => time + 1 - t).getD 0
    rw [hw]
    cases hv : v.wakes? with
    | none =>
        show 0 < time + 1 - s.clock
        omega
    | some t =>
        have := hlater t hv
        show time + 1 - t < time + 1 - s.clock
        omega

/-- With enough wakings allowed, moving on to some time puts every sweeper on course. -/
lemma Paced.advanceTo {time : Nat} (h : s.Paced cs) (htime : s.clock ≤ time) {wakings : Nat}
    (henough : workload time s.tasks ≤ wakings) :
    ∃ cs', GoOn cs cs' ∧ (s.advanceTo time wakings).OnCourse cs' := by
  induction wakings generalizing s cs with
  | zero =>
      refine h.onCourse htime ?_
      intro i w t htask hw
      exact lt_wakes_of_workload (Nat.le_zero.mp henough) htask hw
  | succ wakings ih =>
      simp only [Rehearsal.advanceTo]
      split
      case h_1 hnone =>
        refine h.onCourse htime ?_
        intro i w t htask hw
        exact lt_wakes_of_nextWaking? hnone htask hw
      case h_2 t turn i hnext =>
        obtain ⟨w, htask, hw, ht, hfirst⟩ := exists_of_nextWaking? hnext
        have hnow : max s.clock t = t := Nat.max_eq_right (h.follows htask hw).2
        have hmoved := h.moved t (by omega) hfirst
        obtain ⟨cs', hgo, hpaced, hless⟩ := hmoved.wakeAt (i := i) time ht htask hw
        rw [hnow]
        have htime' : (({ s with clock := t } : Rehearsal).wakeAt i).clock ≤ time := by
          rw [(tasks_wakeAt (s := { s with clock := t }) htask).2]
          exact ht
        have hleft := Nat.le_of_lt_succ (Nat.lt_of_lt_of_le hless henough)
        obtain ⟨cs'', hgo', hcourse⟩ := ih hpaced htime' hleft
        exact ⟨cs'', hgo.trans hgo', hcourse⟩

/-- Letting some seconds pass keeps every sweeper on course. -/
lemma OnCourse.advance (h : s.OnCourse cs) (seconds : Nat) :
    ∃ cs', GoOn cs cs' ∧ (s.advance seconds).OnCourse cs' :=
  h.paced.advanceTo (Nat.le_add_right s.clock seconds) (h.workload_le seconds)

/-! ## Starting and stopping -/

/-- A sweeper that starts follows a course that starts. -/
lemma OnCourse.start (h : s.OnCourse cs) (period expiration : Nat) :
    ((startSweeper period expiration).run.run s).2.OnCourse
      (Function.update cs s.tasks.length (.start s.clock period expiration)) := by
  intro i w htask
  have htasks : ((startSweeper period expiration).run.run s).2.tasks = s.tasks
      ++ [.sweeper ⟨(Job.start s.clock period expiration).1, none, s.turns⟩] := rfl
  rw [htasks, List.getElem?_append] at htask
  split at htask
  case isTrue hi =>
    rw [Function.update_of_ne (Nat.ne_of_lt hi)]
    exact h i w htask
  case isFalse hi =>
    obtain ⟨hlast, hw⟩ := List.getElem?_eq_some_iff.mp htask
    obtain rfl : i = s.tasks.length := by
      simp only [List.length_singleton] at hlast
      omega
    rw [Function.update_self]
    simp only [Nat.sub_self, List.getElem_cons_zero, FleetLedger.Task.sweeper.injEq] at hw
    subst hw
    refine Or.inr ⟨.of_free rfl ⟨s.clock, period, expiration, [], rfl⟩ rfl ?_, rfl⟩
    intro since hp
    simp only [Course.start, Job.start] at hp
    split at hp <;> cases hp

/-- A sweeper that is asked to stop follows its course through the request. -/
lemma followed_cancel (h : w.Follows c) :
    ({ w with job := (w.job.cancel c.clock).1 } : Sweeper).Follows (c.next .stop) := by
  have hstarted := h.started.after [.stop]
  have hjob : (w.job.cancel c.clock).1 = (c.next .stop).job := by
    show (w.job.cancel c.clock).1 = (c.job.cancel c.clock).1
    rw [h.job]
  rcases c.job.phase.free_or_sweeping with hfree | ⟨since, hp⟩
  · have hremoval : w.removal = none := by
      by_contra hsome
      obtain ⟨r, hr⟩ := Option.ne_none_iff_exists'.mp hsome
      obtain ⟨-, since, hp⟩ := h.removing r hr
      rw [h.job] at hp
      exact hfree since hp
    have hstopped := (Job.turn_free (j := { c.job with asked := true }) rfl hfree c.clock).2
    exact .of_free hjob hstarted hremoval hstopped
  · have hphase : w.job.phase = .sweeping since := by rw [h.job, hp]
    have hbusy : (w.job.cancel c.clock).1.phase = .sweeping since := by
      rw [hjob]
      exact (Course.next_of_sweeping (o := .stop) hp (by simp)).1
    refine ⟨hjob, hstarted, fun _ _ => h.busy since hphase, ?_⟩
    intro r hr
    exact ⟨(h.removing r hr).1, since, hbusy⟩

lemma OnCourse.set (h : s.OnCourse cs) {i : Nat} (task : FleetLedger.Task) {c : Course}
    (htask : ∀ w, task = .sweeper w → w.Crashed ∨ w.Follows c ∧ c.clock = s.clock)
    {s' : Rehearsal} (htasks : s'.tasks = s.tasks.set i task) (hclock : s'.clock = s.clock) :
    s'.OnCourse (Function.update cs i c) := by
  rw [OnCourse, htasks, hclock]
  exact forall_sweeper_set (P := fun u c => u.Crashed ∨ u.Follows c ∧ c.clock = s.clock) h htask

lemma crashed_cancel (h : w.Crashed) (now : Nat) :
    ({ w with job := (w.job.cancel now).1 } : Sweeper).Crashed := by
  refine ⟨?_, h.2⟩
  have hover : ({ w.job with asked := true } : Job).phase ≠ .waiting := by
    show w.job.phase ≠ .waiting
    simp [h.1]
  show (Job.turn { w.job with asked := true } now).1.phase = .failed
  rw [Job.turn_of_busy hover]
  exact h.1

lemma run_modify (f : Rehearsal → Rehearsal) (s : Rehearsal) :
    ((modify f : Action Unit).run.run s).2 = f s := rfl

/-- Asking a job to stop keeps every sweeper on course, be there a job at that place or not. -/
lemma OnCourse.cancel (h : s.OnCourse cs) (i : Nat) :
    ((Rehearsal.cancel i).run.run s).2.OnCourse (Function.update cs i ((cs i).next .stop)) := by
  rw [Rehearsal.cancel, run_modify]
  cases htask : s.tasks[i]? with
  | none =>
      have hout := List.getElem?_eq_none_iff.mp htask
      refine h.set (.listener ⟨0, "", true⟩) ?_ (List.set_eq_of_length_le hout).symm rfl
      intro w hw
      cases hw
  | some task =>
      cases task with
      | listener l =>
          refine h.set (.listener { l with finished := true }) ?_ rfl rfl
          intro w hw
          cases hw
      | sweeper w =>
          refine h.set (.sweeper { w with job := (w.job.cancel s.clock).1 }) ?_ rfl rfl
          intro v hv
          cases hv
          rcases h i w htask with hcrashed | ⟨hfollows, hclock⟩
          · exact Or.inl (crashed_cancel hcrashed s.clock)
          · rw [← hclock]
            exact Or.inr ⟨followed_cancel hfollows, rfl⟩

/-! ## Rehearsals -/

/-- What can be done with the jobs of a rehearsal; and anything else, as long as it leaves the
stopwatch and the sweepers alone. -/
inductive Move : Rehearsal → Rehearsal → Prop where
  | start (s : Rehearsal) (period expiration : Nat) :
    Move s ((startSweeper period expiration).run.run s).2
  | cancel (s : Rehearsal) (i : Nat) : Move s ((Rehearsal.cancel i).run.run s).2
  | advance (s : Rehearsal) (seconds : Nat) : Move s (s.advance seconds)
  | aside {s s' : Rehearsal} (clock : s'.clock = s.clock)
    (sweepers : ∀ (i : Nat) (w : Sweeper), s'.tasks[i]? = some (.sweeper w) →
      s.tasks[i]? = some (.sweeper w)) : Move s s'

/-- **Sweepers follow courses.**  Whatever is done in a rehearsal that began without jobs: each
sweeper, unless it found the calendar unreadable, is where a job that was started once has come to by
now, as seconds passed, sweeps ended and requests to stop were made in some order. -/
theorem sweepers_follow_courses {s₀ s : Rehearsal} (hnew : s₀.tasks = [])
    (hmoves : Relation.ReflTransGen Move s₀ s) :
    ∀ (i : Nat) (w : Sweeper), s.tasks[i]? = some (.sweeper w) →
      w.Crashed ∨ ∃ start period expiration os,
        w.job = ((Course.start start period expiration).after os).job
          ∧ ((Course.start start period expiration).after os).clock = s.clock := by
  have hcourse : ∃ cs, s.OnCourse cs := by
    induction hmoves with
    | refl =>
        refine ⟨fun _ => .start 0 0 0, ?_⟩
        intro i w htask
        rw [hnew] at htask
        cases htask
    | tail _ hmove ih =>
        obtain ⟨cs, h⟩ := ih
        cases hmove with
        | start period expiration => exact ⟨_, h.start period expiration⟩
        | cancel i => exact ⟨_, h.cancel i⟩
        | advance seconds =>
            obtain ⟨cs', -, hcourse⟩ := h.advance seconds
            exact ⟨cs', hcourse⟩
        | aside clock sweepers =>
            refine ⟨cs, ?_⟩
            intro i w htask
            rw [clock]
            exact h i w (sweepers i w htask)
  obtain ⟨cs, hcourse⟩ := hcourse
  intro i w htask
  rcases hcourse i w htask with hcrashed | ⟨hfollows, hclock⟩
  · exact Or.inl hcrashed
  · obtain ⟨start, period, expiration, os, hos⟩ := hfollows.started
    rw [hos] at hclock
    exact Or.inr ⟨start, period, expiration, os, hos ▸ hfollows.job, hclock⟩

end Rehearsal

end FleetLedger
