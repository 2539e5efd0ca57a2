import Mathlib.Data.List.Induction
import FleetLedger.Background.Retention

/-!
# Sweeps are on time

A course is a job together with what happens around it, in whatever order: a second passes, the
sweep under way ends, the job is asked to stop.  How long a sweep takes is how many seconds pass
before it ends.  What is to be shown of all courses is when sweeps begin.

The ticker only knows its next tick, and a sweep only the tick that it began with.  `Course.OnTime`
ties them to the sweeps so far: while the job waits, the next tick is due when the next sweep is; and
while it sweeps, one period after the sweep began, so that what is left to decide when the sweep ends
is whether that moment is over.  Every occasion keeps this (`OnTime.next`).

Once the job is asked to stop there is nothing to decide any more: `begun_after_of_asked`.  The main
statement is **`sweeps_on_time`**.
-/

namespace FleetLedger.Retention

/-- What happens around a job. -/
inductive Occasion where
  | second
  /-- The sweep under way ends. -/
  | swept (result : Outcome Nat)
  | stop

/-- The same occasion, but for what a sweep gave. -/
def Occasion.withResult (f : Outcome Nat → Outcome Nat) : Occasion → Occasion
  | swept result => swept (f result)
  | o => o

/-- When a sweep began and when it ended, in seconds. -/
structure Sweep where
  began : Nat
  ended : Nat
  deriving DecidableEq

/-- A job, the time, and the sweeps that have ended. -/
structure Course where
  job : Job
  clock : Nat
  past : List Sweep := []
  deriving DecidableEq

/-- A ticker on whole seconds: whether a tick is taken in time or late, the next is due one period
after it was taken. -/
lemma Ticker.take?_eq (k : Ticker) (now : Nat) :
    k.take? now = if now < k.due then none else some { k with due := now + k.period } := by
  simp only [take?]
  split
  case isTrue => rfl
  case isFalse hdue =>
    split
    case isTrue => rfl
    case isFalse hlate =>
      have heq : k.due = now := by omega
      rw [heq]

/-! ## When sweeps are due -/

section Due

variable (start period : Nat)

/-- When the next sweep is due after those that have begun so far: one period after the last of them
began, or when it ended if that was later; the first one, one period after the start. -/
def dueAfter (sweeps : List Sweep) : Nat :=
  match sweeps.getLast? with
  | none => start + period
  | some s => max (s.began + period) s.ended

/-- After a sweep the next one is due one period after its beginning, or at its end if that is
later. -/
@[simp] lemma dueAfter_concat (sweeps : List Sweep) (s : Sweep) :
    dueAfter start period (sweeps ++ [s]) = max (s.began + period) s.ended := by
  simp [dueAfter]

/-- **Each sweep began when it was due.** -/
def Punctual (sweeps : List Sweep) : Prop :=
  ∀ earlier s later, sweeps = earlier ++ s :: later →
    s.began = dueAfter start period earlier ∧ s.began ≤ s.ended

variable {start period} {sweeps : List Sweep} {s : Sweep}

/-- Punctual sweeps stay so with one more that began when it was due. -/
lemma Punctual.concat (h : Punctual start period sweeps)
    (hdue : s.began = dueAfter start period sweeps) (hended : s.began ≤ s.ended) :
    Punctual start period (sweeps ++ [s]) := by
  intro earlier x later hsplit
  cases later using List.reverseRecOn with
  | nil =>
      obtain ⟨rfl, hx⟩ := List.append_inj' hsplit rfl
      obtain rfl : s = x := by simpa using hx
      exact ⟨hdue, hended⟩
  | append_singleton later y =>
      rw [← List.cons_append, ← List.append_assoc] at hsplit
      exact h earlier x later (List.append_inj' hsplit rfl).1

lemma Punctual.of_append {more : List Sweep} (h : Punctual start period (sweeps ++ more)) :
    Punctual start period sweeps := by
  intro earlier x later hsplit
  refine h earlier x (later ++ more) ?_
  rw [hsplit, List.append_assoc]
  rfl

lemma Punctual.last (h : Punctual start period (sweeps ++ [s])) :
    s.began = dueAfter start period sweeps ∧ s.began ≤ s.ended := h sweeps s [] rfl

/-- Punctual sweeps do not overlap, and begin at least one period apart. -/
lemma Punctual.pairwise (h : Punctual start period sweeps) :
    sweeps.Pairwise fun a b => a.ended ≤ b.began ∧ a.began + period ≤ b.began := by
  induction sweeps using List.reverseRecOn with
  | nil => exact List.Pairwise.nil
  | append_singleton sweeps s ih =>
      refine List.pairwise_append.mpr ⟨ih h.of_append, List.pairwise_singleton _ _, ?_⟩
      intro a ha b hb
      obtain rfl : b = s := List.mem_singleton.mp hb
      obtain ⟨hdue, -⟩ := h.last
      -- the last sweep before this one is the one that counts; the others end before it begins
      cases sweeps using List.reverseRecOn with
      | nil => cases ha
      | append_singleton sweeps l _ =>
          rw [dueAfter_concat] at hdue
          rcases List.mem_append.mp ha with ha | ha
          · obtain ⟨hended, hbegan⟩ :=
              (List.pairwise_append.mp (ih h.of_append)).2.2 a ha l (List.mem_singleton_self l)
            omega
          · obtain rfl : a = l := List.mem_singleton.mp ha
            omega

end Due

/-! ## Courses -/

namespace Course

/-- A job that starts now, with no sweep behind it. -/
def start (now period expiration : Nat) : Course where
  job := (Job.start now period expiration).1
  clock := now

/-- The sweep under way, which has lasted until now. -/
def current (c : Course) : List Sweep :=
  match c.job.phase with
  | .sweeping since => [⟨since, c.clock⟩]
  | _ => []

/-- The sweeps so far, the one under way at the end. -/
def sweeps (c : Course) : List Sweep := c.past ++ c.current

/-- What an occasion makes of a course: the job takes its turn each second, and a sweep that ends is
noted. -/
def next (c : Course) : Occasion → Course
  | .second => { c with clock := c.clock + 1, job := (c.job.turn (c.clock + 1)).1 }
  | .swept result => { c with job := (c.job.finish c.clock result).1, past := c.sweeps }
  | .stop => { c with job := (c.job.cancel c.clock).1 }

/-- A course after some occasions. -/
def after (c : Course) (os : List Occasion) : Course := os.foldl next c

lemma after_append (c : Course) (os os' : List Occasion) :
    c.after (os ++ os') = (c.after os).after os' := List.foldl_append

/-- Only seconds move the clock, whatever the job does. -/
lemma clock_after {c d : Course} (h : c.clock = d.clock) (os : List Occasion) :
    (c.after os).clock = (d.after os).clock := by
  induction os generalizing c d with
  | nil => exact h
  | cons o os ih =>
      refine ih ?_
      cases o with
      | second => exact congrArg (· + 1) h
      | _ => exact h

/-- When the sweeps so far began. -/
def begun (c : Course) : List Nat := c.sweeps.map (·.began)

lemma sweeps_of_sweeping {c : Course} {since : Nat} (h : c.job.phase = .sweeping since) :
    c.sweeps = c.past ++ [⟨since, c.clock⟩] := by
  simp only [sweeps, current, h]

/-- A job that is free has no sweep but those that have ended. -/
lemma sweeps_of_free {c : Course} (h : ∀ since, c.job.phase ≠ .sweeping since) :
    c.sweeps = c.past := by
  cases hp : c.job.phase with
  | sweeping since => exact absurd hp (h since)
  | _ => simp only [sweeps, current, hp, List.append_nil]

end Course

/-! ## What a job does when it is free -/

/-- A job is free, or in a sweep that began at some time. -/
lemma Phase.free_or_sweeping (p : Phase) :
    (∀ since, p ≠ .sweeping since) ∨ ∃ since, p = .sweeping since := by
  cases p with
  | sweeping since => exact Or.inr ⟨since, rfl⟩
  | _ => exact Or.inl fun since h => by cases h

namespace Job

variable {j : Job}

/-- A waiting job takes the tick that is due, and sweeps; otherwise it stays as it is. -/
lemma turn_of_waiting (hphase : j.phase = .waiting) (hasked : j.asked = false) (now : Nat) :
    (j.turn now).1 = if now < j.ticker.due then j
      else { j with
        ticker := { j.ticker with due := now + j.ticker.period }
        phase := .sweeping now } := by
  simp only [turn, hphase, hasked, Ticker.take?_eq, Bool.false_eq_true, if_false]
  by_cases hdue : now < j.ticker.due
  · simp only [if_pos hdue]
  · simp only [if_neg hdue]

/-- A waiting job that was asked to stop does so with its next turn, be a tick due or not. -/
lemma turn_of_asked (hphase : j.phase = .waiting) (hasked : j.asked = true) (now : Nat) :
    (j.turn now).1 = { j with phase := .stopped } := by
  simp only [turn, hphase, hasked, if_true]

/-- A turn does nothing to a job that does not wait. -/
lemma turn_of_busy (hphase : j.phase ≠ .waiting) (now : Nat) : j.turn now = (j, []) := by
  cases h : j.phase with
  | waiting => exact absurd h hphase
  | _ => simp only [turn, h]

/-- A turn neither asks the job to stop nor takes that back. -/
lemma asked_turn (j : Job) (now : Nat) : (j.turn now).1.asked = j.asked := by
  simp only [turn]
  split
  · split
    · rfl
    · cases j.ticker.take? now <;> rfl
  · rfl

/-- With the end of its sweep the job waits, and has its turn at once; what the sweep gave makes no
difference. -/
lemma finish_of_sweeping {since : Nat} (hphase : j.phase = .sweeping since) (now : Nat)
    (result : Outcome Nat) :
    (j.finish now result).1 = ({ j with phase := .waiting }.turn now).1 := by
  simp only [finish, hphase]

/-- Where no sweep is under way, none ends. -/
lemma finish_of_free (hphase : ∀ since, j.phase ≠ .sweeping since) (now : Nat)
    (result : Outcome Nat) : j.finish now result = (j, []) := by
  cases h : j.phase with
  | sweeping since => exact absurd h (hphase since)
  | _ => simp only [finish, h]

lemma asked_finish (j : Job) (now : Nat) (result : Outcome Nat) :
    (j.finish now result).1.asked = j.asked := by
  rcases j.phase.free_or_sweeping with hfree | ⟨since, hp⟩
  · rw [finish_of_free hfree]
  · rw [finish_of_sweeping hp, asked_turn]

end Job

/-! ## Every occasion keeps the time -/

namespace Course

variable {start period : Nat} {c : Course}

/-- **A course is on time**: all sweeps so far began when they were due, and the ticker says when the
next one is. -/
structure OnTime (start period : Nat) (c : Course) : Prop where
  period_eq : c.job.ticker.period = period
  punctual : Punctual start period c.sweeps
  phase : match c.job.phase with
    | .waiting => c.job.asked = false ∧ c.clock < c.job.ticker.due
        ∧ c.job.ticker.due = dueAfter start period c.past
    | .sweeping since => c.job.ticker.due = since + period
    | .stopped => c.job.asked = true
    | .failed => False

section Occasions

variable {j : Job} {clock : Nat} {past : List Sweep}

lemma next_second : next ⟨j, clock, past⟩ .second = ⟨(j.turn (clock + 1)).1, clock + 1, past⟩ :=
  rfl

lemma next_swept (result : Outcome Nat) : next ⟨j, clock, past⟩ (.swept result)
    = ⟨(j.finish clock result).1, clock, sweeps ⟨j, clock, past⟩⟩ := rfl

lemma next_stop : next ⟨j, clock, past⟩ .stop = ⟨(j.cancel clock).1, clock, past⟩ := rfl

/-- A job that waits takes the tick if it is due, and then a sweep is due, too. -/
lemma onTime_turn (hp : j.phase = .waiting) (hasked : j.asked = false)
    (hperiod : j.ticker.period = period) (hpast : Punctual start period past)
    (hearly : clock < j.ticker.due → j.ticker.due = dueAfter start period past)
    (hdue : j.ticker.due ≤ clock → clock = dueAfter start period past) :
    OnTime start period ⟨(j.turn clock).1, clock, past⟩ := by
  rw [Job.turn_of_waiting hp hasked]
  split
  case isTrue hlt =>
    refine ⟨hperiod, ?_, ?_⟩
    · rw [sweeps_of_free (by simp [hp])]
      exact hpast
    · simp only [hp]
      exact ⟨hasked, hlt, hearly hlt⟩
  case isFalse hle =>
    refine ⟨hperiod, ?_, ?_⟩
    · rw [sweeps_of_sweeping rfl]
      exact hpast.concat (hdue (Nat.le_of_not_lt hle)) (Nat.le_refl _)
    · exact congrArg (clock + ·) hperiod

/-- A second keeps the course on time: the tick it may bring is not late. -/
lemma OnTime.second (h : OnTime start period ⟨j, clock, past⟩) :
    OnTime start period (next ⟨j, clock, past⟩ .second) := by
  have hphase := h.phase
  have hpunctual := h.punctual
  rw [next_second]
  cases hp : j.phase with
  | waiting =>
      obtain ⟨hasked, hearly, hdue⟩ : j.asked = false ∧ clock < j.ticker.due
          ∧ j.ticker.due = dueAfter start period past := by simpa only [hp] using hphase
      -- a second ago the tick was not due, so it is not late
      exact onTime_turn hp hasked h.period_eq hpunctual.of_append (fun _ => hdue) fun hle => by omega
  | sweeping since =>
      rw [sweeps_of_sweeping hp] at hpunctual
      obtain ⟨hbegan, hended⟩ := hpunctual.last
      rw [Job.turn_of_busy (by simp [hp])]
      refine ⟨h.period_eq, ?_, ?_⟩
      · rw [sweeps_of_sweeping hp]
        exact hpunctual.of_append.concat hbegan (Nat.le_succ_of_le hended)
      · simpa only [hp] using hphase
  | stopped =>
      rw [sweeps_of_free (by simp [hp])] at hpunctual
      rw [Job.turn_of_busy (by simp [hp])]
      refine ⟨h.period_eq, ?_, ?_⟩
      · rw [sweeps_of_free (by simp [hp])]
        exact hpunctual
      · simpa only [hp] using hphase
  | failed => simp only [hp] at hphase

/-- The end of a sweep keeps the course on time: the tick after it is overdue exactly if the sweep
took longer than a period, and is taken at once then. -/
lemma OnTime.swept (h : OnTime start period ⟨j, clock, past⟩) (result : Outcome Nat) :
    OnTime start period (next ⟨j, clock, past⟩ (.swept result)) := by
  have hphase := h.phase
  have hpunctual := h.punctual
  rw [next_swept]
  rcases j.phase.free_or_sweeping with hfree | ⟨since, hp⟩
  · rw [Job.finish_of_free hfree, sweeps_of_free hfree]
    exact h
  · have hdue : j.ticker.due = since + period := by simpa only [hp] using hphase
    have hnext : dueAfter start period (past ++ [⟨since, clock⟩]) = max (since + period) clock :=
      dueAfter_concat ..
    rw [sweeps_of_sweeping hp] at hpunctual
    rw [Job.finish_of_sweeping hp, sweeps_of_sweeping hp]
    by_cases hasked : j.asked = true
    · rw [Job.turn_of_asked (j := { j with phase := .waiting }) rfl hasked]
      refine ⟨h.period_eq, ?_, hasked⟩
      rw [sweeps_of_free (by simp)]
      exact hpunctual
    · -- the tick is overdue if the sweep took longer than a period
      refine onTime_turn rfl (Bool.eq_false_iff.mpr hasked) h.period_eq hpunctual ?_ ?_
      · intro (hearly : clock < j.ticker.due)
        show j.ticker.due = dueAfter start period (past ++ [⟨since, clock⟩])
        omega
      · intro (hlate : j.ticker.due ≤ clock)
        show clock = dueAfter start period (past ++ [⟨since, clock⟩])
        omega

/-- A request to stop keeps the course on time. -/
lemma OnTime.stop (h : OnTime start period ⟨j, clock, past⟩) :
    OnTime start period (next ⟨j, clock, past⟩ .stop) := by
  have hphase := h.phase
  rw [next_stop, Job.cancel]
  by_cases hp : j.phase = .waiting
  · rw [Job.turn_of_asked (j := { j with asked := true }) hp rfl]
    refine ⟨h.period_eq, ?_, rfl⟩
    rw [sweeps_of_free (by simp)]
    exact h.punctual.of_append
  · rw [Job.turn_of_busy (j := { j with asked := true }) hp]
    refine ⟨h.period_eq, h.punctual, ?_⟩
    cases hbusy : j.phase with
    | waiting => exact absurd hbusy hp
    | stopped => rfl
    | sweeping since => simpa only [hbusy] using hphase
    | failed => simp only [hbusy] at hphase

end Occasions

/-- **Whatever happens, a course stays on time.** -/
theorem OnTime.after (h : OnTime start period c) (os : List Occasion) :
    OnTime start period (c.after os) := by
  induction os generalizing c with
  | nil => exact h
  | cons o os ih =>
      refine ih ?_
      cases o with
      | second => exact h.second
      | swept result => exact h.swept result
      | stop => exact h.stop

/-- A job with a period that its clock can measure starts on time. -/
lemma onTime_start {period : Nat} (hperiod : 0 < period) (hlong : period ≤ longestPeriod)
    (now expiration : Nat) : OnTime now period (.start now period expiration) := by
  have hfit : ¬ (period = 0 ∨ longestPeriod < period) := by omega
  have hphase : (Course.start now period expiration).job.phase = .waiting := by
    simp only [Course.start, Job.start, if_neg hfit]
  refine ⟨rfl, ?_, ?_⟩
  · rw [sweeps_of_free (by simp [hphase])]
    intro earlier s later hsplit
    cases earlier <;> cases hsplit
  · simp only [hphase]
    exact ⟨rfl, Nat.lt_add_of_pos_right hperiod, rfl⟩

end Course

/-! ## Being asked to stop -/

/-- A job that was asked to stop and is free begins no sweep with its turn. -/
lemma Job.turn_free {j : Job} (hasked : j.asked = true) (hfree : ∀ since, j.phase ≠ .sweeping since)
    (now : Nat) :
    (j.turn now).1.asked = true ∧ ∀ since, (j.turn now).1.phase ≠ .sweeping since := by
  by_cases hp : j.phase = .waiting
  · rw [turn_of_asked hp hasked]
    exact ⟨hasked, by simp⟩
  · rw [turn_of_busy hp]
    exact ⟨hasked, hfree⟩

namespace Course

variable {c : Course} {since : Nat}

/-- Only its end takes a job out of a sweep. -/
lemma next_of_sweeping (hp : c.job.phase = .sweeping since) {o : Occasion}
    (hquiet : ∀ result, o ≠ .swept result) :
    (c.next o).job.phase = .sweeping since ∧ (c.next o).past = c.past
      ∧ (c.job.asked = true → (c.next o).job.asked = true) := by
  obtain ⟨j, clock, past⟩ := c
  have hbusy : j.phase ≠ .waiting := fun h => by
    rw [hp] at h
    cases h
  cases o with
  | second =>
      rw [next_second, Job.turn_of_busy hbusy]
      exact ⟨hp, rfl, id⟩
  | swept result => exact absurd rfl (hquiet result)
  | stop =>
      rw [next_stop, Job.cancel, Job.turn_of_busy (j := { j with asked := true }) hbusy]
      exact ⟨hp, rfl, fun _ => rfl⟩

/-- A sweep goes on, with the same sweeps before it, until an occasion ends it. -/
lemma after_of_sweeping (hp : c.job.phase = .sweeping since) {os : List Occasion}
    (hquiet : ∀ result, .swept result ∉ os) :
    (c.after os).job.phase = .sweeping since ∧ (c.after os).past = c.past := by
  induction os generalizing c with
  | nil => exact ⟨hp, rfl⟩
  | cons o os ih =>
      obtain ⟨hnext, hpast, -⟩ := next_of_sweeping hp
        fun result ho => hquiet result (ho ▸ List.mem_cons_self)
      obtain ⟨hafter, hsame⟩ := ih hnext fun result h => hquiet result (List.mem_cons_of_mem _ h)
      exact ⟨hafter, hsame.trans hpast⟩

/-- A job that was asked to stop does so with the end of its sweep. -/
lemma next_swept_of_asked (hp : c.job.phase = .sweeping since) (hasked : c.job.asked = true)
    (result : Outcome Nat) :
    (c.next (.swept result)).job = { c.job with phase := .stopped }
      ∧ (c.next (.swept result)).past = c.past ++ [⟨since, c.clock⟩] := by
  obtain ⟨j, clock, past⟩ := c
  rw [next_swept, Job.finish_of_sweeping hp, sweeps_of_sweeping hp,
    Job.turn_of_asked (j := { j with phase := .waiting }) rfl hasked]
  exact ⟨rfl, rfl⟩

/-- **No sweep begins** once the job was asked to stop, be a tick due or not. -/
theorem begun_next_of_asked (hasked : c.job.asked = true) (o : Occasion) :
    (c.next o).job.asked = true ∧ (c.next o).begun = c.begun := by
  rcases c.job.phase.free_or_sweeping with hfree | ⟨since, hp⟩
  · rw [begun, begun, sweeps_of_free hfree]
    cases o with
    | second =>
        obtain ⟨hasked', hfree'⟩ := Job.turn_free hasked hfree (c.clock + 1)
        exact ⟨hasked', by rw [sweeps_of_free hfree']; rfl⟩
    | swept result =>
        rw [next, Job.finish_of_free hfree, sweeps_of_free hfree]
        exact ⟨hasked, by rw [sweeps_of_free hfree]⟩
    | stop =>
        obtain ⟨hasked', hfree'⟩ := Job.turn_free (j := { c.job with asked := true }) rfl hfree c.clock
        exact ⟨hasked', by rw [sweeps_of_free hfree']; rfl⟩
  · by_cases hquiet : ∀ result, o ≠ .swept result
    · obtain ⟨hnext, hpast, hstill⟩ := next_of_sweeping hp hquiet
      refine ⟨hstill hasked, ?_⟩
      rw [begun, begun, sweeps_of_sweeping hp, sweeps_of_sweeping hnext, hpast]
      simp
    · obtain ⟨result, rfl⟩ : ∃ result, o = .swept result := by simpa using hquiet
      obtain ⟨hjob, hpast⟩ := next_swept_of_asked hp hasked result
      refine ⟨by rw [hjob]; exact hasked, ?_⟩
      rw [begun, begun, sweeps_of_sweeping hp, sweeps_of_free (by simp [hjob]), hpast]

/-- However a course goes on after a request to stop, no further sweep begins. -/
lemma begun_after_of_asked (hasked : c.job.asked = true) (os : List Occasion) :
    (c.after os).job.asked = true ∧ (c.after os).begun = c.begun := by
  induction os generalizing c with
  | nil => exact ⟨hasked, rfl⟩
  | cons o os ih =>
      obtain ⟨hasked', hbegun⟩ := begun_next_of_asked hasked o
      obtain ⟨hafter, hsame⟩ := ih hasked'
      exact ⟨hafter, hsame.trans hbegun⟩

lemma next_of_over {p : Phase} (hp : c.job.phase = p) (hwaiting : p ≠ .waiting)
    (hfree : ∀ since, p ≠ .sweeping since) (o : Occasion) :
    (c.next o).job.phase = p ∧ (c.next o).past = c.past := by
  subst hp
  cases o with
  | second =>
      rw [next, Job.turn_of_busy hwaiting]
      exact ⟨rfl, rfl⟩
  | swept result =>
      rw [next, Job.finish_of_free hfree, sweeps_of_free hfree]
      exact ⟨rfl, rfl⟩
  | stop =>
      rw [next, Job.cancel, Job.turn_of_busy (j := { c.job with asked := true }) hwaiting]
      exact ⟨rfl, rfl⟩

/-- A job that has stopped or failed stays so, with the sweeps it had. -/
lemma after_of_over {p : Phase} (hp : c.job.phase = p) (hwaiting : p ≠ .waiting)
    (hfree : ∀ since, p ≠ .sweeping since) (os : List Occasion) :
    (c.after os).job.phase = p ∧ (c.after os).past = c.past := by
  induction os generalizing c with
  | nil => exact ⟨hp, rfl⟩
  | cons o os ih =>
      obtain ⟨hnext, hpast⟩ := next_of_over hp hwaiting hfree o
      obtain ⟨hafter, hsame⟩ := ih hnext
      exact ⟨hafter, hsame.trans hpast⟩

/-- A job that is free stops as soon as it is asked to. -/
lemma OnTime.next_stop_phase {start period : Nat} (h : OnTime start period c)
    (hfree : ∀ since, c.job.phase ≠ .sweeping since) : (c.next .stop).job.phase = .stopped := by
  have hphase := h.phase
  cases hp : c.job.phase with
  | waiting => rw [next, Job.cancel, Job.turn_of_asked (j := { c.job with asked := true }) hp rfl]
  | sweeping since => exact absurd hp (hfree since)
  | stopped => exact (next_of_over hp (by simp) (by simp) .stop).1
  | failed => simp only [hp] at hphase

/-- A request to stop is kept in mind, and begins no sweep. -/
lemma asked_next_stop (c : Course) :
    (c.next .stop).job.asked = true ∧ (c.next .stop).begun = c.begun := by
  by_cases hp : c.job.phase = .waiting
  · rw [next, Job.cancel, Job.turn_of_asked (j := { c.job with asked := true }) hp rfl, begun, begun,
      sweeps_of_free (by simp), sweeps_of_free (by simp [hp])]
    exact ⟨rfl, rfl⟩
  · rw [next, Job.cancel, Job.turn_of_busy (j := { c.job with asked := true }) hp]
    exact ⟨rfl, rfl⟩

lemma asked_after_of_notMem {os : List Occasion} (h : .stop ∉ os) :
    (c.after os).job.asked = c.job.asked := by
  induction os generalizing c with
  | nil => rfl
  | cons o os ih =>
      refine (ih fun hmem => h (List.mem_cons_of_mem _ hmem)).trans ?_
      cases o with
      | second => exact c.job.asked_turn (c.clock + 1)
      | swept result => exact c.job.asked_finish c.clock result
      | stop => exact absurd List.mem_cons_self h

/-- **After a request to stop** no sweep begins; the job is stopped, or the sweep under way goes on,
and with its end the job is stopped. -/
theorem OnTime.after_stop {start period : Nat} (h : OnTime start period c) (os : List Occasion) :
    let d := (c.next .stop).after os
    d.begun = c.begun
      ∧ ((∀ since, c.job.phase ≠ .sweeping since) → d.job.phase = .stopped)
      ∧ ∀ since, c.job.phase = .sweeping since →
        ((∀ result, .swept result ∉ os) → d.job.phase = .sweeping since)
          ∧ ∀ quiet result later, os = quiet ++ .swept result :: later → (∀ r, .swept r ∉ quiet) →
            d.job.phase = .stopped ∧ d.sweeps = c.past ++ [⟨since, (c.after quiet).clock⟩] := by
  intro d
  obtain ⟨hasked, hbegun⟩ := asked_next_stop c
  refine ⟨(begun_after_of_asked hasked os).2.trans hbegun, ?_, ?_⟩
  · intro hfree
    have hstopped := h.next_stop_phase hfree
    exact (after_of_over hstopped (by simp) (by simp) os).1
  · intro since hp
    obtain ⟨hnext, hpast, -⟩ := next_of_sweeping (o := .stop) hp (by simp)
    refine ⟨fun hquiet => (after_of_sweeping hnext hquiet).1, ?_⟩
    intro quiet result later hsplit hquiet
    -- while nothing ends the sweep goes on, with the request in mind
    obtain ⟨hstill, hsame⟩ := after_of_sweeping hnext hquiet
    obtain ⟨hasked', -⟩ := begun_after_of_asked hasked quiet
    obtain ⟨hjob, hended⟩ := next_swept_of_asked hstill hasked' result
    have hover : d = (((c.next .stop).after quiet).next (.swept result)).after later := by
      rw [show d = (c.next .stop).after os from rfl, hsplit, after_append]
      rfl
    have hstopped : (((c.next .stop).after quiet).next (.swept result)).job.phase = .stopped := by
      rw [hjob]
    obtain ⟨hphase, hkept⟩ := after_of_over hstopped (by simp) (by simp) later
    have hclock : ((c.next .stop).after quiet).clock = (c.after quiet).clock :=
      clock_after (show (c.next .stop).clock = c.clock from rfl) quiet
    rw [hover]
    refine ⟨hphase, ?_⟩
    rw [sweeps_of_free (by simp [hphase]), hkept, hended, hsame, hpast, hclock]

/-! ## Failures -/

/-- What sweeps give, be it a failure, makes no difference to a course. -/
lemma after_withResult (c : Course) (f : Outcome Nat → Outcome Nat) (os : List Occasion) :
    c.after (os.map (Occasion.withResult f)) = c.after os := by
  induction os generalizing c with
  | nil => rfl
  | cons o os ih =>
      have hnext : c.next (o.withResult f) = c.next o := by
        cases o with
        | swept result =>
            obtain ⟨j, clock, past⟩ := c
            rw [Occasion.withResult, next_swept, next_swept]
            cases hp : j.phase with
            | sweeping since => rw [Job.finish_of_sweeping hp, Job.finish_of_sweeping hp]
            | _ => rw [Job.finish_of_free (by simp [hp]), Job.finish_of_free (by simp [hp])]
        | _ => rfl
      show (c.next (o.withResult f)).after _ = _
      rw [hnext]
      exact ih (c.next o)

end Course

/-! ## All courses -/

/-- **Sweeps are on time.**  Let a job start with any period that its clock can measure, and let any
seconds pass, sweeps end, failed or not, and requests to stop be made, in any order.

Each sweep began when it was due, and unless the job was asked to stop it is sweeping or none is due
yet.  So sweeps do not overlap, and they begin at least one period apart.  What the sweeps gave makes
no difference.

After a request to stop no sweep begins any more, be a tick due or not.  A job that is free stops at
once, and otherwise as soon as the sweep under way has ended, which is not given up before.

With any other period the job fails when it starts, and there is no sweep. -/
theorem sweeps_on_time (start period expiration : Nat) (os : List Occasion) :
    let s := Course.start start period expiration
    let c := s.after os
    if 0 < period ∧ period ≤ longestPeriod then
      Punctual start period c.sweeps
        ∧ (.stop ∉ os → (∃ since, c.job.phase = .sweeping since)
          ∨ c.job.phase = .waiting ∧ c.clock < dueAfter start period c.sweeps)
        ∧ c.sweeps.Pairwise (fun a b => a.ended ≤ b.began ∧ a.began + period ≤ b.began)
        ∧ (∀ f, s.after (os.map (Occasion.withResult f)) = c)
        ∧ ∀ before after, os = before ++ .stop :: after →
          c.begun = (s.after before).begun
            ∧ ((∀ since, (s.after before).job.phase ≠ .sweeping since) → c.job.phase = .stopped)
            ∧ ∀ since, (s.after before).job.phase = .sweeping since →
              ((∀ result, .swept result ∉ after) → c.job.phase = .sweeping since)
                ∧ ∀ quiet result later, after = quiet ++ .swept result :: later →
                  (∀ r, .swept r ∉ quiet) →
                    c.job.phase = .stopped ∧ c.sweeps = (s.after before).past
                      ++ [⟨since, ((s.after before).after quiet).clock⟩]
    else c.job.phase = .failed ∧ c.sweeps = [] := by
  intro s c
  split
  case isFalse hperiod =>
    have hbad : period = 0 ∨ longestPeriod < period := by omega
    have hfailed : s.job.phase = .failed := by
      simp only [s, Course.start, Job.start, if_pos hbad]
    obtain ⟨hphase, hpast⟩ := Course.after_of_over hfailed (by simp) (by simp) os
    have hsweeps : c.sweeps = c.past := Course.sweeps_of_free (by simp [c, hphase])
    exact ⟨hphase, hsweeps.trans hpast⟩
  case isTrue hperiod =>
    have hstart : s.OnTime start period := Course.onTime_start hperiod.1 hperiod.2 start expiration
    have htime : c.OnTime start period := hstart.after os
    refine ⟨htime.punctual, ?_, htime.punctual.pairwise, fun f => s.after_withResult f os, ?_⟩
    · intro hgoing
      have hasked : c.job.asked = false := Course.asked_after_of_notMem hgoing
      have hphase := htime.phase
      cases hp : c.job.phase with
      | sweeping since => exact Or.inl ⟨since, rfl⟩
      | waiting =>
          simp only [hp] at hphase
          rw [Course.sweeps_of_free (by simp [hp]), ← hphase.2.2]
          exact Or.inr ⟨rfl, hphase.2.1⟩
      | stopped =>
          simp only [hp, hasked] at hphase
          cases hphase
      | failed => simp only [hp] at hphase
    · intro before after hsplit
      have hafter : c = ((s.after before).next .stop).after after := by
        rw [show c = s.after os from rfl, hsplit, Course.after_append]
        rfl
      rw [hafter]
      exact (hstart.after before).after_stop after

-- the tick of second 20 is overdue when the first sweep ends, and taken at once
example : ((Course.start 0 10 60).after
    (List.replicate 25 .second ++ [.swept (.ok 0)] ++ List.replicate 5 .second)).sweeps
      = [⟨10, 25⟩, ⟨25, 30⟩] := by decide

end FleetLedger.Retention
