import Mathlib.Data.List.Induction
import FleetLedger.Proofs.Operations
import FleetLedger.Proofs.Postings

/-!
# Runs

A run is a list of operations, each at its own reading of the clock and with an id of its own to
give (`Turn`).  It starts with an empty store.

**`kept_run`** says what is stored after a run, by way of books: `chronicle` follows the history
through the operations, and the other two views come from the postings of the executions that were
recorded, for no other operation concerns them.  All that is proved about runs follows from this.
-/

namespace FleetLedger

open Ledger

/-- An operation, with what the clock shows then and the id that there is to give. -/
structure Turn where
  clock : Reading
  fresh : FreshId
  operation : Operation

namespace Turn

/-- What is stored afterwards. -/
def after (t : Turn) (s : Memory) : Memory :=
  ((t.operation.perform (inMemory t.clock t.fresh)).run s).2

/-- What a turn records, if it does. -/
def recording? (t : Turn) : Option Recording :=
  match t.operation with
  | .record e => some (.of t.clock t.fresh e)
  | _ => none

/-- The writes that recording consists of; other operations have none. -/
def postings (t : Turn) : List Posting :=
  t.recording?.toList.flatMap fun r => Part.all.map (Posting.mk r)

/-- What becomes of the executions that were recorded so far: a new one comes last; those of a job
are given a time for removal; those that are due are removed. -/
def chronicle (t : Turn) (es : List Execution) : List Execution :=
  match t.operation with
  | .record e => es ++ [(Recording.of t.clock t.fresh e).execution]
  | .setCleanup jobId due =>
      es.map fun e => if e.jobId = jobId then { e with cleanup := some due } else e
  | .sweep w => if w.tooLong t.clock then es else es.filter fun e => !e.isDue t.clock w
  | _ => es

end Turn

/-- What is stored after a run. -/
def run (turns : List Turn) : Memory := turns.foldl (fun s t => t.after s) {}

lemma run_concat (turns : List Turn) (t : Turn) : run (turns ++ [t]) = t.after (run turns) :=
  List.foldl_append

/-- What was recorded in a run. -/
def recordings (turns : List Turn) : List Recording := turns.filterMap Turn.recording?

lemma recordings_concat (turns : List Turn) (t : Turn) :
    recordings (turns ++ [t]) = recordings turns ++ t.recording?.toList := by
  rw [recordings, List.filterMap_append]
  cases h : t.recording? <;> simp [recordings, h]

/-- The executions that a run leaves in the history. -/
def chronicle (turns : List Turn) : List Execution := turns.foldl (fun es t => t.chronicle es) []

lemma chronicle_concat (turns : List Turn) (t : Turn) :
    chronicle (turns ++ [t]) = t.chronicle (chronicle turns) := List.foldl_append

/-- What an operation means for the books. -/
def Turn.books (t : Turn) (b : Books) : Books :=
  { t.postings.foldl Books.post b with history := t.chronicle b.history }

/-- The books after a run. -/
def booksOf (turns : List Turn) : Books := turns.foldl (fun b t => t.books b) {}

lemma booksOf_concat (turns : List Turn) (t : Turn) :
    booksOf (turns ++ [t]) = t.books (booksOf turns) := List.foldl_append

/-! ## The history -/

lemma holds_job_toDocument (e : Execution) (jobId : String) :
    (Filter.eqString "job_id" jobId).holds e.toDocument = decide (e.jobId = jobId) := by
  rw [Bool.eq_iff_iff, Filter.holds_eqString, e.spelled_toDocument.jobId, decide_eq_true_iff]
  simp

/-- Setting the time for removal in the documents sets it in the executions. -/
lemma map_setCleanup (es : List Execution) (jobId : String) (due : Timestamp) :
    ((es.map Execution.toDocument).map fun d =>
        if (Filter.eqString "job_id" jobId).holds d
        then (Update.set [("cleanup", .int due.millis)]).apply d else d)
      = (es.map fun e => if e.jobId = jobId then { e with cleanup := some due } else e).map
          Execution.toDocument := by
  rw [List.map_map, List.map_map]
  refine List.map_congr_left fun e _ => ?_
  simp only [Function.comp_apply, holds_job_toDocument, decide_eq_true_iff]
  split
  · exact e.insert_cleanup_toDocument due
  · rfl

/-- Removing documents that are due removes the executions that are due. -/
lemma filter_due {clock : Reading} {w : Window} {t : Timestamp}
    (ht : t.millis = w.start clock / 1000000) (es : List Execution) :
    ((es.map Execution.toDocument).filter fun d => !(dueFilter clock.instant t).holds d)
      = (es.filter fun e => !e.isDue clock w).map Execution.toDocument := by
  rw [List.filter_map]
  refine congrArg (List.map _) (List.filter_congr fun e _ => ?_)
  rw [Function.comp_apply, holds_dueFilter ht]

/-! ## One turn -/

/-- An operation that does not record leaves all collections but the history alone. -/
lemma Turn.rows_after {t : Turn} (h : t.recording? = none) {c : String} (hc : history ≠ c)
    (s : Memory) : (t.after s).rows c = s.rows c := by
  refine Operation.keeps t.clock t.fresh ?_ hc s
  rintro e he
  simp [Turn.recording?, he] at h

/-- Where an operation that does not record makes the history what the chronicle says, the store
keeps the books. -/
lemma Turn.kept_of_history {t : Turn} {b : Books} {s : Memory} (h : b.Kept s)
    (ht : t.recording? = none)
    (hrows : (t.after s).rows history = (t.chronicle b.history).map Execution.toDocument) :
    (t.books b).Kept (t.after s) := by
  have hpostings : t.postings = [] := by
    rw [Turn.postings, ht]
    rfl
  have hlatest : (t.after s).rows latestRows = s.rows latestRows := t.rows_after ht (by decide) s
  have htallies : (t.after s).rows tallies = s.rows tallies := t.rows_after ht (by decide) s
  rw [Turn.books, hpostings]
  exact ⟨hrows, hlatest.trans h.latest, htallies ▸ h.counts⟩

/-- **An operation does to the store what it means for the books.** -/
theorem Turn.kept {b : Books} {s : Memory} (h : b.Kept s) (t : Turn) :
    (t.books b).Kept (t.after s) := by
  obtain ⟨clock, fresh, o⟩ := t
  cases o with
  | record e =>
      have hstored : Turn.after ⟨clock, fresh, .record e⟩ s
          = (Turn.postings ⟨clock, fresh, .record e⟩).foldl Memory.post s :=
        congrArg Prod.snd (run_record clock fresh s none e)
      rw [hstored]
      exact h.foldl_post (Turn.postings ⟨clock, fresh, .record e⟩)
  | setCleanup jobId due =>
      refine Turn.kept_of_history h rfl ?_
      refine (Memory.rows_updateMany s history history _ _).trans ?_
      rw [if_pos rfl, h.history]
      exact map_setCleanup b.history jobId due
  | sweep w =>
      refine Turn.kept_of_history h rfl ?_
      cases hlong : w.tooLong clock with
      | true =>
          -- refused: neither the store nor the chronicle changes
          obtain ⟨reason, hswept⟩ := run_sweep_of_tooLong clock fresh s hlong
          have hstored : Turn.after ⟨clock, fresh, .sweep w⟩ s = s := congrArg Prod.snd hswept
          have hkept : Turn.chronicle ⟨clock, fresh, .sweep w⟩ b.history = b.history := if_pos hlong
          rw [hstored, hkept, h.history]
      | false =>
          obtain ⟨t, ht, hswept⟩ := run_sweep clock fresh s hlong
          have hstored : Turn.after ⟨clock, fresh, .sweep w⟩ s
              = (s.deleteMany history (dueFilter clock.instant t)).1 := congrArg Prod.snd hswept
          have hkept : Turn.chronicle ⟨clock, fresh, .sweep w⟩ b.history
              = b.history.filter fun e => !e.isDue clock w := if_neg (by simp [hlong])
          rw [hstored, hkept, Memory.rows_deleteMany, if_pos rfl, h.history, filter_due ht]
  | _ =>
      refine Turn.kept_of_history h rfl ?_
      exact (Operation.keeps_of_reads clock fresh rfl history s).trans h.history

/-! ## Runs -/

/-- **The store keeps the books of the run.** -/
theorem kept_run (turns : List Turn) : (booksOf turns).Kept (run turns) := by
  induction turns using List.reverseRecOn with
  | nil => exact Books.kept_empty
  | append_singleton turns t ih =>
      rw [run_concat, booksOf_concat]
      exact t.kept ih

/-- After any run each combination and each period has one row at most. -/
lemma tidy_booksOf (turns : List Turn) : (booksOf turns).Tidy := by
  induction turns using List.reverseRecOn with
  | nil => exact Books.tidy_empty
  | append_singleton turns t ih =>
      have htidy := ih.foldl_post t.postings
      rw [booksOf_concat]
      exact ⟨htidy.latest, htidy.counts⟩

/-- The history is what the chronicle has. -/
lemma history_booksOf (turns : List Turn) : (booksOf turns).history = chronicle turns := by
  induction turns using List.reverseRecOn with
  | nil => rfl
  | append_singleton turns t ih =>
      rw [booksOf_concat, chronicle_concat, ← ih]
      rfl

/-- A turn posts its recording once for each part. -/
lemma entries_postings (t : Turn) (part : Part) :
    Posting.entries part t.postings = t.recording?.toList := by
  simp only [Turn.postings]
  cases t.recording? with
  | none => rfl
  | some r => cases part <;> rfl

/-- The latest execution of a combination is the one that was recorded last. -/
lemma latestOf_booksOf (turns : List Turn) (c : Execution.Combination) :
    (booksOf turns).latestOf c = lastOf c (recordings turns) := by
  induction turns using List.reverseRecOn with
  | nil => rfl
  | append_singleton turns t ih =>
      have hpost := Books.latestOf_foldl (booksOf turns) t.postings c
      rw [entries_postings, ih, ← lastOf_append, ← recordings_concat] at hpost
      rw [booksOf_concat]
      exact hpost

/-- A period has counted the recordings that fall into it. -/
lemma countOf_booksOf (turns : List Turn) (p : Period) :
    (booksOf turns).countOf p = Count.of p (recordings turns) := by
  induction turns using List.reverseRecOn with
  | nil => rfl
  | append_singleton turns t ih =>
      have hpost := Books.countOf_foldl (booksOf turns) t.postings p
      rw [entries_postings, ih] at hpost
      rw [booksOf_concat, recordings_concat, Count.of, List.countP_append, List.countP_append]
      exact hpost

end FleetLedger
