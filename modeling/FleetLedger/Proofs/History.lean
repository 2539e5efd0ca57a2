import Mathlib.Data.List.Find
import FleetLedger.Proofs.Runs

/-!
# The history is a list of executions

Whatever is stored, a caller of the ledger deals with executions.  **`history_refines`** says that
the history is the list that `chronicle` makes of the operations, as far as any operation can tell:
its documents are read as that list, in order; what is looked up is found in the list; and what is
changed or removed is counted in it.

Looking up needs one thing that the list does not say of itself.  An id that is empty would not be
stored, so it could not be found; but none is empty (`id_ne_empty`).
-/

namespace FleetLedger

open Ledger

/-- An execution is read back from its document. -/
lemma decode_toDocument (e : Execution) (key : String) :
    e.toDocument.decode Execution.decoder key = .ok e := by
  rw [Document.decode, e.spelled_toDocument.decode]
  rfl

lemma executionsOf_map_toDocument (es : List Execution) :
    executionsOf false (es.map Execution.toDocument) = .ok es :=
  mapM_map_ok (fun e => decode_toDocument e history) es

/-- What is in the history has an id. -/
lemma id_ne_empty {turns : List Turn} {e : Execution} (h : e ∈ chronicle turns) : e.id ≠ "" := by
  induction turns using List.reverseRecOn generalizing e with
  | nil => exact absurd h (by simp [chronicle])
  | append_singleton turns t ih =>
      rw [chronicle_concat] at h
      obtain ⟨clock, fresh, o⟩ := t
      cases o with
      | record new =>
          rcases List.mem_append.mp h with h | h
          · exact ih h
          · rw [List.mem_singleton.mp h]
            exact Recording.id_of_ne_empty clock fresh new
      | setCleanup jobId due =>
          obtain ⟨old, hold, rfl⟩ := List.mem_map.mp h
          have hid := ih hold
          split
          · exact hid
          · exact hid
      | sweep w =>
          have hmem : e ∈ chronicle turns := by
            simp only [Turn.chronicle] at h
            split at h
            · exact h
            · exact (List.mem_filter.mp h).1
          exact ih hmem
      | _ => exact ih h

/-- The first document with an id is that of the first execution with it. -/
lemma find?_id_map_toDocument {es : List Execution} (h : ∀ e ∈ es, e.id ≠ "") (id : String) :
    (es.map Execution.toDocument).find? (Filter.eqString "id" id).holds
      = (es.find? (·.id = id)).map Execution.toDocument := by
  rw [List.find?_map]
  refine congrArg (Option.map _) (List.find?_congr fun e he => ?_)
  have hid : e.toDocument.get? "id" = some (.string e.id) := by
    rcases e.spelled_toDocument.id with ⟨-, hempty⟩ | hid
    · exact absurd hempty (h e he)
    · exact hid
  rw [Bool.eq_iff_iff, Function.comp_apply, Filter.holds_eqString, hid, decide_eq_true_iff]
  simp

section Counting

variable (es : List Execution)

/-- The filter for a job selects its executions. -/
lemma countP_job_toDocument (jobId : String) :
    (es.map Execution.toDocument).countP (Filter.eqString "job_id" jobId).holds
      = es.countP (·.jobId = jobId) := by
  rw [List.countP_map]
  exact List.countP_congr fun e _ => by rw [Function.comp_apply, holds_job_toDocument]

/-- The filter of a sweep selects what is due. -/
lemma countP_due_toDocument {clock : Reading} {w : Window} {t : Timestamp}
    (ht : t.millis = w.start clock / 1000000) :
    (es.map Execution.toDocument).countP (dueFilter clock.instant t).holds
      = es.countP (·.isDue clock w) := by
  rw [List.countP_map]
  exact List.countP_congr fun e _ => by rw [Function.comp_apply, holds_dueFilter ht]

end Counting

/-- **The history is the chronicle of the run.**  Its documents are read as that list.  The next
operation is answered from the list, whichever it is: recording with the id, setting the time for
removal with the number of executions of the job, a sweep with the number of those that are due,
looking up with the first one that has the id.  A sweep of a window that is too long is refused and
changes nothing.  Operations that read change no document, and none but recording touches a document
of another collection. -/
theorem history_refines (turns : List Turn) :
    executionsOf false ((run turns).rows history) = .ok (chronicle turns)
      ∧ ∀ (clock : Reading) (fresh : FreshId),
        (∀ e, ((inMemory clock fresh).record e).run (run turns)
          = ((Recording.of clock fresh e).execution.id, run (turns ++ [⟨clock, fresh, .record e⟩])))
        ∧ (∀ jobId due, ((inMemory clock fresh).setCleanup jobId due).run.run (run turns)
          = (.ok ((chronicle turns).countP (·.jobId = jobId)),
            run (turns ++ [⟨clock, fresh, .setCleanup jobId due⟩])))
        ∧ (∀ w : Window, if w.tooLong clock then
            ∃ reason, ((inMemory clock fresh).sweep w).run.run (run turns)
              = (.error (.validation reason), run turns)
          else ((inMemory clock fresh).sweep w).run.run (run turns)
            = (.ok ((chronicle turns).countP (·.isDue clock w)),
              run (turns ++ [⟨clock, fresh, .sweep w⟩])))
        ∧ (∀ id, ((inMemory clock fresh).get id).run.run (run turns)
          = (match (chronicle turns).find? (·.id = id) with
            | some e => .ok e
            | none => .error (.notFound "job log" id), run turns))
        ∧ (∀ o : Operation, o.reads = true → ∀ c,
          (run (turns ++ [⟨clock, fresh, o⟩])).rows c = (run turns).rows c)
        ∧ ∀ o : Operation, (∀ e, o ≠ .record e) → ∀ c, c ≠ history →
          (run (turns ++ [⟨clock, fresh, o⟩])).rows c = (run turns).rows c := by
  have hrows : (run turns).rows history = (chronicle turns).map Execution.toDocument := by
    rw [(kept_run turns).history, history_booksOf]
  refine ⟨?_, ?_⟩
  · rw [hrows]
    exact executionsOf_map_toDocument (chronicle turns)
  intro clock fresh
  refine ⟨?_, ?_, ?_, ?_, ?_, ?_⟩
  · intro e
    have hanswer := congrArg Prod.fst (run_record clock fresh (run turns) none e)
    rw [run_concat]
    exact Prod.ext hanswer rfl
  · intro jobId due
    rw [run_setCleanup, Memory.snd_updateMany, hrows, countP_job_toDocument, run_concat]
    rfl
  · intro w
    split
    case isTrue hlong => exact run_sweep_of_tooLong clock fresh (run turns) hlong
    case isFalse hfits =>
      obtain ⟨t, ht, hswept⟩ := run_sweep clock fresh (run turns) (Bool.eq_false_iff.mpr hfits)
      have hanswer := congrArg Prod.fst hswept
      rw [Memory.snd_deleteMany, hrows, countP_due_toDocument _ ht] at hanswer
      rw [run_concat]
      exact Prod.ext hanswer rfl
  · intro id
    have hfound : (run turns).findOne history (.eqString "id" id)
        = ((chronicle turns).find? (·.id = id)).map Execution.toDocument := by
      rw [Memory.findOne, hrows, find?_id_map_toDocument fun e he => id_ne_empty he]
    rw [run_get, hfound]
    cases (chronicle turns).find? (·.id = id) with
    | none => rfl
    | some e => exact congrArg (·, run turns) (decode_toDocument e _)
  · intro o ho c
    rw [run_concat]
    exact Operation.keeps_of_reads clock fresh ho c (run turns)
  · intro o ho c hc
    rw [run_concat]
    exact Operation.keeps clock fresh ho (Ne.symm hc) (run turns)

end FleetLedger
