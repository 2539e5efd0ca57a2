import FleetLedger.Proofs.Counters
import FleetLedger.Proofs.History
import FleetLedger.Proofs.Projection

/-!
# The latest executions and the history

Recording an execution writes it twice, into the history and into the row of its combination.  From
then on the two go separate ways: setting the time for removal of a job's executions and sweeping
touch the history only.  So a row is the execution as it was recorded, and the same execution in the
history is that with the time for removal that was set last since then.

The proof asks of an execution in the history where it came from (`exists_recorded`).  It is one of
those that were recorded, at some place in the run, and all that happened to it are the marks behind
that place.  As ids are not used twice, the row and the execution that it points at come from the same
place: **`rows_agree_but_for_marks`**.
-/

namespace FleetLedger

open Ledger

/-! ## Marks -/

/-- The time for removal that a turn sets for a job. -/
def Turn.mark? (jobId : String) (t : Turn) : Option Timestamp :=
  match t.operation with
  | .setCleanup job due => if job = jobId then some due else none
  | _ => none

/-- The time for removal that was set for a job last. -/
def lastMark (jobId : String) (turns : List Turn) : Option Timestamp :=
  (turns.filterMap (Turn.mark? jobId)).getLast?

/-- A turn that marks a job is the last to do so, if it comes last. -/
lemma lastMark_concat (jobId : String) (turns : List Turn) (t : Turn) :
    lastMark jobId (turns ++ [t]) = (t.mark? jobId).or (lastMark jobId turns) := by
  simp only [lastMark, List.filterMap_append]
  cases h : t.mark? jobId with
  | none => simp [h]
  | some due => simp [h]

namespace Execution

/-- What becomes of an execution in the history while it is not removed. -/
def marked (e : Execution) (turns : List Turn) : Execution :=
  { e with cleanup := (lastMark e.jobId turns).or e.cleanup }

lemma marked_nil (e : Execution) : e.marked [] = e := rfl

lemma marked_concat_of_none {e : Execution} {t : Turn} (h : t.mark? e.jobId = none)
    (turns : List Turn) : e.marked (turns ++ [t]) = e.marked turns := by
  rw [marked, marked, lastMark_concat, h, Option.none_or]

lemma marked_concat_of_some {e : Execution} {t : Turn} {due : Timestamp}
    (h : t.mark? e.jobId = some due) (turns : List Turn) :
    e.marked (turns ++ [t]) = { e.marked turns with cleanup := some due } := by
  rw [marked, lastMark_concat, h]
  rfl

/-- An execution whose job is not marked afterwards stays as it was recorded. -/
lemma marked_eq_self {e : Execution} {turns : List Turn} (h : lastMark e.jobId turns = none) :
    e.marked turns = e := by
  rw [marked, h, Option.none_or]

end Execution

/-! ## Origins -/

/-- A place in a run at which something is recorded. -/
structure Recorded (turns : List Turn) where
  before : List Turn
  turn : Turn
  recording : Recording
  after : List Turn
  split : turns = before ++ turn :: after
  recorded : turn.recording? = some recording

namespace Recorded

variable {turns : List Turn}

/-- The same place in a run that has one turn more. -/
def extend (p : Recorded turns) (t : Turn) : Recorded (turns ++ [t]) where
  before := p.before
  turn := p.turn
  recording := p.recording
  after := p.after ++ [t]
  split := by
    have h := congrArg (· ++ [t]) p.split
    rwa [List.append_assoc, List.cons_append] at h
  recorded := p.recorded

/-- The place at the end of a run whose last turn records something. -/
def last (turns : List Turn) {t : Turn} {r : Recording} (h : t.recording? = some r) :
    Recorded (turns ++ [t]) := ⟨turns, t, r, [], rfl, h⟩

lemma mem_recordings (p : Recorded turns) : p.recording ∈ recordings turns := by
  have hturn : p.turn ∈ turns := by
    have h : p.turn ∈ p.before ++ p.turn :: p.after :=
      List.mem_append_right _ List.mem_cons_self
    rwa [← p.split] at h
  exact List.mem_filterMap.mpr ⟨p.turn, hturn, p.recorded⟩

end Recorded

/-- **Whatever is in the history was recorded** at some place in the run, and all that happened to it
since are the marks behind that place. -/
theorem exists_recorded {turns : List Turn} {e : Execution} (h : e ∈ chronicle turns) :
    ∃ p : Recorded turns, e = p.recording.execution.marked p.after := by
  induction turns using List.reverseRecOn generalizing e with
  | nil => exact absurd h (by simp [chronicle])
  | append_singleton turns t ih =>
      -- an execution from before that the turn leaves as it is
      have hkept : ∀ old ∈ chronicle turns, t.mark? old.jobId = none →
          ∃ p : Recorded (turns ++ [t]), old = p.recording.execution.marked p.after := by
        intro old hold hmark
        obtain ⟨p, rfl⟩ := ih hold
        have hsame := Execution.marked_concat_of_none (e := p.recording.execution) hmark p.after
        exact ⟨p.extend t, hsame.symm⟩
      rw [chronicle_concat] at h
      obtain ⟨clock, fresh, o⟩ := t
      cases o with
      | record new =>
          rcases List.mem_append.mp h with hold | hnew
          · exact hkept e hold rfl
          · rw [List.mem_singleton.mp hnew]
            exact ⟨Recorded.last turns rfl, (Execution.marked_nil _).symm⟩
      | setCleanup jobId due =>
          obtain ⟨old, hold, rfl⟩ := List.mem_map.mp h
          by_cases hjob : old.jobId = jobId
          · rw [if_pos hjob]
            obtain ⟨p, rfl⟩ := ih hold
            have hmark : Turn.mark? p.recording.execution.jobId
                ⟨clock, fresh, .setCleanup jobId due⟩ = some due := if_pos hjob.symm
            exact ⟨p.extend _, (Execution.marked_concat_of_some hmark p.after).symm⟩
          · rw [if_neg hjob]
            exact hkept old hold (if_neg (Ne.symm hjob))
      | sweep w =>
          have hold : e ∈ chronicle turns := by
            simp only [Turn.chronicle] at h
            split at h
            · exact h
            · exact (List.mem_filter.mp h).1
          exact hkept e hold rfl
      | _ => exact hkept e h rfl

/-! ## Rows and history -/

/-- Looking for an id in the history finds the execution that the chronicle has for it. -/
lemma findOne_run (turns : List Turn) (id : String) :
    (run turns).findOne history (.eqString "id" id)
      = ((chronicle turns).find? (·.id = id)).map Execution.toDocument := by
  rw [Memory.findOne, (kept_run turns).history, history_booksOf,
    find?_id_map_toDocument fun e he => id_ne_empty he]

lemma decode_overwriting (e : Execution) :
    (Latest.overwriting e).decode Latest.decoder latestRows = .ok (Latest.ofExecution e) := by
  rw [Document.decode, Latest.decode_overwriting]
  rfl

/-- A row of the projection was written for a recording. -/
lemma exists_recording_of_row {turns : List Turn} {row : Document}
    (h : row ∈ (run turns).rows latestRows) :
    ∃ r ∈ recordings turns, row = Latest.overwriting r.execution := by
  rw [(kept_run turns).latest] at h
  obtain ⟨e, he, rfl⟩ := List.mem_map.mp h
  have hlast := (tidy_booksOf turns).mem_latest_iff.mp he
  rw [latestOf_booksOf] at hlast
  obtain ⟨r, hr, rfl, -⟩ := exists_of_lastOf hlast
  exact ⟨r, hr, rfl⟩

/-- Each recording was made at some place in the run. -/
lemma exists_recorded_of_mem {turns : List Turn} {r : Recording} (h : r ∈ recordings turns) :
    ∃ p : Recorded turns, p.recording = r := by
  obtain ⟨t, ht, hrecorded⟩ := List.mem_filterMap.mp h
  obtain ⟨before, after, hsplit⟩ := List.append_of_mem ht
  exact ⟨⟨before, t, r, after, hsplit, hrecorded⟩, rfl⟩

/-- **A row agrees with the history but for marks.**  Where no id was given twice, a row is read as
an execution that was recorded at some place in the run.  If that one is still in the history, it is
found there as it stands in the row, but with the time for removal that was set for its job last
behind that place; if no time was set there, the two are the same. -/
theorem rows_agree_but_for_marks (turns : List Turn)
    (hdistinct : ((recordings turns).map (·.execution.id)).Nodup) :
    ∀ row ∈ (run turns).rows latestRows, ∃ (l : Latest) (p : Recorded turns),
      row.decode Latest.decoder latestRows = .ok l
      ∧ p.recording.execution = l.toExecution
      ∧ (∀ clock fresh, ((inMemory clock fresh).get l.source).run.run (run turns)
        = (match (run turns).findOne history (.eqString "id" l.source) with
          | some _ => .ok (l.toExecution.marked p.after)
          | none => .error (.notFound "job log" l.source), run turns))
      ∧ (lastMark l.execution.jobId p.after = none
        → l.toExecution.marked p.after = l.toExecution) := by
  intro row hrow
  obtain ⟨r, hr, rfl⟩ := exists_recording_of_row hrow
  have hread := decode_overwriting r.execution
  have hunmarked : ∀ p : Recorded turns,
      lastMark r.execution.jobId p.after = none → r.execution.marked p.after = r.execution := by
    intro p hmark
    exact Execution.marked_eq_self hmark
  have hfound := findOne_run turns r.execution.id
  cases hfind : (chronicle turns).find? (·.id = r.execution.id) with
  | none =>
      rw [hfind, Option.map_none] at hfound
      obtain ⟨p, hp⟩ := exists_recorded_of_mem hr
      refine ⟨_, p, hread, congrArg Recording.execution hp, ?_, hunmarked p⟩
      intro clock fresh
      rw [run_get]
      simp only [Latest.ofExecution, hfound]
  | some e =>
      rw [hfind, Option.map_some] at hfound
      obtain ⟨p, rfl⟩ := exists_recorded (List.mem_of_find?_eq_some hfind)
      have hid : p.recording.execution.id = r.execution.id :=
        of_decide_eq_true (List.find?_some hfind :)
      have hsame : p.recording = r :=
        List.inj_on_of_nodup_map hdistinct p.mem_recordings hr hid
      have hdecoded := decode_toDocument (p.recording.execution.marked p.after)
      rw [hsame] at hfound hdecoded
      refine ⟨_, p, hread, congrArg Recording.execution hsame, ?_, hunmarked p⟩
      intro clock fresh
      rw [run_get]
      simp only [Latest.ofExecution, hfound, hdecoded]
      rfl

/-! ## A backup that is marked -/

/-- A backup is recorded, and then a time for removal is set for its job. -/
def markedBackup : List Turn :=
  let fresh := RecordId.Source.fresh {} backup.endTime
  [⟨backup.endTime.reading, fresh, .record backup⟩,
    ⟨backup.endTime.reading, fresh, .setCleanup backup.jobId backup.endTime⟩]

/-- The backup as it is recorded, with its id. -/
def storedBackup : Execution :=
  (Recording.of backup.endTime.reading (RecordId.Source.fresh {} backup.endTime) backup).execution

lemma row_mem_markedBackup :
    Latest.overwriting storedBackup ∈ (run markedBackup).rows latestRows := by
  have hrows : (booksOf markedBackup).latest = [storedBackup] := rfl
  rw [(kept_run markedBackup).latest, hrows]
  exact List.mem_singleton.mpr rfl

/-- The backup was recorded in the first turn, so its job was marked behind that place. -/
lemma lastMark_markedBackup (p : Recorded markedBackup) :
    lastMark backup.jobId p.after = some backup.endTime := by
  obtain ⟨before, turn, recording, after, hsplit, hrecorded⟩ := p
  match before with
  | [] =>
      obtain ⟨rfl, rfl⟩ := List.cons.inj hsplit
      rfl
  | [_] =>
      -- a turn that marks does not record
      obtain ⟨-, htail⟩ := List.cons.inj hsplit
      obtain ⟨rfl, -⟩ := List.cons.inj htail
      cases hrecorded
  | _ :: _ :: rest =>
      obtain ⟨-, htail⟩ := List.cons.inj hsplit
      obtain ⟨-, hnil⟩ := List.cons.inj htail
      cases rest <;> cases hnil

/-- In the history the backup has the time that was set. -/
lemma findOne_markedBackup : (run markedBackup).findOne history (.eqString "id" storedBackup.id)
    = some { storedBackup with cleanup := some backup.endTime }.toDocument := by
  have hfirst : (chronicle markedBackup).find? (·.id = storedBackup.id)
      = some { storedBackup with cleanup := some backup.endTime } := by decide
  rw [findOne_run, hfirst]
  rfl

/-- The row of the backup is read as it was recorded; its source has the time that was set since. -/
theorem rows_markedBackup : ((recordings markedBackup).map (·.execution.id)).Nodup
    ∧ ∃ row ∈ (run markedBackup).rows latestRows, ∃ (l : Latest) (p : Recorded markedBackup),
      row.decode Latest.decoder latestRows = .ok l
      ∧ p.recording.execution = l.toExecution
      ∧ l.toExecution.marked p.after = { l.toExecution with cleanup := some backup.endTime }
      ∧ ∀ clock fresh, ((inMemory clock fresh).get l.source).run.run (run markedBackup)
        = (.ok { l.toExecution with cleanup := some backup.endTime }, run markedBackup) := by
  have hdistinct : ((recordings markedBackup).map (·.execution.id)).Nodup := by decide
  obtain ⟨l, p, hread, hsource, hget, -⟩ := rows_agree_but_for_marks markedBackup hdistinct _
    row_mem_markedBackup
  obtain rfl : Latest.ofExecution storedBackup = l :=
    Except.ok.inj ((decode_overwriting storedBackup).symm.trans hread)
  have hmarked : storedBackup.marked p.after
      = { storedBackup with cleanup := some backup.endTime } := by
    have hmark : lastMark storedBackup.jobId p.after = some backup.endTime :=
      lastMark_markedBackup p
    rw [Execution.marked, hmark]
    rfl
  have hthere : (run markedBackup).findOne history
      (.eqString "id" (Latest.ofExecution storedBackup).source) = some _ := findOne_markedBackup
  refine ⟨hdistinct, _, row_mem_markedBackup, _, p, hread, hsource, hmarked, fun clock fresh => ?_⟩
  have hget := hget clock fresh
  rw [hthere] at hget
  exact hget.trans (congrArg (fun e => (Except.ok e, run markedBackup)) hmarked)

/-- The history has the time that was set, and the row does not. -/
theorem marks_not_in_rows : ¬ ∀ turns : List Turn,
    ((recordings turns).map (·.execution.id)).Nodup →
    ∀ row ∈ (run turns).rows latestRows, ∀ l : Latest,
      row.decode Latest.decoder latestRows = .ok l →
      ∀ clock fresh e, ((inMemory clock fresh).get l.source).run.run (run turns)
        = (.ok e, run turns) → e = l.toExecution := by
  intro hagree
  have hfound : ((inMemory backup.endTime.reading (RecordId.Source.fresh {} backup.endTime)).get
      storedBackup.id).run.run (run markedBackup)
      = (.ok { storedBackup with cleanup := some backup.endTime }, run markedBackup) := by
    rw [run_get, findOne_markedBackup]
    exact congrArg (·, run markedBackup) (decode_toDocument _ _)
  have hsame := hagree markedBackup (by decide) _ row_mem_markedBackup _
    (decode_overwriting storedBackup) _ _ _ hfound
  exact absurd (congrArg Execution.cleanup hsame) (by decide)

end FleetLedger
