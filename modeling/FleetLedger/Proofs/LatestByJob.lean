import FleetLedger.Proofs.Pages

/-!
# The latest execution of each job

A job may run on several nodes, and then it has several rows, one for each combination.  Whoever asks
for jobs is given one row of each.  It is picked without comparing rows with each other: the rows are
sorted by the time at which they began, all of them, and then put into a table one after the other, so
that the last row of a job stays.

Two facts carry the proof.  Sorting leaves rows that began at the same time in the order in which they
are stored, and they are stored in the order in which their combinations came up
(`pairwise_firstPlace`): an upsert changes a row in its place, and a new row comes last.  So each row
of a job gives way to the one that stays (`Execution.GivesWay`), and **`latest_of_each_job`** says so
of what is stored and what is answered.
-/

namespace FleetLedger

open Ledger

/-! ## The order of the rows that are stored -/

/-- How many executions were recorded before the first one of a combination. -/
def firstPlace (rs : List Recording) (c : Execution.Combination) : Nat :=
  (rs.map (·.execution.combination)).idxOf c

/-- A turn that records keeps the latest execution, and others leave the projection. -/
lemma latest_booksOf_concat (turns : List Turn) (t : Turn) :
    (booksOf (turns ++ [t])).latest = match t.recording? with
      | none => (booksOf turns).latest
      | some r => keepLatest (booksOf turns).latest r.execution := by
  rw [booksOf_concat]
  show (t.postings.foldl Books.post (booksOf turns)).latest = _
  rw [Turn.postings]
  cases t.recording? with
  | none => rfl
  | some r => rfl

/-- There is a row for each combination that was recorded, and for no other. -/
lemma mem_combinations_latest (turns : List Turn) (c : Execution.Combination) :
    c ∈ (booksOf turns).latest.map Execution.combination
      ↔ c ∈ (recordings turns).map (·.execution.combination) := by
  have hfound := latestOf_booksOf turns c
  have hnone : lastOf c (recordings turns) = none
      ↔ ∀ r ∈ recordings turns, r.execution.combination ≠ c := lastOf_eq_none_iff
  rw [← hfound, Books.latestOf, List.find?_eq_none] at hnone
  simpa using not_congr hnone

/-- The rows are in the order in which their combinations were recorded first. -/
lemma pairwise_firstPlace (turns : List Turn) :
    ((booksOf turns).latest.map Execution.combination).Pairwise fun c c' =>
      firstPlace (recordings turns) c < firstPlace (recordings turns) c' := by
  induction turns using List.reverseRecOn with
  | nil => exact List.Pairwise.nil
  | append_singleton turns t ih =>
      rw [latest_booksOf_concat, recordings_concat]
      cases t.recording? with
      | none => simpa using ih
      | some r =>
          -- places that are taken stay as they are when one more execution is recorded
          have hkept : ∀ c ∈ (booksOf turns).latest.map Execution.combination,
              firstPlace (recordings turns ++ [r]) c = firstPlace (recordings turns) c := by
            intro c hc
            rw [firstPlace, List.map_append]
            exact List.idxOf_append_of_mem ((mem_combinations_latest turns c).mp hc)
          have hold : ((booksOf turns).latest.map Execution.combination).Pairwise fun c c' =>
              firstPlace (recordings turns ++ [r]) c < firstPlace (recordings turns ++ [r]) c' := by
            refine ih.imp_of_mem fun {c c'} hc hc' hlt => ?_
            rwa [hkept c hc, hkept c' hc']
          show ((keepLatest (booksOf turns).latest r.execution).map
            Execution.combination).Pairwise _
          rw [keepLatest, map_key_amend (fun _ _ => rfl) rfl]
          split
          case isTrue => exact hold
          case isFalse hnew =>
              refine List.pairwise_append.mpr ⟨hold, List.pairwise_singleton _ _, ?_⟩
              intro c hc c' hc'
              rw [mem_combinations_latest] at hnew
              rw [List.mem_singleton.mp hc', Option.toList_some, hkept c hc]
              have hlast : firstPlace (recordings turns ++ [r]) r.execution.combination
                  = (recordings turns).length := by
                rw [firstPlace, List.map_append, List.idxOf_append_of_notMem hnew]
                simp
              have hplace := List.idxOf_lt_length_of_mem ((mem_combinations_latest turns c).mp hc)
              rw [List.length_map] at hplace
              rw [hlast]
              exact hplace

/-! ## The order in which rows are read -/

/-- An execution gives way to one that began later, and where both began at once, to the one whose
combination came up later. -/
def Execution.GivesWay (rs : List Recording) (old new : Execution) : Prop :=
  old.beginTime.millis < new.beginTime.millis
    ∨ old.beginTime = new.beginTime
      ∧ firstPlace rs old.combination < firstPlace rs new.combination

/-- No two executions have one row. -/
lemma Latest.overwriting_injective : Function.Injective Latest.overwriting := by
  intro e e' h
  have hdecoded := decode_row e latestRows
  rw [h, decode_row e' latestRows] at hdecoded
  exact (Except.ok.inj hdecoded).symm

/-- Rows are sorted by the time at which their executions began. -/
lemma value_begin_overwriting (e : Execution) :
    (SortKey.up "begin_time").value (Latest.overwriting e) = .int e.beginTime.millis := by
  have hbegin := (Latest.spelled_overwriting e).beginTime
  rw [SortKey.value, SortKey.up, Document.getOrNull, hbegin]
  rfl

/-- Of two rows in the order of beginning the first gives way, if combinations came up in the order of
the places. -/
lemma Earlier.givesWay {rs : List Recording} {es : List Execution}
    (hes : es.Pairwise fun e e' => firstPlace rs e.combination < firstPlace rs e'.combination)
    {x y : Document × Nat} (hx : x ∈ (es.map Latest.overwriting).zipIdx)
    (hy : y ∈ (es.map Latest.overwriting).zipIdx) (h : Earlier [.up "begin_time"] x y)
    {e e' : Execution} (he : Latest.overwriting e = x.1) (he' : Latest.overwriting e' = y.1) :
    e.GivesWay rs e' := by
  have hplace : ∀ {z : Document × Nat} {f : Execution},
      z ∈ (es.map Latest.overwriting).zipIdx → Latest.overwriting f = z.1 →
      es[z.2]? = some f := by
    intro z f hz hf
    rw [List.mem_zipIdx_iff_getElem?, List.getElem?_map, ← hf] at hz
    obtain ⟨g, hg, hspelled⟩ := Option.map_eq_some_iff.mp hz
    rw [hg, Latest.overwriting_injective hspelled]
  rcases h with hbelow | ⟨hvalue, hlt⟩
  · have hbegin : ((SortKey.up "begin_time").value (Latest.overwriting e)).Below
        ((SortKey.up "begin_time").value (Latest.overwriting e')) := by
      rw [he, he']
      exact hbelow
    rw [value_begin_overwriting, value_begin_overwriting] at hbegin
    cases hbegin with
    | whole hlt => exact Or.inl hlt
  · rw [← he, ← he', value_begin_overwriting, value_begin_overwriting] at hvalue
    have hbegin : e.beginTime = e'.beginTime := by
      have hmillis := Json.int.inj hvalue
      cases hb : e.beginTime
      cases hb' : e'.beginTime
      simp_all
    have hi := hplace hx he
    have hj := hplace hy he'
    obtain ⟨hxlen, rfl⟩ := List.getElem?_eq_some_iff.mp hi
    obtain ⟨hylen, rfl⟩ := List.getElem?_eq_some_iff.mp hj
    exact Or.inr ⟨hbegin, List.pairwise_iff_getElem.mp hes _ _ hxlen hylen hlt⟩

/-- **Rows are read in the order in which they give way to each other.** -/
theorem sorted_givesWay {rs : List Recording} {es : List Execution}
    (hes : es.Pairwise fun e e' => firstPlace rs e.combination < firstPlace rs e'.combination) :
    ∃ sorted : List Execution, sorted.Perm es ∧ sorted.Pairwise (Execution.GivesWay rs)
      ∧ Document.sort [.up "begin_time"] (es.map Latest.overwriting)
        = sorted.map Latest.overwriting := by
  obtain ⟨rows, sorted, hperm, hsame, hearlier, hrows, hsorted⟩ :=
    exists_sorted_spell true [.up "begin_time"] es
  have hpairs : (sorted.map Latest.overwriting).Pairwise fun d d' => ∀ e e',
      Latest.overwriting e = d → Latest.overwriting e' = d' → e.GivesWay rs e' := by
    have hmapped : rows.map Prod.fst = sorted.map Latest.overwriting := hrows
    rw [← hmapped, List.pairwise_map]
    refine hearlier.imp_of_mem fun {x y} hx hy hxy e e' he he' => ?_
    exact hxy.givesWay hes (hperm.mem_iff.mp hx) (hperm.mem_iff.mp hy) he he'
  rw [List.pairwise_map] at hpairs
  exact ⟨sorted, hsame, hpairs.imp fun h => h _ _ rfl rfl, hsorted⟩

/-! ## The answer -/

/-- Holds of the rows that are asked for: those of some jobs, or all. -/
def askedFor (jobIds : List String) : Filter :=
  if jobIds.isEmpty then .all else .oneOf "job_id" jobIds

/-- The rows of the jobs that were asked for, or of all jobs if none was. -/
lemma holds_askedFor (jobIds : List String) (e : Execution) :
    (askedFor jobIds).holds (Latest.overwriting e) = true ↔ jobIds = [] ∨ e.jobId ∈ jobIds := by
  cases jobIds with
  | nil => simp [askedFor, Filter.holds]
  | cons jobId rest =>
      have hjob := (Latest.spelled_overwriting e).jobId
      simp [askedFor, hjob]

/-- The rows of a table in which the last row of each job stays. -/
def byJob (rows : List Latest) : Table Latest :=
  Table.ofList (rows.map fun row => (row.execution.jobId, row))

/-- A job has the last of its rows in the order of the search. -/
lemma get?_byJob (sorted : List Execution) (jobId : String) :
    (byJob (sorted.map fun e => (Latest.ofExecution e).listed)).get? jobId
      = (sorted.filter (·.jobId = jobId)).getLast?.map fun e => (Latest.ofExecution e).listed := by
  rw [byJob, Table.ofList, Table.get?_merge_getLast?, List.map_map, List.filter_map,
    List.getLast?_map, Option.map_map, Table.get?_nil, Option.or_none]
  rfl

/-- The latest executions are read from the rows, and collected by job. -/
lemma run_latestOf (clock : Reading) (fresh : FreshId) (s : Memory) (jobIds : List String)
    {rows : List Latest}
    (hrows : ((Document.sort [.up "begin_time"]
        ((s.rows latestRows).filter (askedFor jobIds).holds)).map shortened).mapM
      (fun d => d.decode Latest.decoder latestRows) = .ok rows) :
    ((inMemory clock fresh).latestOf jobIds).run.run s = (.ok (byJob rows), s) := by
  have hfound : ((inMemory clock fresh).documents.find latestRows (askedFor jobIds)
      { exclude := Execution.bulky, sort := [.up "begin_time"] }).run.run s
      = (.ok ((Document.sort [.up "begin_time"]
        ((s.rows latestRows).filter (askedFor jobIds).holds)).map shortened), s) := rfl
  rw [latestOf]
  refine (run_bind_of_ok hfound).trans ?_
  rw [hrows]
  rfl

/-- The answer is made of the rows that are asked for, read in the order in which they give way. -/
lemma exists_rows_read (turns : List Turn) (jobIds : List String) :
    ∃ sorted : List Execution,
      (∀ e, e ∈ sorted ↔ e ∈ (booksOf turns).latest ∧ (jobIds = [] ∨ e.jobId ∈ jobIds))
      ∧ sorted.Pairwise (Execution.GivesWay (recordings turns))
      ∧ ∀ clock fresh, ((inMemory clock fresh).latestOf jobIds).run.run (run turns)
        = (.ok (byJob (sorted.map fun e => (Latest.ofExecution e).listed)), run turns) := by
  have hplaces := pairwise_firstPlace turns
  rw [List.pairwise_map] at hplaces
  obtain ⟨sorted, hperm, hsorted, hdocs⟩ := sorted_givesWay
    (hplaces.filter fun e => (askedFor jobIds).holds (Latest.overwriting e))
  have hfilter : ((run turns).rows latestRows).filter (askedFor jobIds).holds
      = ((booksOf turns).latest.filter fun e =>
          (askedFor jobIds).holds (Latest.overwriting e)).map Latest.overwriting := by
    rw [(kept_run turns).latest, List.filter_map]
    rfl
  refine ⟨sorted, ?_, hsorted, fun clock fresh => run_latestOf clock fresh (run turns) jobIds ?_⟩
  · intro e
    rw [hperm.mem_iff, List.mem_filter, holds_askedFor]
  · rw [hfilter, hdocs, List.map_map]
    refine mapM_map_eq_ok (fun e => ?_) sorted
    exact Latest.decode_shortened e latestRows

/-- In a list that is in order the last element comes after all the others. -/
lemma eq_or_rel_of_getLast? {α : Type} {R : α → α → Prop} {xs : List α} (h : xs.Pairwise R)
    {last x : α} (hlast : xs.getLast? = some last) (hx : x ∈ xs) : x = last ∨ R x last := by
  obtain ⟨front, rfl⟩ := List.getLast?_eq_some_iff.mp hlast
  rcases List.mem_append.mp hx with hfront | hend
  · exact Or.inr ((List.pairwise_append.mp h).2.2 x hfront last (List.mem_singleton_self last))
  · exact Or.inl (List.mem_singleton.mp hend)

/-- **Each job that is asked for is answered by its latest execution.**  Whatever was done to the
ledger, all rows can be read, and the answer is a table with a row for each job that has rows and that
was asked for; if no job is named, all are.  The row is the one that all other rows of the job give way
to: they began earlier, or at the same time and their combinations came up earlier.  It is shown as it
is stored, but without what was run and what it printed. -/
theorem latest_of_each_job (turns : List Turn) (jobIds : List String) :
    ∃ (stored : List Latest) (answer : Table Latest),
      ((run turns).rows latestRows).mapM (fun d => d.decode Latest.decoder latestRows) = .ok stored
      ∧ (stored.map (·.execution.combination)).Nodup
      ∧ (∀ clock fresh, ((inMemory clock fresh).latestOf jobIds).run.run (run turns)
        = (.ok answer, run turns))
      ∧ Table.Sorted answer
      ∧ ∀ jobId, match answer.get? jobId with
        | none => (jobIds ≠ [] ∧ jobId ∉ jobIds) ∨ ∀ row ∈ stored, row.execution.jobId ≠ jobId
        | some shown => (jobIds = [] ∨ jobId ∈ jobIds) ∧ ∃ best ∈ stored,
            best.execution.jobId = jobId ∧ shown = best.listed
            ∧ ∀ row ∈ stored, row.execution.jobId = jobId →
              row = best ∨ row.execution.GivesWay (recordings turns) best.execution := by
  obtain ⟨sorted, hmem, hsorted, hanswer⟩ := exists_rows_read turns jobIds
  refine ⟨(booksOf turns).latest.map Latest.ofExecution, _, ?_, ?_, hanswer,
    Table.sorted_ofList _, ?_⟩
  · rw [(kept_run turns).latest]
    refine mapM_map_eq_ok (fun e => ?_) (booksOf turns).latest
    rw [Document.decode, Latest.decode_overwriting]
    rfl
  · rw [List.map_map]
    exact (tidy_booksOf turns).latest
  intro jobId
  rw [get?_byJob]
  cases hbest : (sorted.filter (·.jobId = jobId)).getLast? with
  | none =>
      have hnone : ∀ e ∈ sorted, e.jobId ≠ jobId := by
        rw [List.getLast?_eq_none_iff, List.filter_eq_nil_iff] at hbest
        simpa using hbest
      show _ ∨ _
      by_cases hasked : jobIds = [] ∨ jobId ∈ jobIds
      · refine Or.inr (List.forall_mem_map.mpr fun e he hjob => ?_)
        have hjob : e.jobId = jobId := hjob
        exact hnone e ((hmem e).mpr ⟨he, hjob ▸ hasked⟩) hjob
      · exact Or.inl (not_or.mp hasked)
  | some best =>
      obtain ⟨hbestMem, hjob⟩ := List.mem_filter.mp (List.mem_of_getLast? hbest)
      have hjob : best.jobId = jobId := of_decide_eq_true hjob
      obtain ⟨hstored, hasked⟩ := (hmem best).mp hbestMem
      rw [hjob] at hasked
      refine ⟨hasked, Latest.ofExecution best, List.mem_map_of_mem hstored, hjob, rfl, ?_⟩
      refine List.forall_mem_map.mpr fun e he hejob => ?_
      have hejob : e.jobId = jobId := hejob
      have hsame : e ∈ sorted.filter (·.jobId = jobId) := List.mem_filter.mpr
        ⟨(hmem e).mpr ⟨he, hejob ▸ hasked⟩, decide_eq_true hejob⟩
      rcases eq_or_rel_of_getLast? (hsorted.filter _) hbest hsame with rfl | hless
      · exact Or.inl rfl
      · exact Or.inr hless

end FleetLedger
