import FleetLedger.Proofs.Runs

/-!
# The latest executions

Of each combination of node and job there is one row, and it is the execution that was recorded
last. The store does not replace rows; it overwrites their fields.  That nothing of an earlier
execution shows through is due to `Latest.merge_overwriting`, and that each combination finds its
own row to `Execution.Spelled.holds_filter`; both are steps of `kept_run` already.  What is left to
do here is to read the rows: **`projection_is_last_recorded`**.
-/

namespace FleetLedger

open Ledger

lemma decode_row (e : Execution) (key : String) :
    Latest.toExecution <$> (Latest.overwriting e).decode Latest.decoder key = .ok e := by
  rw [Document.decode, Latest.decode_overwriting]
  rfl

/-- The rows of the latest executions that are found for a combination. -/
def Memory.rowsOf (s : Memory) (c : Execution.Combination) : List Document :=
  (s.rows latestRows).filter c.filter.holds

namespace Books

variable {b : Books} {s : Memory}

/-- A combination has the row of its latest execution, or none. -/
lemma Kept.rows_of_combination (h : b.Kept s) (htidy : b.Tidy) (c : Execution.Combination) :
    s.rowsOf c = ((b.latestOf c).map Latest.overwriting).toList := by
  have hfilter : (c.filter.holds ∘ Latest.overwriting) = fun e => decide (e.combination = c) := by
    funext e
    rw [Bool.eq_iff_iff, Function.comp_apply, (Latest.spelled_overwriting e).holds_filter c,
      decide_eq_true_iff]
    rfl
  rw [Memory.rowsOf, h.latest, List.filter_map, hfilter, filter_key_eq htidy.latest c, latestOf]
  cases b.latest.find? fun e => e.combination = c <;> rfl

end Books

/-- **The row of a combination is the execution that was recorded last.**  A combination that was
never recorded has no row; any other has exactly one, which is that of its last execution, in the
store and when it is read.  There are no other rows, and no operation but recording changes one. -/
theorem projection_is_last_recorded (turns : List Turn) :
    (∀ c : Execution.Combination,
      match lastOf c (recordings turns) with
      | none => (run turns).rowsOf c = []
      | some e => ∃ row, (run turns).rowsOf c = [row] ∧ row = Latest.overwriting e
          ∧ Latest.toExecution <$> row.decode Latest.decoder latestRows = .ok e)
      ∧ (∀ c, lastOf c (recordings turns) = none
          ↔ ∀ r ∈ recordings turns, r.execution.combination ≠ c)
      ∧ (∀ row ∈ (run turns).rows latestRows, ∃ r ∈ recordings turns,
          r.execution.combination.filter.holds row = true)
      ∧ ∀ t : Turn, t.recording? = none →
          (run (turns ++ [t])).rows latestRows = (run turns).rows latestRows := by
  have hkept := kept_run turns
  have htidy := tidy_booksOf turns
  refine ⟨?_, ?_, ?_, ?_⟩
  · intro c
    have hrows := hkept.rows_of_combination htidy c
    rw [latestOf_booksOf] at hrows
    cases hlast : lastOf c (recordings turns) with
    | none =>
        rw [hlast] at hrows
        exact hrows
    | some e =>
        rw [hlast] at hrows
        exact ⟨Latest.overwriting e, hrows, rfl, decode_row e latestRows⟩
  · intro c
    exact lastOf_eq_none_iff
  · intro row hrow
    rw [hkept.latest] at hrow
    obtain ⟨e, he, rfl⟩ := List.mem_map.mp hrow
    have hlast := htidy.mem_latest_iff.mp he
    rw [latestOf_booksOf] at hlast
    obtain ⟨r, hr, rfl, -⟩ := exists_of_lastOf hlast
    exact ⟨r, hr, ((Latest.spelled_overwriting r.execution).holds_filter _).mpr rfl⟩
  · intro t ht
    rw [run_concat]
    exact t.rows_after ht (by decide) (run turns)

end FleetLedger
