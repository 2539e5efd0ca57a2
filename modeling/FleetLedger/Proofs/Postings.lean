import FleetLedger.Proofs.Books

/-!
# What many writes amount to

A `Posting` is one write of recording that is carried out.  What a list of them does to the books
can be said for each of the three views on its own, without following the list:

* the history gains the executions of the history writes, in order (`history_foldl`);
* the latest execution of a combination is the one that was written last (`latestOf_foldl`);
* each count grows by the number of writes that concern its period (`countOf_foldl`).

The last of these does not depend on the order of the postings, and none of them depends on how
postings that concern different views lie between each other.  That there is one row for each
combination and one for each period is an invariant (`Tidy`).
-/

namespace FleetLedger

open Ledger

/-- A write of recording that is carried out. -/
structure Posting where
  recording : Recording
  part : Part

namespace Posting

/-- The write that a posting carries out. -/
def write (q : Posting) : Write := q.recording.write q.part

/-- What the writes of one part record, in the order of the writes. -/
def entries (part : Part) (qs : List Posting) : List Recording :=
  (qs.filter (·.part = part)).map (·.recording)

lemma entries_cons (part : Part) (q : Posting) (qs : List Posting) :
    entries part (q :: qs)
      = if q.part = part then q.recording :: entries part qs else entries part qs := by
  simp only [entries]
  by_cases h : q.part = part <;> simp [h]

lemma entries_append (part : Part) (qs qs' : List Posting) :
    entries part (qs ++ qs') = entries part qs ++ entries part qs' := by
  simp only [entries]
  rw [List.filter_append, List.map_append]

end Posting

/-- The execution of a combination that was recorded last. -/
def lastOf (c : Execution.Combination) (rs : List Recording) : Option Execution :=
  ((rs.map (·.execution)).filter (·.combination = c)).getLast?

/-- The first recording counts if none comes after it for the same combination. -/
lemma lastOf_cons (c : Execution.Combination) (r : Recording) (rs : List Recording) :
    lastOf c (r :: rs)
      = (lastOf c rs).or (if r.execution.combination = c then some r.execution else none) := by
  simp only [lastOf]
  by_cases h : r.execution.combination = c
  · cases hrest : ((rs.map (·.execution)).filter (·.combination = c)).getLast? <;>
      simp [h, hrest, List.getLast?_cons]
  · simp [h]

lemma lastOf_append (c : Execution.Combination) (rs rs' : List Recording) :
    lastOf c (rs ++ rs') = (lastOf c rs').or (lastOf c rs) := by
  simp only [lastOf]
  rw [List.map_append, List.filter_append, List.getLast?_append]

/-- What was recorded last for a combination was recorded, and for it. -/
lemma exists_of_lastOf {c : Execution.Combination} {rs : List Recording} {e : Execution}
    (h : lastOf c rs = some e) : ∃ r ∈ rs, r.execution = e ∧ e.combination = c := by
  obtain ⟨hmem, hc⟩ := List.mem_filter.mp (List.mem_of_getLast? h)
  obtain ⟨r, hr, he⟩ := List.mem_map.mp hmem
  exact ⟨r, hr, he, of_decide_eq_true hc⟩

lemma lastOf_eq_none_iff {c : Execution.Combination} {rs : List Recording} :
    lastOf c rs = none ↔ ∀ r ∈ rs, r.execution.combination ≠ c := by
  rw [lastOf, List.getLast?_eq_none_iff, List.filter_eq_nil_iff]
  simp

/-! ## Carrying out -/

/-- What is stored after a posting. -/
def Memory.post (s : Memory) (q : Posting) : Memory := q.write.apply s

namespace Books

/-- The books after a posting. -/
def post (b : Books) (q : Posting) : Books := b.write q.recording q.part

/-- Books that keep what is stored do so after any postings. -/
lemma Kept.foldl_post {b : Books} {s : Memory} (h : b.Kept s) (qs : List Posting) :
    (qs.foldl post b).Kept (qs.foldl Memory.post s) := by
  induction qs generalizing b s with
  | nil => exact h
  | cons q qs ih => exact ih (h.write q.recording q.part)

/-! ## The views -/

/-- The execution of a combination that is the latest. -/
def latestOf (b : Books) (c : Execution.Combination) : Option Execution :=
  b.latest.find? (·.combination = c)

/-- How many executions were counted for a period. -/
def countOf (b : Books) (p : Period) : Count :=
  (b.counts.find? (·.period = p)).getD { period := p }

/-- The count of a period is always one of this period, be there a row or not. -/
lemma period_countOf (b : Books) (p : Period) : (b.countOf p).period = p := by
  simp only [countOf]
  cases h : b.counts.find? (·.period = p) with
  | none => rfl
  | some c => simpa using List.find?_some h

/-- Only a write of the history adds to the history. -/
lemma history_post (b : Books) (q : Posting) :
    (b.post q).history
      = if q.part = .history then b.history ++ [q.recording.execution] else b.history := by
  obtain ⟨r, p⟩ := q
  cases p <;> rfl

/-- A latest execution is replaced by a write of the projection for its combination, and by nothing
else. -/
lemma latestOf_post (b : Books) (q : Posting) (c : Execution.Combination) :
    (b.post q).latestOf c
      = if q.part = .latest ∧ q.recording.execution.combination = c then some q.recording.execution
        else b.latestOf c := by
  obtain ⟨r, p⟩ := q
  cases p with
  | latest =>
      have hfind : (keepLatest b.latest r.execution).find? (·.combination = c)
          = if r.execution.combination = c then
              some (((b.latest.find? (·.combination = r.execution.combination)).map
                fun _ => r.execution).getD r.execution)
            else b.latest.find? (·.combination = c) :=
        find?_amend (fun _ _ => rfl) rfl c b.latest
      simp only [post, write, latestOf, hfind, true_and]
      cases b.latest.find? (fun x => x.combination = r.execution.combination) <;> rfl
  | history => simp [post, write, latestOf]
  | daily => simp [post, write, latestOf]
  | allTime => simp [post, write, latestOf]

/-- Counting for one period leaves the counts of all others. -/
lemma find?_countOne (counts : List Count) (p p' : Period) (success : Bool) :
    ((countOne p counts success).find? (·.period = p')).getD { period := p' }
      = if p = p' then
          ((counts.find? (·.period = p')).getD { period := p' }).add success
        else (counts.find? (·.period = p')).getD { period := p' } := by
  have hfind : (countOne p counts success).find? (·.period = p')
      = if p = p' then
          some (((counts.find? (·.period = p)).map (·.add success)).getD
            (Count.add { period := p } success))
        else counts.find? (·.period = p') :=
    find?_amend (fun c hc => by simpa using hc) (by simp) p' counts
  rw [hfind]
  by_cases h : p = p'
  · subst h
    cases counts.find? (·.period = p) <;> simp
  · simp [h]

/-- A count moves with a write of its part that falls into its period, and by one. -/
lemma countOf_post (b : Books) (q : Posting) (p : Period) :
    (b.post q).countOf p
      = if q.part = p.part ∧ q.recording.falls p then
          (b.countOf p).add q.recording.execution.success
        else b.countOf p := by
  obtain ⟨r, part⟩ := q
  cases part with
  | history => cases p <;> simp [post, write, countOf, Period.part]
  | latest => cases p <;> simp [post, write, countOf, Period.part]
  | daily =>
      have hcount := find?_countOne b.counts (.day r.day.text) p r.execution.success
      cases p <;> simpa [post, write, countOf, Period.part, Recording.falls] using hcount
  | allTime =>
      have hcount := find?_countOne b.counts .allTime p r.execution.success
      cases p <;> simpa [post, write, countOf, Period.part, Recording.falls] using hcount

/-! ## Many postings -/

/-- **The history gains** what its writes record, in order. -/
theorem history_foldl (b : Books) (qs : List Posting) :
    (qs.foldl post b).history
      = b.history ++ (Posting.entries .history qs).map (·.execution) := by
  induction qs generalizing b with
  | nil => exact (List.append_nil _).symm
  | cons q qs ih =>
      rw [List.foldl_cons, ih, history_post, Posting.entries_cons]
      split <;> simp

/-- **The last write counts.** -/
theorem latestOf_foldl (b : Books) (qs : List Posting) (c : Execution.Combination) :
    (qs.foldl post b).latestOf c = (lastOf c (Posting.entries .latest qs)).or (b.latestOf c) := by
  induction qs generalizing b with
  | nil => rfl
  | cons q qs ih =>
      -- what comes later wins, so the writes that remain are asked before the first
      rw [List.foldl_cons, ih, latestOf_post, Posting.entries_cons]
      by_cases hpart : q.part = .latest
      · by_cases hc : q.recording.execution.combination = c
        · simp [hpart, hc, lastOf_cons]
        · simp [hpart, hc, lastOf_cons]
      · simp [hpart]

/-- **A count grows by as many as were counted.** -/
theorem countOf_foldl (b : Books) (qs : List Posting) (p : Period) :
    (qs.foldl post b).countOf p
      = { period := p
          succeeded := (b.countOf p).succeeded + (Count.of p (Posting.entries p.part qs)).succeeded
          failed := (b.countOf p).failed + (Count.of p (Posting.entries p.part qs)).failed } := by
  induction qs generalizing b with
  | nil =>
      have hperiod := b.period_countOf p
      rw [List.foldl_nil, Count.mk.injEq]
      exact ⟨hperiod, rfl, rfl⟩
  | cons q qs ih =>
      rw [List.foldl_cons, ih, countOf_post, Posting.entries_cons]
      -- the count moves only where the write is of the right part and falls into the period
      by_cases hpart : q.part = p.part
      · by_cases hfalls : q.recording.falls p = true
        · cases hs : q.recording.execution.success <;>
            simp [hpart, hfalls, hs, Count.of, Count.add] <;> omega
        · simp [hpart, hfalls, Count.of]
      · simp [hpart]

/-! ## One row for each key -/

/-- No combination has two rows, and no period. -/
structure Tidy (b : Books) : Prop where
  latest : (b.latest.map Execution.combination).Nodup
  counts : (b.counts.map Count.period).Nodup

lemma tidy_empty : Tidy {} := ⟨List.nodup_nil, List.nodup_nil⟩

/-- Counting opens a row only for a period without one. -/
lemma nodup_countOne {counts : List Count} (h : (counts.map Count.period).Nodup) (p : Period)
    (success : Bool) : ((countOne p counts success).map Count.period).Nodup :=
  nodup_amend (fun c hc => by simpa using hc) (by simp) h

/-- A posting opens no second row. -/
lemma Tidy.post {b : Books} (h : Tidy b) (q : Posting) : Tidy (b.post q) := by
  obtain ⟨r, p⟩ := q
  cases p with
  | history => exact ⟨h.latest, h.counts⟩
  | latest => exact ⟨nodup_amend (fun _ _ => rfl) rfl h.latest, h.counts⟩
  | daily => exact ⟨h.latest, nodup_countOne h.counts _ _⟩
  | allTime => exact ⟨h.latest, nodup_countOne h.counts _ _⟩

lemma Tidy.foldl_post {b : Books} (h : Tidy b) (qs : List Posting) :
    Tidy (qs.foldl Books.post b) := by
  induction qs generalizing b with
  | nil => exact h
  | cons q qs ih => exact ih (h.post q)

/-- Where each combination has one row, the rows are the latest executions. -/
lemma Tidy.mem_latest_iff {b : Books} (h : Tidy b) {e : Execution} :
    e ∈ b.latest ↔ b.latestOf e.combination = some e := by
  rw [latestOf, find?_key_eq_some_iff h.latest]
  exact (and_iff_left rfl).symm

end Books

end FleetLedger
