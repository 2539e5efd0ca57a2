import FleetLedger.Proofs.Counts
import FleetLedger.Proofs.KeyedLists
import FleetLedger.Proofs.Rows

/-!
# The books that a store keeps

What the ledger keeps can be written down without documents: the executions in the order in which
they were recorded, the latest one of each combination, and the counts.  `Books` are these three
lists, and `Books.Kept` says that a store keeps them: document by document, each collection shows
its list.

Recording consists of four writes, one for each `Part`.  `Books.write` says what each of them means
for the books, and **`Kept.write`** that the store follows.  As each part concerns one list only,
writes of different parts do not meet, in whatever order they are carried out.
-/

namespace FleetLedger

open Ledger

/-! ## The parts of recording -/

/-- What is recorded: an execution, with its id, on a day. -/
structure Recording where
  execution : Execution
  day : Date

/-- Whether what is recorded falls into a period. -/
def Recording.falls (r : Recording) : Period → Bool
  | .allTime => true
  | .day key => r.day.text = key

/-- How many of several recordings fall into a period. -/
def Count.of (p : Period) (rs : List Recording) : Count where
  period := p
  succeeded := rs.countP fun r => r.falls p && r.execution.success
  failed := rs.countP fun r => r.falls p && !r.execution.success

/-- One of the writes that recording consists of. -/
inductive Part where
  | history
  | latest
  | daily
  | allTime
  deriving DecidableEq

/-- All parts, in the order in which one call carries them out. -/
def Part.all : List Part := [.history, .latest, .daily, .allTime]

/-- The part of recording that counts for a period. -/
def Period.part : Period → Part
  | .allTime => .allTime
  | .day _ => .daily

/-- The collection that a part of recording writes to. -/
def Part.collection : Part → String
  | .history => Ledger.history
  | .latest => latestRows
  | .daily => tallies
  | .allTime => tallies

/-- What a part of recording writes, in the words of the ledger itself. -/
def Recording.write (r : Recording) : Part → Write
  | .history => historyWrite r.execution
  | .latest => latestWrite r.execution
  | .daily => dailyWrite r.execution r.day.text
  | .allTime => allTimeWrite r.execution

lemma writes_eq (r : Recording) : writes r.execution r.day.text = Part.all.map r.write := rfl

/-- What is stored after a write. -/
def Ledger.Write.apply (w : Write) (s : Memory) : Memory :=
  match w.action with
  | .inl docs => s.insertMany w.collection docs
  | .inr (f, u) => s.upsert w.collection f u

lemma Recording.rows_write_of_ne {r : Recording} {p : Part} {collection : String}
    (h : p.collection ≠ collection) (s : Memory) :
    ((r.write p).apply s).rows collection = s.rows collection := by
  cases p with
  | history => exact (Memory.rows_insertMany ..).trans (if_neg h)
  | latest => exact (Memory.rows_upsert ..).trans (if_neg h)
  | daily => exact (Memory.rows_upsert ..).trans (if_neg h)
  | allTime => exact (Memory.rows_upsert ..).trans (if_neg h)

/-! ## Books -/

/-- All that a ledger knows. -/
structure Books where
  /-- The executions that were recorded and not removed since. -/
  history : List Execution := []
  /-- The latest execution of each combination, in the order in which the combinations came up. -/
  latest : List Execution := []
  counts : List Count := []

/-- An execution becomes the latest one of its combination. -/
def keepLatest (rows : List Execution) (e : Execution) : List Execution :=
  amend (fun x => x.combination = e.combination) (fun _ => e) e rows

/-- An execution is counted for a period. -/
def countOne (p : Period) (counts : List Count) (success : Bool) : List Count :=
  amend (fun c => c.period = p) (·.add success) (Count.add { period := p } success) counts

/-- What a part of recording means. -/
def Books.write (b : Books) (r : Recording) : Part → Books
  | .history => { b with history := b.history ++ [r.execution] }
  | .latest => { b with latest := keepLatest b.latest r.execution }
  | .daily => { b with counts := countOne (.day r.day.text) b.counts r.execution.success }
  | .allTime => { b with counts := countOne .allTime b.counts r.execution.success }

/-- **A store keeps books**: each collection shows its list, document by document. -/
structure Books.Kept (b : Books) (s : Memory) : Prop where
  history : s.rows Ledger.history = b.history.map Execution.toDocument
  latest : s.rows latestRows = b.latest.map Latest.overwriting
  counts : List.Forall₂ (fun d c => Count.Shown c d) (s.rows tallies) b.counts

lemma Books.kept_empty : Books.Kept {} {} := ⟨rfl, rfl, List.Forall₂.nil⟩

/-! ## What a write does to the rows -/

/-- An upsert of a latest row puts the execution in the place of the old one. -/
lemma upsertRows_latest (rows : List Execution) (e : Execution) :
    Memory.upsertRows (Latest.rowFilter e) (.set (Latest.overwriting e))
        (rows.map Latest.overwriting)
      = (keepLatest rows e).map Latest.overwriting := by
  have hhit : ∀ x : Execution, (Latest.rowFilter e).holds (Latest.overwriting x)
      = decide (x.combination = e.combination) := fun x => by
    rw [Bool.eq_iff_iff, Execution.rowFilter_eq, decide_eq_true_iff]
    exact (Latest.spelled_overwriting x).holds_filter e.combination
  have happly : ∀ x : Execution, (Update.set (Latest.overwriting e)).apply (Latest.overwriting x)
      = Latest.overwriting e := fun x => Latest.merge_overwriting x e
  rw [Memory.upsertRows_eq_amend, Latest.seed_overwriting]
  exact amend_map hhit happly rows

/-- An upsert of a tally counts one more execution, whether the tally was there or not. -/
lemma forall₂_upsertRows_counts {docs : List Document} {counts : List Count}
    (h : List.Forall₂ (fun d c => Count.Shown c d) docs counts) (p : Period) (e : Execution) :
    List.Forall₂ (fun d c => Count.Shown c d) (Memory.upsertRows p.filter (increments e) docs)
      (countOne p counts e.success) := by
  have hfresh := (Count.shown_pinned p).increments e
  rw [Memory.upsertRows_eq_amend]
  refine forall₂_amend (R := fun d c => Count.Shown c d) ?_ ?_ hfresh h
  · intro d c hd
    rw [Bool.eq_iff_iff, hd.holds_filter p, decide_eq_true_iff]
  · intro d c hd _
    exact hd.increments e

/-- **The store follows the books** through every part of recording. -/
theorem Books.Kept.write {b : Books} {s : Memory} (h : b.Kept s) (r : Recording) (p : Part) :
    (b.write r p).Kept ((r.write p).apply s) := by
  -- each case has one collection to follow; the other two are as they were
  have hother : ∀ {c}, p.collection ≠ c → ((r.write p).apply s).rows c = s.rows c :=
    fun hne => Recording.rows_write_of_ne hne s
  cases p with
  | history =>
      have hrows : ((r.write .history).apply s).rows Ledger.history
          = s.rows Ledger.history ++ [r.execution.toDocument] :=
        (Memory.rows_insertMany ..).trans (if_pos rfl)
      have htallies : ((r.write .history).apply s).rows tallies = s.rows tallies :=
        hother (by decide)
      refine ⟨?_, (hother (by decide)).trans h.latest, htallies ▸ h.counts⟩
      rw [hrows, h.history, Books.write, List.map_append]
      rfl
  | latest =>
      have hrows : ((r.write .latest).apply s).rows latestRows
          = Memory.upsertRows (Latest.rowFilter r.execution)
              (.set (Latest.overwriting r.execution)) (s.rows latestRows) :=
        (Memory.rows_upsert ..).trans (if_pos rfl)
      have htallies : ((r.write .latest).apply s).rows tallies = s.rows tallies :=
        hother (by decide)
      refine ⟨(hother (by decide)).trans h.history, ?_, htallies ▸ h.counts⟩
      rw [hrows, h.latest]
      exact upsertRows_latest b.latest r.execution
  | daily =>
      have hrows : ((r.write .daily).apply s).rows tallies
          = Memory.upsertRows (Period.day r.day.text).filter (increments r.execution)
              (s.rows tallies) :=
        (Memory.rows_upsert ..).trans (if_pos rfl)
      refine ⟨(hother (by decide)).trans h.history, (hother (by decide)).trans h.latest, ?_⟩
      rw [hrows]
      exact forall₂_upsertRows_counts h.counts _ r.execution
  | allTime =>
      have hrows : ((r.write .allTime).apply s).rows tallies
          = Memory.upsertRows Period.allTime.filter (increments r.execution) (s.rows tallies) :=
        (Memory.rows_upsert ..).trans (if_pos rfl)
      refine ⟨(hother (by decide)).trans h.history, (hother (by decide)).trans h.latest, ?_⟩
      rw [hrows]
      exact forall₂_upsertRows_counts h.counts _ r.execution

end FleetLedger
