import Mathlib.Data.List.Forall2
import FleetLedger.Proofs.Sorting
import FleetLedger.Store.Memory

/-!
# The operations of a collection select alike

Searching, counting, changing and removing each walk a collection on their own, and only a search sorts
what it finds.  **`operations_select_alike`** says that they agree: there is one list of rows, in the
order of the keys and then of insertion, and an operation answers with a part of that list or with its
length, and changes or removes just the documents in it.

`Sorting` has the list of rows.  What is added here is how a selection cuts a segment out of it
(`Selection.getElem?_apply`), and what a change leaves alone: other collections (`OnlyIn`), and in its own
one the documents that the filter does not hold of, and the places of all of them (`SetWhere`).
-/

namespace FleetLedger

/-! ## What a selection returns -/

/-- The document without some of its fields. -/
def Document.without (names : List String) (d : Document) : Document :=
  d.filter fun field => field.1 ∉ names

lemma Document.foldl_erase (names : List String) (d : Document) :
    names.foldl Table.erase d = d.without names := by
  induction names generalizing d with
  | nil => exact (List.filter_eq_self.mpr fun _ _ => by simp).symm
  | cons name names ih =>
      rw [List.foldl_cons, ih, without, without, Table.erase, List.filter_filter]
      refine List.filter_congr fun field _ => ?_
      simp only [List.mem_cons, not_or, Bool.decide_and, Bool.and_comm]

lemma Document.sort_nil (docs : List Document) : sort [] docs = docs :=
  List.mergeSort_of_pairwise (List.pairwise_of_forall fun _ _ => rfl)

namespace Selection

/-- A selection without a sort order keeps documents as they were found, which is sorting by no key. -/
lemma sort_eq (s : Selection) (docs : List Document) :
    (if s.sort.isEmpty then docs else Document.sort s.sort docs) = Document.sort s.sort docs := by
  cases s.sort with
  | nil => exact (Document.sort_nil docs).symm
  | cons k keys => rfl

lemma apply_sort (keys : List SortKey) (docs : List Document) :
    ({ sort := keys } : Selection).apply docs = Document.sort keys docs := by
  simp only [apply, List.foldl_nil, List.drop_zero, List.map_id']
  exact sort_eq { sort := keys } docs

/-- **A selection cuts a segment out of the sorted documents.** -/
theorem getElem?_apply (s : Selection) (docs : List Document) (i : Nat) :
    (s.apply docs)[i]? = if ∀ n ∈ s.limit, i < n then
      ((Document.sort s.sort docs)[s.skip + i]?).map (Document.without s.exclude) else none := by
  simp only [apply, sort_eq, List.getElem?_map, Document.foldl_erase]
  cases s.limit with
  | none => simp
  | some n =>
      rw [List.getElem?_take]
      by_cases hi : i < n <;> simp [hi]

end Selection

/-! ## What changes leave alone -/

namespace Memory

/-- Two contents differ in one collection at most. -/
structure OnlyIn (c : String) (s s' : Memory) : Prop where
  collections : ∀ other, other ≠ c → s'.collections.get? other = s.collections.get? other
  indexes : s'.indexes = s.indexes

lemma onlyIn_refl (c : String) (s : Memory) : OnlyIn c s s := ⟨fun _ _ => rfl, rfl⟩

lemma onlyIn_setRows (c : String) (s : Memory) (docs : List Document) :
    OnlyIn c s (s.setRows c docs) :=
  ⟨fun _ hother => (Table.get?_insert ..).trans (if_neg (Ne.symm hother)), rfl⟩

/-- An update touches no other collection. -/
lemma onlyIn_updateMany (s : Memory) (c : String) (f : Filter) (fields : Document) :
    OnlyIn c s (s.updateMany c f fields).1 := by
  rw [updateMany]
  cases s.collections.get? c with
  | none => exact onlyIn_refl c s
  | some docs => exact onlyIn_setRows c s _

lemma onlyIn_deleteMany (s : Memory) (c : String) (f : Filter) :
    OnlyIn c s (s.deleteMany c f).1 := by
  rw [deleteMany]
  cases s.collections.get? c with
  | none => exact onlyIn_refl c s
  | some docs => exact onlyIn_setRows c s _

end Memory

/-- A document before and after fields are set where a filter holds: what is set has the last value
that is given for it, and what is not set stays. -/
structure SetWhere (f : Filter) (fields d d' : Document) : Prop where
  unmatched : f.holds d = false → d' = d
  matched : f.holds d = true →
    ∀ name, d'.get? name = ((Table.ofList fields).get? name).or (d.get? name)

lemma setWhere_apply (f : Filter) (fields d : Document) :
    SetWhere f fields d (if f.holds d then (Update.set fields).apply d else d) where
  unmatched h := if_neg (ne_true_of_eq_false h)
  matched h name := by
    rw [if_pos h, Update.apply, Table.ofList, Table.get?_merge_getLast?, Table.get?_merge_getLast?,
      Table.get?_nil, Option.or_none]

/-! ## All operations together -/

/-- **The operations of a collection select alike.**  Whatever is stored, let a selection sort by fields
that hold values of one kind each in the documents that a filter holds of.  Then there is one list of rows,
all of the documents that the filter holds of, in the order of the keys and, where these tell nothing
apart, of insertion.  A search that only sorts returns their documents; one that also skips, stops and
leaves out fields returns just that segment, without these fields.  There are as many rows as are counted.
A search for one finds the first that a search without any order finds.  Setting fields and removing answer
with the number of rows.  The one sets the fields where the filter held before, and leaves all other
documents as they are and all of them in their places; the other leaves the documents that the filter does
not hold of.  None of them changes another collection. -/
theorem operations_select_alike (s : Memory) (c : String) (f : Filter) (sel : Selection)
    (h : Uniform sel.sort ((s.rows c).filter f.holds)) :
    ∃ rows : List (Document × Nat),
      rows.Perm ((s.rows c).filter f.holds).zipIdx
      ∧ rows.Pairwise (Earlier sel.sort)
      ∧ (Memory.store.find c f { sort := sel.sort }).run.run s = (.ok (rows.map Prod.fst), s)
      ∧ (∃ page, (Memory.store.find c f sel).run.run s = (.ok page, s)
        ∧ ∀ i, page[i]? = if ∀ n ∈ sel.limit, i < n then
            (rows[sel.skip + i]?).map fun row => row.1.without sel.exclude else none)
      ∧ (Memory.store.count c f).run.run s = (.ok rows.length, s)
      ∧ (∃ found, (Memory.store.find c f {}).run.run s = (.ok found, s)
        ∧ (Memory.store.findOne c f).run.run s = (.ok found.head?, s))
      ∧ (∀ fields, ∃ s', (Memory.store.updateMany c f fields).run.run s = (.ok rows.length, s')
        ∧ s.OnlyIn c s' ∧ List.Forall₂ (SetWhere f fields) (s.rows c) (s'.rows c))
      ∧ ∃ s', (Memory.store.deleteMany c f).run.run s = (.ok rows.length, s')
        ∧ s.OnlyIn c s' ∧ s'.rows c = (s.rows c).filter fun d => !f.holds d := by
  obtain ⟨rows, hperm, hearlier, hrows⟩ := Document.sort_uniform h
  have hlength : rows.length = (s.rows c).countP f.holds := by
    rw [hperm.length_eq, List.length_zipIdx, List.countP_eq_length_filter]
  refine ⟨rows, hperm, hearlier, ?_, ⟨_, rfl, fun i => ?_⟩, ?_, ⟨_, rfl, ?_⟩, fun fields => ?_, ?_⟩
  · rw [hrows, ← Selection.apply_sort]
    rfl
  · rw [Memory.find, Selection.getElem?_apply, ← hrows, List.getElem?_map, Option.map_map]
    rfl
  · rw [hlength]
    rfl
  · have hfound : s.find c f {} = (s.rows c).filter f.holds :=
      (Selection.apply_sort [] _).trans (Document.sort_nil _)
    rw [hfound, List.head?_filter]
    rfl
  · refine ⟨(s.updateMany c f fields).1, ?_, s.onlyIn_updateMany c f fields, ?_⟩
    · rw [hlength, ← s.snd_updateMany c f fields]
      rfl
    · rw [Memory.rows_updateMany, if_pos rfl, List.forall₂_map_right_iff, List.forall₂_same]
      exact fun d _ => setWhere_apply f fields d
  · refine ⟨(s.deleteMany c f).1, ?_, s.onlyIn_deleteMany c f, ?_⟩
    · rw [hlength, ← s.snd_deleteMany c f]
      rfl
    · rw [Memory.rows_deleteMany, if_pos rfl]

/-- Four documents, one of them without a number, and a fifth in another collection. -/
def numbered : Memory :=
  Memory.insertMany (Memory.insertMany {} "c"
    [[("id", .string "a"), ("n", .int 3), ("tag", .string "x")],
      [("id", .string "b"), ("n", .int 1), ("tag", .string "y")],
      [("id", .string "c"), ("n", .int 2), ("tag", .string "x")],
      [("id", .string "d"), ("tag", .string "z")]]) "other" [[("id", .string "e")]]

/-- Numbers of at most two, and no number. -/
def smallOrNone : Filter := .or [.eq "n" .null, .lte "n" (.int 2)]

/-- The last two of the three that the filter holds of, and what is left when these are removed. -/
theorem operations_numbered :
    Uniform [.down "n"] ((numbered.rows "c").filter smallOrNone.holds)
      ∧ ∃ page s',
        (Memory.store.find "c" smallOrNone
            { exclude := ["tag"], sort := [.down "n"], skip := 1, limit := some 5 }).run.run numbered
          = (.ok page, numbered)
        ∧ page.length = 2
        ∧ (Memory.store.deleteMany "c" smallOrNone).run.run numbered = (.ok 3, s')
        ∧ (s'.rows "c").map (fun d => d.get? "id") = [some (.string "a")]
        ∧ s'.collections.get? "other" = some [[("id", .string "e")]] := by
  have huniform : Uniform [.down "n"] ((numbered.rows "c").filter smallOrNone.holds) := by
    intro k hk
    obtain rfl := List.mem_singleton.mp hk
    refine ⟨.whole, fun d hd => ?_⟩
    have hrows : (numbered.rows "c").filter smallOrNone.holds
        = [[("id", .string "b"), ("n", .int 1), ("tag", .string "y")],
          [("id", .string "c"), ("n", .int 2), ("tag", .string "x")],
          [("id", .string "d"), ("tag", .string "z")]] := rfl
    rw [hrows] at hd
    simp only [List.mem_cons, List.not_mem_nil, or_false] at hd
    rcases hd with rfl | rfl | rfl
    · exact .whole (by decide)
    · exact .whole (by decide)
    · exact .null
  obtain ⟨rows, hperm, -, -, ⟨page, hpage, hsegment⟩, -, -, -, s', hdelete, hother, hrows⟩ :=
    operations_select_alike numbered "c" smallOrNone
      { exclude := ["tag"], sort := [.down "n"], skip := 1, limit := some 5 } huniform
  have hlength : rows.length = 3 := hperm.length_eq
  refine ⟨huniform, page, s', hpage, ?_, hlength ▸ hdelete, ?_, ?_⟩
  · have hsecond : ¬ page.length ≤ 1 := by
      rw [← List.getElem?_eq_none_iff, hsegment 1]
      simp [hlength]
    have hlast : page.length ≤ 2 := by
      rw [← List.getElem?_eq_none_iff, hsegment 2]
      simp [hlength]
    omega
  · rw [hrows]
    rfl
  · rw [hother.collections "other" (by decide)]
    rfl

end FleetLedger
