import FleetLedger.Proofs.Scoping
import FleetLedger.Proofs.SearchTexts
import FleetLedger.Proofs.Selections

/-!
# The answers of searches

A collection is kept in memory as a list of documents, and in a database as rows with ids.  A search in
memory sorts the list, and documents that no key tells apart stay as they were inserted.  A database orders
rows by the terms of a text, each of which says where rows go without a value, and by their ids in the end.
**`searches_agree`**: both give the same documents in the same order.

As ids are all different, the terms allow one order only, and it is that of `Sorting` with the ids for
places (`orderBy?_eq`, `allowed_iff`).  The list in memory is brought into this order too, for ids ascend as
documents are inserted (`exists_ordered`).
-/

namespace FleetLedger

/-- Rows keep their order if their places are exchanged for others that are in the same order. -/
lemma Earlier.relabel {keys : List SortKey} {a b : Document} {i j m n : Nat}
    (h : Earlier keys (a, i) (b, j)) (hplaces : i < j → m < n) : Earlier keys (a, m) (b, n) := by
  induction keys with
  | nil => exact hplaces h
  | cons k keys ih => exact h.imp_right fun ⟨hvalue, hrest⟩ => ⟨hvalue, ih hrest⟩

namespace Sql

/-! ## The order that the terms allow -/

/-- The fields of the keys are integers of the signed range in all rows, if they are there. -/
def WholeKeys (keys : List SortKey) (rows : List StoredRow) : Prop :=
  ∀ k ∈ keys, ∀ r ∈ rows, ∀ v, r.doc.get? k.field = some v → v.signed?.isSome = true

lemma WholeKeys.tail {k : SortKey} {keys : List SortKey} {rows : List StoredRow}
    (h : WholeKeys (k :: keys) rows) : WholeKeys keys rows :=
  fun k' hk' => h k' (List.mem_cons_of_mem k hk')

lemma WholeKeys.uniform {keys : List SortKey} {rows : List StoredRow} (h : WholeKeys keys rows) :
    Uniform keys (rows.map fun r => r.doc) := by
  refine fun k hk => ⟨.whole, fun d hd => ?_⟩
  obtain ⟨r, hr, rfl⟩ := List.mem_map.mp hd
  rw [SortKey.value, Document.getOrNull]
  cases hget : r.doc.get? k.field with
  | none => exact .null
  | some v =>
      obtain ⟨n, rfl, hn⟩ := Json.exists_int_of_signed? (h k hk r hr v hget)
      exact .whole hn

/-- A key puts documents into the order that its term says, those without the field included. -/
lemma compare?_keyTerm {k : SortKey} {a b : Document}
    (ha : ∀ v, a.get? k.field = some v → v.signed?.isSome = true)
    (hb : ∀ v, b.get? k.field = some v → v.signed?.isSome = true) :
    (Search.keyTerm k).compare? (fieldDatum a k.field) (fieldDatum b k.field)
      = some (k.order a b) := by
  obtain ⟨name, direction⟩ := k
  rw [SortKey.order, Document.getOrNull, Document.getOrNull, fieldDatum, fieldDatum]
  cases hgeta : a.get? name with
  | none =>
      cases hgetb : b.get? name with
      | none => cases direction <;> rfl
      | some w =>
          obtain ⟨n, rfl, -⟩ := Json.exists_int_of_signed? (hb w hgetb)
          cases direction <;> rfl
  | some v =>
      obtain ⟨m, rfl, hm⟩ := Json.exists_int_of_signed? (ha v hgeta)
      cases hgetb : b.get? name with
      | none => cases direction <;> rfl
      | some w =>
          obtain ⟨n, rfl, hn⟩ := Json.exists_int_of_signed? (hb w hgetb)
          simp only [Option.getD_some, Option.map_some, Json.sortOrder_whole hm hn]
          cases direction <;> rfl

lemma compare_cast (m n : Nat) : compare (m : Int) (n : Int) = compare m n := by
  simp only [compare, compareOfLessAndEq, Int.ofNat_lt, Int.natCast_inj]

/-- **The terms order rows by the keys, and by their ids in the end.** -/
theorem orderBy?_eq {keys : List SortKey} {rows : List StoredRow} (h : WholeKeys keys rows)
    {a b : StoredRow} (ha : a ∈ rows) (hb : b ∈ rows) :
    orderBy? (keys.map Search.keyTerm ++ [Search.idTerm]) a b
      = some ((Document.order keys a.doc b.doc).then (compare a.id b.id)) := by
  induction keys with
  | nil =>
      have hid : orderBy? [Search.idTerm] a b
          = some ((compare (a.id : Int) (b.id : Int)).then .eq) := rfl
      rw [List.map_nil, List.nil_append, hid, compare_cast, Ordering.then_eq]
      rfl
  | cons k keys ih =>
      have hk := h k List.mem_cons_self
      have hvalue : ∀ r : StoredRow,
          (Search.keyTerm k).value? r = some (fieldDatum r.doc k.field) := fun _ => rfl
      have horder : Document.order (k :: keys) a.doc b.doc
          = (k.order a.doc b.doc).then (Document.order keys a.doc b.doc) := rfl
      rw [List.map_cons, List.cons_append, orderBy?, hvalue, hvalue, ih h.tail, horder,
        Ordering.then_assoc]
      simp only [Option.bind_eq_bind, Option.bind_some, compare?_keyTerm (hk a ha) (hk b hb)]
      rfl

/-- Of two rows with different ids one is earlier, and the terms allow it to come first. -/
lemma earlier_iff_orderBy? {keys : List SortKey} {rows : List StoredRow}
    (h : WholeKeys keys rows) {a b : StoredRow} (ha : a ∈ rows) (hb : b ∈ rows)
    (hids : a.id ≠ b.id) :
    (∃ o, orderBy? (keys.map Search.keyTerm ++ [Search.idTerm]) a b = some o ∧ o ≠ .gt)
      ↔ Earlier keys (a.doc, a.id) (b.doc, b.id) := by
  have hearlier := Document.earlier_iff h.uniform (List.mem_map_of_mem ha) (List.mem_map_of_mem hb)
    a.id b.id
  rw [orderBy?_eq h ha hb, hearlier]
  cases ho : (Document.order keys a.doc b.doc).then (compare a.id b.id) with
  | lt => simp
  | gt => simp
  | eq => exact absurd (Nat.compare_eq_eq.mp (Ordering.then_eq_eq.mp ho).2) hids

/-- **The terms allow the rows in a list** just if each of them is earlier than those that follow. -/
theorem allowed_iff {keys : List SortKey} {rows l : List StoredRow} (h : WholeKeys keys rows)
    (hids : rows.Pairwise fun a b => a.id < b.id) (hl : l.Perm rows) :
    (l.Pairwise fun a b =>
        ∃ o, orderBy? (keys.map Search.keyTerm ++ [Search.idTerm]) a b = some o ∧ o ≠ .gt)
      ↔ l.Pairwise fun a b => Earlier keys (a.doc, a.id) (b.doc, b.id) := by
  have hdistinct : l.Pairwise fun a b => a.id ≠ b.id :=
    (hl.pairwise_iff fun hne => Ne.symm hne).mpr (hids.imp fun hlt => Nat.ne_of_lt hlt)
  have hiff : ∀ a b : StoredRow, a ∈ l → b ∈ l → a.id ≠ b.id → _ := fun a b ha hb hne =>
    earlier_iff_orderBy? h (hl.mem_iff.mp ha) (hl.mem_iff.mp hb) hne
  constructor
  · intro hallowed
    exact (hallowed.and hdistinct).imp_of_mem fun ha hb hab => (hiff _ _ ha hb hab.2).mp hab.1
  · intro hearlier
    exact (hearlier.and hdistinct).imp_of_mem fun ha hb hab => (hiff _ _ ha hb hab.2).mpr hab.1

/-! ## The order in memory -/

/-- **Sorting the documents of rows brings the rows into order**, for their ids ascend. -/
theorem exists_ordered {keys : List SortKey} {rows : List StoredRow} (h : WholeKeys keys rows)
    (hids : rows.Pairwise fun a b => a.id < b.id) :
    ∃ ordered : List StoredRow, ordered.Perm rows
      ∧ (ordered.Pairwise fun a b => Earlier keys (a.doc, a.id) (b.doc, b.id))
      ∧ ordered.map (fun r => r.doc) = Document.sort keys (rows.map fun r => r.doc) := by
  obtain ⟨pairs, hperm, hearlier, hsort⟩ := Document.sort_uniform h.uniform
  -- each pair is a row at its place
  have hplaced : List.Forall₂ (fun p (x : StoredRow × Nat) => p = (x.1.doc, x.2))
      (rows.map fun r => r.doc).zipIdx rows.zipIdx := by
    rw [List.zipIdx_map, List.forall₂_map_left_iff, List.forall₂_same]
    exact fun _ _ => rfl
  obtain ⟨placed, hpairs, hplacedPerm⟩ := List.perm_comp_forall₂ hperm hplaced
  have hmap : pairs = placed.map fun x => (x.1.doc, x.2) := by
    rw [← List.forall₂_eq_eq_eq, List.forall₂_map_right_iff]
    exact hpairs
  refine ⟨placed.map Prod.fst, ?_, ?_, ?_⟩
  · have hrows := hplacedPerm.map Prod.fst
    rwa [List.zipIdx_map_fst] at hrows
  · rw [hmap, List.pairwise_map] at hearlier
    rw [List.pairwise_map]
    refine hearlier.imp_of_mem fun {x y} hx hy hxy => hxy.relabel fun hlt => ?_
    have hx := List.mem_zipIdx_iff_getElem?.mp (hplacedPerm.mem_iff.mp hx)
    have hy := List.mem_zipIdx_iff_getElem?.mp (hplacedPerm.mem_iff.mp hy)
    obtain ⟨hi, hgetx⟩ := List.getElem?_eq_some_iff.mp hx
    obtain ⟨hj, hgety⟩ := List.getElem?_eq_some_iff.mp hy
    rw [← hgetx, ← hgety]
    exact List.pairwise_iff_getElem.mp hids x.2 y.2 hi hj hlt
  · rw [← hsort, hmap, List.map_map, List.map_map]
    rfl

/-! ## Answers -/

/-- What is shown of a row is its document without the fields that are left out. -/
lemma eval_shownExpr (names : List String) (row : DocumentRow) :
    (Search.shownExpr names).eval row = some (.jsonb (.object (row.doc.without names))) := by
  cases names with
  | nil =>
      have hwhole : row.doc.without [] = row.doc := List.filter_eq_self.mpr fun _ _ => by simp
      rw [hwhole]
      rfl
  | cons name names => rfl

/-- Numbers that are cut down cut the same segment out where there are not as many items. -/
lemma segment_min {α : Type} {greatest : Nat} {items : List α} (h : items.length ≤ greatest)
    (skip : Nat) (limit : Option Nat) :
    segment (min skip greatest) (limit.map (min · greatest)) items = segment skip limit items := by
  have hdrop : items.drop (min skip greatest) = items.drop skip := by
    rw [List.drop_eq_drop_min, List.drop_eq_drop_min (i := skip), Nat.min_assoc,
      Nat.min_eq_right h]
  cases limit with
  | none => exact hdrop
  | some n =>
      have hrest : (items.drop skip).length ≤ greatest := by
        rw [List.length_drop]
        exact Nat.le_trans (Nat.sub_le ..) h
      have htake : (items.drop skip).take (min n greatest) = (items.drop skip).take n := by
        rw [List.take_eq_take_min, List.take_eq_take_min (i := n), Nat.min_assoc,
          Nat.min_eq_right hrest]
      simp only [segment, Option.map_some, hdrop, htake]

lemma segment_map {α β : Type} (g : α → β) (skip : Nat) (limit : Option Nat) (items : List α) :
    segment skip limit (items.map g) = (segment skip limit items).map g := by
  cases limit with
  | none => exact List.map_drop.symm
  | some n => simp only [segment, List.map_drop, List.map_take]

/-- A selection returns a segment of the sorted documents, without the fields that are left out. -/
lemma apply_eq_segment (s : Selection) (docs : List Document) :
    s.apply docs
      = (segment s.skip s.limit (Document.sort s.sort docs)).map (Document.without s.exclude) := by
  simp only [Selection.apply, Selection.sort_eq, Document.foldl_erase]
  cases s.limit <;> rfl

/-- **Of the selected rows just those documents may be shown**, in just that order, that a selection
returns of their documents. -/
theorem shows_iff (collection : String) (f : Filter) (s : Selection) {rows : List StoredRow}
    (hkeys : WholeKeys s.sort rows) (hids : rows.Pairwise fun a b => a.id < b.id)
    (hrows : rows.length ≤ Search.greatestCount) (answer : List Datum) :
    (Search.ofSelection collection f s).Shows rows answer
      ↔ answer = (s.apply (rows.map fun r => r.doc)).map fun d => .jsonb (.object d) := by
  obtain ⟨ordered, hperm, hearlier, hsort⟩ := exists_ordered hkeys hids
  have hshown : ∀ l : List StoredRow,
      l.map (fun r => (Search.ofSelection collection f s).shown.eval r.toDocumentRow)
        = (l.map fun r => Datum.jsonb (.object (r.doc.without s.exclude))).map some := by
    intro l
    rw [List.map_map]
    exact List.map_congr_left fun r _ => eval_shownExpr s.exclude r.toDocumentRow
  have hsegment : segment (min s.skip Search.greatestCount)
      (s.limit.map (min · Search.greatestCount)) ordered = segment s.skip s.limit ordered :=
    segment_min (Nat.le_trans (Nat.le_of_eq hperm.length_eq) hrows) s.skip s.limit
  rw [apply_eq_segment, ← hsort, segment_map, List.map_map, List.map_map, ← hsegment]
  constructor
  · rintro ⟨l, hl, hpairwise, hanswer⟩
    -- no other order is allowed
    have hunique : l = ordered := by
      refine List.Perm.eq_of_pairwise (fun a b _ _ hab hba => ?_)
        ((allowed_iff hkeys hids hl).mp hpairwise) hearlier (hl.trans hperm.symm)
      exact absurd (hab.trans hba) Earlier.irrefl
    subst hunique
    rw [hshown] at hanswer
    exact (List.map_injective_iff.mpr (fun _ _ => Option.some.inj) hanswer).symm
  · rintro rfl
    exact ⟨ordered, hperm, (allowed_iff hkeys hids hperm).mpr hearlier, hshown _⟩

/-- A scope says of each row what it is meant to say, if the rows of the collection fit the filter. -/
lemma says_scopeExpr {collection : String} {f : Filter} (hf : f.plain = true) {row : DocumentRow}
    (hfits : row.collection = collection → f.Fits row.doc) :
    Says ((scopeExpr collection f).eval row)
      (row.collection == collection && f.holds row.doc) := by
  rw [eval_scopeExpr]
  cases hrow : row.collection == collection with
  | false =>
      rw [junction?_decisive]
      exact .truth false
  | true =>
      exact (Says.truth true).junction false
        (says_filterExpr row.collection f hf (hfits (beq_iff_eq.mp hrow)))

lemma Search.selects_eq {s : Search} {row : StoredRow} {b : Bool}
    (h : Says (s.condition.eval row.toDocumentRow) b) : s.selects row = b := by
  obtain ⟨d, hd, htrue⟩ := h.eq_true_iff
  rw [Bool.eq_iff_iff, ← htrue, Search.selects, hd]
  cases d <;> simp

/-- The rows of a collection that a filter holds of. -/
def selected (collection : String) (f : Filter) (table : List StoredRow) : List StoredRow :=
  table.filter fun r => r.collection == collection && f.holds r.doc

/-- **Searches in memory and in a database agree.**  Let the rows of a table have ascending ids, and let
there be fewer than 2⁶³ of them; let the documents in memory be those of the rows, one after the other; and
let the fields of the sort keys be integers of the signed range in the rows that a filter holds of, if they
are there.

Then the text of the search is read to a search with the condition that the text of the scope is read to.
Whatever the filter is, the keys, the numbers of rows to pass over and to return, and the fields to leave
out: of the rows that the filter holds of, the search may show just the documents that are found in memory,
in just their order, and nothing else.

If the filter is plain and the rows fit it, these rows are the ones that the condition is true of, so the
search may answer just that. -/
theorem searches_agree (collection : String) (f : Filter) (sel : Selection) (s : Memory)
    (table : List StoredRow) (hids : table.Pairwise fun a b => a.id < b.id)
    (hsize : table.length < Nat.pow 2 63)
    (hrows : s.rows collection
      = (table.filter fun r => r.collection == collection).map fun r => r.doc)
    (hkeys : WholeKeys sel.sort (selected collection f table)) :
    ∃ search docs, Search.ofStatement? (findCommand collection f sel) = some search
      ∧ Expr.ofStatement? (scopeText collection f) = some search.condition
      ∧ (Memory.store.find collection f sel).run.run s = (.ok docs, s)
      ∧ (∀ answer, search.Shows (selected collection f table) answer
        ↔ answer = docs.map fun d => .jsonb (.object d))
      ∧ (f.plain = true → (∀ r ∈ table, r.collection = collection → f.Fits r.doc) →
        ∀ answer, search.Answers table answer
          ↔ answer = docs.map fun d => .jsonb (.object d)) := by
  have hdocs : s.find collection f sel
      = sel.apply ((selected collection f table).map fun r => r.doc) := by
    rw [Memory.find, hrows, List.filter_map, List.filter_filter, selected]
    refine congrArg (fun rows => sel.apply (List.map (fun r : StoredRow => r.doc) rows)) ?_
    exact List.filter_congr fun r _ => Bool.and_comm ..
  have hshows : ∀ answer, (Search.ofSelection collection f sel).Shows (selected collection f table)
      answer ↔ answer = (s.find collection f sel).map fun d => .jsonb (.object d) := by
    have hcount : (selected collection f table).length ≤ Search.greatestCount :=
      Nat.le_trans (List.length_filter_le ..) (Nat.le_of_lt_succ hsize)
    rw [hdocs]
    exact shows_iff collection f sel hkeys (List.Pairwise.filter _ hids) hcount
  refine ⟨Search.ofSelection collection f sel, s.find collection f sel,
    Search.ofStatement?_findCommand collection f sel, ofStatement?_scopeText collection f, rfl,
    hshows, fun hplain hfits answer => ?_⟩
  have hmeant : ∀ r ∈ table, Says ((Search.ofSelection collection f sel).condition.eval
      r.toDocumentRow) (r.collection == collection && f.holds r.doc) :=
    fun r hr => says_scopeExpr hplain (hfits r hr)
  have hknown : ∀ r ∈ table, ((Search.ofSelection collection f sel).condition.eval
      r.toDocumentRow).isSome = true := by
    intro r hr
    obtain ⟨d, hd, -⟩ := (hmeant r hr).eq_true_iff
    rw [hd]
    rfl
  have hselects : table.filter (Search.ofSelection collection f sel).selects
      = selected collection f table :=
    List.filter_congr fun r hr => Search.selects_eq (hmeant r hr)
  rw [Search.Answers, hselects, hshows]
  exact and_iff_right hknown

/-- The rows of `numbered`, which were not inserted one right after the other. -/
def numberedTable : List StoredRow :=
  [⟨⟨"c", [("id", .string "a"), ("n", .int 3), ("tag", .string "x")]⟩, 3⟩,
    ⟨⟨"other", [("id", .string "e")]⟩, 4⟩,
    ⟨⟨"c", [("id", .string "b"), ("n", .int 1), ("tag", .string "y")]⟩, 7⟩,
    ⟨⟨"c", [("id", .string "c"), ("n", .int 2), ("tag", .string "x")]⟩, 8⟩,
    ⟨⟨"c", [("id", .string "d"), ("tag", .string "z")]⟩, 9⟩]

/-- Two rows are returned, though more are allowed than 63 bits hold. -/
theorem searches_agree_numbered :
    (numberedTable.Pairwise fun a b => a.id < b.id)
      ∧ WholeKeys [.down "n"] (selected "c" smallOrNone numberedTable)
      ∧ ∃ (search : Search) (docs : List Document),
        Search.ofStatement? (findCommand "c" smallOrNone
          { exclude := ["tag"], sort := [.down "n"], skip := 1, limit := some 18446744073709551615 })
          = some search
        ∧ docs.length = 2
        ∧ search.Answers numberedTable (docs.map fun d => .jsonb (.object d)) := by
  have hids : numberedTable.Pairwise fun a b => a.id < b.id := by
    simp only [numberedTable, List.pairwise_cons]
    decide
  have hwhole : ∀ r ∈ numberedTable, ∀ v, r.doc.get? "n" = some v → v.signed?.isSome = true := by
    simp [numberedTable, Table.get?, Json.signed?, Json.leastInt, Json.greatestSigned]
  have hkeys : WholeKeys [.down "n"] (selected "c" smallOrNone numberedTable) := by
    intro k hk r hr
    obtain rfl := List.mem_singleton.mp hk
    exact hwhole r (List.mem_of_mem_filter hr)
  have hfits : ∀ r ∈ numberedTable, r.collection = "c" → smallOrNone.Fits r.doc := by
    intro r hr _
    refine ⟨?_, fun name hname v hv => ?_⟩
    · revert r
      decide
    · obtain rfl := List.mem_singleton.mp hname
      exact hwhole r hr v hv
  obtain ⟨search, docs, hsearch, -, hfind, -, hanswers⟩ :=
    searches_agree "c" smallOrNone
      { exclude := ["tag"], sort := [.down "n"], skip := 1, limit := some 18446744073709551615 } numbered
      numberedTable hids (by decide) rfl hkeys
  refine ⟨hids, hkeys, search, docs, hsearch, ?_, (hanswers rfl hfits _).mpr rfl⟩
  obtain rfl : numbered.find "c" smallOrNone
      { exclude := ["tag"], sort := [.down "n"], skip := 1, limit := some 18446744073709551615 } = docs :=
    Except.ok.inj (Prod.mk.inj hfind).1
  have hthree : ((numbered.rows "c").filter smallOrNone.holds).length = 3 := rfl
  rw [Memory.find, apply_eq_segment, List.length_map]
  simp only [segment, Document.sort, List.length_take, List.length_drop, List.length_mergeSort,
    hthree]
  decide

end Sql

end FleetLedger
