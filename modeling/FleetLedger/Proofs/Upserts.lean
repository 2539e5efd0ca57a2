import FleetLedger.Json.Equality
import FleetLedger.Proofs.Documents
import FleetLedger.Proofs.KeyedLists

/-!
# An upsert keeps its target unique

A collection holds one document for each tuple, or for each counter, because every write to it is an upsert
whose filter pins the fields that tell these apart.  **`upsert_keeps_target_unique`** is the step on which
this rests: where a filter held of one document at most, it holds of one afterwards.

Two functions that do not know of each other have to agree for that.  `Filter.holds` tells whether there is
a document to update, and `Filter.pinned` collects the fields of one to insert, each by a recursion of its
own.  `Filter.Pins` is what both say of a conjunction of equalities, however it is nested: the filter holds
of a document that has what it pins (`Conjunctive.holds_iff`), and the document that is collected has it
(`holds_pinned`), unless the filter pins one field to two values.  A value that is pinned may be null; then a
document that lacks the field has it, too.
-/

namespace FleetLedger

namespace Filter

/-- The filter holds only where the field has the value: an equality says so, or a part of a conjunction. -/
inductive Pins : Filter → String → Json → Prop where
  | eq (name : String) (v : Json) : Pins (.eq name v) name v
  | and {fs : List Filter} {f : Filter} {name : String} {v : Json} (hf : f ∈ fs)
      (h : Pins f name v) : Pins (.and fs) name v

/-- Conjunctions of equalities, nested to any depth. -/
inductive Conjunctive : Filter → Prop where
  | eq (name : String) (v : Json) : Conjunctive (.eq name v)
  | and {fs : List Filter} (h : ∀ f ∈ fs, Conjunctive f) : Conjunctive (.and fs)

/-- A field that is pinned more than once is pinned to equal values. -/
def Consistent (f : Filter) : Prop :=
  ∀ name v w, f.Pins name v → f.Pins name w → v.same w = true

/-- One value for each field is enough, whatever the value. -/
lemma consistent_of_eq {f : Filter} (h : ∀ name v w, f.Pins name v → f.Pins name w → v = w) :
    f.Consistent := fun name v w hv hw => h name v w hv hw ▸ Json.same_refl v

/-! ## What holds and what is inserted -/

/-- **What is collected of a filter** is what it pins. -/
theorem mem_equalities_iff {f : Filter} {name : String} {v : Json} :
    (name, v) ∈ f.equalities ↔ f.Pins name v := by
  induction f using Filter.induction with
  | eq name' v' =>
      rw [equalities, List.mem_singleton, Prod.mk.injEq]
      refine ⟨?_, fun h => ?_⟩
      · rintro ⟨rfl, rfl⟩
        exact Pins.eq name v
      · cases h
        exact ⟨rfl, rfl⟩
  | and fs ih =>
      have hparts : (name, v) ∈ equalitiesOf fs ↔ ∃ f ∈ fs, (name, v) ∈ f.equalities := by
        clear ih
        induction fs with
        | nil => simp [equalitiesOf]
        | cons f fs ih => simp [equalitiesOf, ih]
      rw [equalities, hparts]
      refine ⟨?_, fun h => ?_⟩
      · rintro ⟨f, hf, hmem⟩
        exact Pins.and hf ((ih f hf).mp hmem)
      · cases h with
        | and hf h => exact ⟨_, hf, (ih _ hf).mpr h⟩
  | _ => exact iff_of_false List.not_mem_nil (fun h => by cases h)

/-- **A conjunction holds** of the documents that have all that it pins. -/
theorem Conjunctive.holds_iff {f : Filter} (hf : f.Conjunctive) {d : Document} :
    f.holds d = true ↔ ∀ name v, f.Pins name v → (d.getOrNull name).same v = true := by
  induction hf with
  | eq name v =>
      rw [holds]
      refine ⟨fun h name' v' hpins => ?_, fun h => h name v (Pins.eq name v)⟩
      cases hpins
      exact h
  | and _ ih =>
      rw [holds_and, List.all_eq_true]
      refine ⟨fun h name v hpins => ?_, fun h f hf => (ih f hf).mpr fun name v hpins => ?_⟩
      · cases hpins with
        | and hf hpins => exact (ih _ hf).mp (h _ hf) name v hpins
      · exact h name v (Pins.and hf hpins)

lemma exists_get?_pinned {f : Filter} {name : String} {v : Json} (h : f.Pins name v) :
    ∃ w, f.Pins name w ∧ f.pinned.get? name = some w := by
  obtain ⟨w, hw, hget⟩ := Table.exists_get?_merge (t := [])
    (List.mem_map_of_mem (f := Prod.fst) (mem_equalities_iff.mpr h))
  exact ⟨w, mem_equalities_iff.mp hw, hget⟩

/-- **The document that a conjunction pins** is one that it holds of. -/
theorem holds_pinned {f : Filter} (hf : f.Conjunctive) (hc : f.Consistent) :
    f.holds f.pinned = true := by
  refine hf.holds_iff.mpr fun name v hv => ?_
  obtain ⟨w, hw, hget⟩ := exists_get?_pinned hv
  rw [Document.getOrNull, hget]
  exact hc name w v hw hv

end Filter

/-! ## Updates that spare a filter -/

namespace Update

/-- The update leaves what the filter pins as it is: it sets such a field to an equal value, if at all,
and adds to none. -/
def Spares (f : Filter) : Update → Prop
  | set fields => ∀ name v w, f.Pins name v → (name, w) ∈ fields → w.same v = true
  | inc deltas => ∀ name v, f.Pins name v → name ∉ deltas.map Prod.fst

lemma get?_apply_inc_of_notMem {deltas : List (String × Int)} {d : Document} {name : String}
    (h : name ∉ deltas.map Prod.fst) : ((inc deltas).apply d).get? name = d.get? name := by
  induction deltas generalizing d with
  | nil => rfl
  | cons e rest ih =>
      simp only [List.map_cons, List.mem_cons, not_or] at h
      have hstep : ((inc (e :: rest)).apply d).get? name = (add d e.1 e.2).get? name := ih h.2
      rw [hstep, get?_add, if_neg (Ne.symm h.1)]

variable {f : Filter} {u : Update}

/-- **A document that is updated** still matches. -/
theorem Spares.holds_apply (hu : u.Spares f) (hf : f.Conjunctive) {d : Document}
    (hd : f.holds d = true) : f.holds (u.apply d) = true := by
  refine hf.holds_iff.mpr fun name v hv => ?_
  have hold := hf.holds_iff.mp hd name v hv
  cases u with
  | set fields =>
      by_cases hname : name ∈ fields.map Prod.fst
      · obtain ⟨w, hw, hget⟩ := Table.exists_get?_merge (t := d) hname
        rw [apply, Document.getOrNull, hget]
        exact hu name v w hv hw
      · rwa [apply, Document.getOrNull, Table.get?_merge_of_notMem hname]
  | inc deltas =>
      rwa [Document.getOrNull, get?_apply_inc_of_notMem (hu name v hv)]

/-- **A document that is inserted** matches. -/
theorem Spares.holds_seed (hu : u.Spares f) (hf : f.Conjunctive) (hc : f.Consistent) :
    f.holds (u.seed f) = true :=
  hu.holds_apply hf (Filter.holds_pinned hf hc)

lemma apply_set_apply_set (fields : Document) (d : Document) :
    (set fields).apply ((set fields).apply d) = (set fields).apply d :=
  Table.merge_merge_of_subset fun _ he => List.mem_map_of_mem he

end Update

/-! ## Collections -/

namespace Memory

/-- **What an upsert does to a collection**: it adds a document at the end, or it changes the first that
the filter holds of. -/
theorem upsertRows_cases (f : Filter) (u : Update) (docs : List Document) :
    (∀ d ∈ docs, f.holds d = false) ∧ upsertRows f u docs = docs ++ [u.seed f]
      ∨ ∃ before d after, docs = before ++ d :: after ∧ (∀ d' ∈ before, f.holds d' = false)
        ∧ f.holds d = true ∧ upsertRows f u docs = before ++ u.apply d :: after := by
  rw [upsertRows_eq_amend]
  cases hfound : docs.find? f.holds with
  | none =>
      have hnone : ∀ d ∈ docs, f.holds d = false := by simpa using hfound
      exact Or.inl ⟨hnone, amend_of_forall hnone⟩
  | some d =>
      obtain ⟨hd, before, after, rfl, hbefore⟩ := List.find?_eq_some_iff_append.mp hfound
      have hnone : ∀ d' ∈ before, f.holds d' = false := by simpa using hbefore
      exact Or.inr ⟨before, d, after, rfl, hnone, hd, amend_append hnone hd⟩

variable {f : Filter} {u : Update}
  (hchanged : ∀ d, f.holds d = true → f.holds (u.apply d) = true)
include hchanged

lemma getElem?_upsertRows {docs : List Document} {i : Nat} {d : Document}
    (hget : docs[i]? = some d) (hd : f.holds d = true) :
    ∃ d', (upsertRows f u docs)[i]? = some d' ∧ f.holds d' = true := by
  rcases upsertRows_cases f u docs with ⟨hnone, -⟩ | ⟨before, d', after, rfl, hbefore, hd', hrows⟩
  · have hmiss := hnone d (List.mem_of_getElem? hget)
    exact absurd hd (by simp [hmiss])
  · rw [hrows]
    rcases Nat.lt_trichotomy i before.length with hlt | rfl | hgt
    · rw [List.getElem?_append_left hlt] at hget
      have hmiss := hbefore d (List.mem_of_getElem? hget)
      exact absurd hd (by simp [hmiss])
    · exact ⟨u.apply d', by simp, hchanged d' hd'⟩
    · obtain ⟨k, rfl⟩ := Nat.exists_eq_add_of_lt hgt
      refine ⟨d, ?_, hd⟩
      rw [List.getElem?_append_right (by omega)] at hget ⊢
      simpa [Nat.add_assoc] using hget

variable (hfresh : f.holds (u.seed f) = true)
include hfresh

lemma countP_upsertRows (docs : List Document) :
    (upsertRows f u docs).countP f.holds = max 1 (docs.countP f.holds) := by
  rcases upsertRows_cases f u docs with ⟨hnone, hrows⟩ | ⟨before, d, after, rfl, -, hd, hrows⟩
  · have hzero : docs.countP f.holds = 0 := by simpa using hnone
    rw [hrows, List.countP_append, hzero, List.countP_singleton, if_pos hfresh]
    rfl
  · rw [hrows, List.countP_append, List.countP_append, List.countP_cons_of_pos (hchanged d hd),
      List.countP_cons_of_pos hd]
    omega

/-- What is set twice is set once. -/
lemma upsertRows_upsertRows (htwice : ∀ d, u.apply (u.apply d) = u.apply d)
    (docs : List Document) :
    upsertRows f u (upsertRows f u docs) = upsertRows f u docs := by
  rcases upsertRows_cases f u docs with ⟨hnone, hrows⟩ | ⟨before, d, after, -, hbefore, hd, hrows⟩
  · rw [hrows, upsertRows_eq_amend, amend_append hnone hfresh, Update.seed, htwice]
  · rw [hrows, upsertRows_eq_amend, amend_append hbefore (hchanged d hd), htwice]

end Memory

/-- **An upsert keeps its target unique.**  Let a filter be a conjunction of equalities, nested in any way,
that pins no field to two values, and let an update leave what it pins as it is.  Then after an upsert the
filter holds of as many documents as before, or of one if it held of none.  The document is the last of its
collection if it is new; else it stands in the place of the first that the filter held of, and all others
are as they were.  So at each place where the filter held of a document, it still does.  No other collection
changes, and to set the same fields once more changes nothing. -/
theorem upsert_keeps_target_unique {f : Filter} {u : Update} (hf : f.Conjunctive)
    (hc : f.Consistent) (hu : u.Spares f) (s : Memory) (c : String) :
    ∃ s' : Memory, (Memory.store.upsert c f u).run.run s = (.ok (), s')
      ∧ s'.count c f = max 1 (s.count c f)
      ∧ ((∀ d ∈ s.rows c, f.holds d = false) ∧ s'.rows c = s.rows c ++ [u.seed f]
        ∨ ∃ before d after, s.rows c = before ++ d :: after ∧ (∀ d' ∈ before, f.holds d' = false)
          ∧ f.holds d = true ∧ s'.rows c = before ++ u.apply d :: after)
      ∧ (∀ (i : Nat) (d : Document), (s.rows c)[i]? = some d → f.holds d = true →
        ∃ d', (s'.rows c)[i]? = some d' ∧ f.holds d' = true)
      ∧ (∀ c', c' ≠ c → s'.rows c' = s.rows c')
      ∧ ∀ fields, u = .set fields → (Memory.store.upsert c f u).run.run s' = (.ok (), s') := by
  have hfresh := hu.holds_seed hf hc
  have hchanged : ∀ d, f.holds d = true → f.holds (u.apply d) = true := fun d => hu.holds_apply hf
  have hrows : (s.upsert c f u).rows c = Memory.upsertRows f u (s.rows c) := by
    rw [Memory.rows_upsert, if_pos rfl]
  refine ⟨s.upsert c f u, rfl, ?_, ?_, ?_, ?_, ?_⟩
  · rw [Memory.count, hrows]
    exact Memory.countP_upsertRows hchanged hfresh (s.rows c)
  · rw [hrows]
    exact Memory.upsertRows_cases f u (s.rows c)
  · intro i d hget hd
    rw [hrows]
    exact Memory.getElem?_upsertRows hchanged hget hd
  · intro c' hne
    rw [Memory.rows_upsert, if_neg (Ne.symm hne)]
  · rintro fields rfl
    have hsame : (s.upsert c f (.set fields)).upsert c f (.set fields)
        = s.upsert c f (.set fields) := by
      rw [Memory.upsert, hrows,
        Memory.upsertRows_upsertRows hchanged hfresh (Update.apply_set_apply_set fields)]
      simp only [Memory.upsert, Memory.setRows, Table.insert_insert]
    exact congrArg (fun s => (Except.ok (), s)) hsame

/-- The tally of a day that is not known, pinned with a null and a repetition. -/
def undated : Filter :=
  .and [.eq "name" (.string "job-day"),
    .and [.and [], .eq "date" .null, .eq "name" (.string "job-day")]]

/-- Of these tallies the last two have no day, one by a missing field and one by a null. -/
def mixedTallies : Memory :=
  Memory.insertMany {} "tallies"
    [[("name", .string "job")], [("date", .string "2024-02-29"), ("name", .string "job-day")],
      [("name", .string "job-day"), ("total", .int 1)], [("date", .null), ("name", .string "job-day")]]

lemma pins_undated {name : String} {v : Json} (h : undated.Pins name v) :
    name = "name" ∧ v = .string "job-day" ∨ name = "date" ∧ v = .null := by
  have hmem := Filter.mem_equalities_iff.mpr h
  simp only [undated, Filter.equalities, Filter.equalitiesOf, List.append_nil, List.nil_append,
    List.cons_append, List.mem_cons, Prod.mk.injEq, List.not_mem_nil, or_false] at hmem
  rcases hmem with h | h | h
  · exact Or.inl h
  · exact Or.inr h
  · exact Or.inl h

theorem upsert_undated :
    undated.Conjunctive ∧ undated.Consistent ∧ (Update.set [("total", .int 3)]).Spares undated
      ∧ ∃ s' : Memory,
        (Memory.store.upsert "tallies" undated (.set [("total", .int 3)])).run.run mixedTallies
          = (.ok (), s')
        ∧ s'.count "tallies" undated = 2
        ∧ (Memory.store.upsert "tallies" undated (.set [("total", .int 3)])).run.run s'
          = (.ok (), s') := by
  have hf : undated.Conjunctive := by
    refine .and (List.forall_mem_cons.mpr ⟨.eq _ _, List.forall_mem_singleton.mpr (.and ?_)⟩)
    simp only [List.forall_mem_cons]
    exact ⟨.and (List.forall_mem_nil _), .eq _ _, .eq _ _, List.forall_mem_nil _⟩
  have hc : undated.Consistent := by
    refine Filter.consistent_of_eq fun name v w hv hw => ?_
    rcases pins_undated hv with ⟨rfl, rfl⟩ | ⟨rfl, rfl⟩ <;>
      rcases pins_undated hw with ⟨h, rfl⟩ | ⟨h, rfl⟩
    · rfl
    · exact absurd h (by decide)
    · exact absurd h (by decide)
    · rfl
  have hu : (Update.set [("total", .int 3)]).Spares undated := by
    intro name v w hv hw
    obtain ⟨rfl, -⟩ := Prod.mk.inj (List.mem_singleton.mp hw)
    rcases pins_undated hv with ⟨h, -⟩ | ⟨h, -⟩
    · exact absurd h (by decide)
    · exact absurd h (by decide)
  obtain ⟨s', hrun, hcount, -, -, -, hagain⟩ :=
    upsert_keeps_target_unique hf hc hu mixedTallies "tallies"
  exact ⟨hf, hc, hu, s', hrun, hcount.trans rfl, hagain _ rfl⟩

end FleetLedger
