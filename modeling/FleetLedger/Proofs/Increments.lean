import Mathlib.Algebra.Ring.Int.Defs
import Mathlib.Data.List.Nodup
import FleetLedger.Ledger
import FleetLedger.Proofs.Documents

/-!
# Increments one after the other, and all at once

An update adds to counters one after the other, each time to what the addition before it has left.  A
database does otherwise: it takes all new counts from the old document and lays them over it at once
(`Update.overlaid`), and of several counts under one name the last stays.  Both come to the same for a
counter just if all that is added to it but the last sums to nothing, which **`overlaid_eq_apply_iff`**
says of whole documents.  A counter that is named once is such a one, and so is every counter of the
ledger (`lastDecides_increments`).
-/

namespace FleetLedger

/-- An integer of the signed range. -/
def Json.Signed (n : Int) : Prop := leastInt ≤ n ∧ n ≤ greatestSigned

instance (n : Int) : Decidable (Json.Signed n) := inferInstanceAs (Decidable (_ ∧ _))

namespace Update

/-- What a counter counts, from zero on. -/
def count (d : Document) (field : String) : Int := ((d.get? field).bind Json.signed?).getD 0

/-- What is added to a counter, in order. -/
def addedTo (field : String) (deltas : List (String × Int)) : List Int :=
  (deltas.filter (·.1 = field)).map Prod.snd

/-- The document with the update laid over it at once. -/
def overlaid : Update → Document → Document
  | set fields, d => d.merge fields
  | inc deltas, d =>
    d.merge (deltas.map fun (field, delta) => (field, .int (count d field + delta)))

/-- All that is added to a counter but the last sums to nothing. -/
def LastDecides : Update → Prop
  | set _ => True
  | inc deltas => ∀ field, (addedTo field deltas).dropLast.sum = 0

/-- A field that can be counted with: it is missing, null or an integer of the signed range. -/
def IsCounter (d : Document) (field : String) : Prop :=
  ∀ v, d.get? field = some v → v = .null ∨ ∃ n, v = .int n ∧ Json.Signed n

/-- Nothing overflows, whether the additions to a counter are made one after the other or each to what
it counts at first. -/
structure InBounds (deltas : List (String × Int)) (d : Document) (field : String) : Prop where
  running : ∀ before, before <+: addedTo field deltas → Json.Signed (count d field + before.sum)
  alone : ∀ delta ∈ addedTo field deltas, Json.Signed (count d field + delta)

/-- The update fits the document. -/
def Fits : Update → Document → Prop
  | set _, _ => True
  | inc deltas, d =>
    (∀ field ∈ deltas.map Prod.fst, IsCounter d field) ∧ ∀ field, InBounds deltas d field

/-! ## What becomes of a field -/

/-- A count always fits into 63 bits and a sign. -/
lemma signed_count (d : Document) (field : String) : Json.Signed (count d field) := by
  rw [count]
  cases h : (d.get? field).bind Json.signed? with
  | none => exact (by decide : Json.Signed 0)
  | some n =>
      obtain ⟨v, -, hv⟩ := Option.bind_eq_some_iff.mp h
      cases v with
      | int m =>
          rw [Json.signed?] at hv
          split at hv
          · exact Option.some.inj hv ▸ ‹_›
          · cases hv
      | _ => cases hv

lemma addedTo_cons (field : String) (e : String × Int) (deltas : List (String × Int)) :
    addedTo field (e :: deltas)
      = if e.1 = field then e.2 :: addedTo field deltas else addedTo field deltas := by
  rw [addedTo, List.filter_cons]
  split <;> simp_all [addedTo]

lemma mem_addedTo {c : String × Int} {deltas : List (String × Int)} (h : c ∈ deltas) :
    c.2 ∈ addedTo c.1 deltas :=
  List.mem_map_of_mem (List.mem_filter.mpr ⟨h, decide_eq_true rfl⟩)

/-- Adding to a field moves its count, and no other. -/
lemma count_add {d : Document} {field : String} {delta : Int}
    (h : Json.Signed (count d field + delta)) (other : String) :
    count (add d field delta) other
      = if field = other then count d field + delta else count d other := by
  rw [count, get?_add]
  split
  · exact congrArg (Option.getD · 0) (if_pos h)
  · rfl

/-- **Additions that are made one after the other** come to the sum of all that is added to a
counter. -/
theorem get?_apply_inc {deltas : List (String × Int)} {d : Document}
    (h : ∀ field before, before <+: addedTo field deltas → Json.Signed (count d field + before.sum))
    (field : String) :
    ((inc deltas).apply d).get? field
      = if addedTo field deltas = [] then d.get? field
        else some (.int (count d field + (addedTo field deltas).sum)) := by
  induction deltas generalizing d with
  | nil => rfl
  | cons e rest ih =>
      have hfirst : Json.Signed (count d e.1 + e.2) := by
        have hprefix := h e.1 [e.2] (by rw [addedTo_cons, if_pos rfl]; exact List.prefix_append [e.2] _)
        rwa [List.sum_singleton] at hprefix
      have hcount := count_add hfirst
      have hrest : ∀ field before, before <+: addedTo field rest →
          Json.Signed (count (add d e.1 e.2) field + before.sum) := by
        intro field before hbefore
        rw [hcount]
        split
        case isTrue he =>
          have hlonger := h field (e.2 :: before) (by
            rw [addedTo_cons, if_pos he]
            exact List.cons_prefix_cons.mpr ⟨rfl, hbefore⟩)
          rwa [List.sum_cons, ← Int.add_assoc, ← he] at hlonger
        case isFalse he => exact h field before (by rwa [addedTo_cons, if_neg he])
      have hstep : ((inc (e :: rest)).apply d).get? field
          = ((inc rest).apply (add d e.1 e.2)).get? field := rfl
      rw [hstep, ih hrest, hcount, get?_add, addedTo_cons]
      by_cases he : e.1 = field
      · by_cases hnil : addedTo field rest = [] <;> simp [he, hnil, Int.add_assoc, count]
      · simp [he]

/-- **Counts that are laid over a document at once** come to the last that is added to a counter. -/
theorem get?_overlaid_inc (deltas : List (String × Int)) (d : Document) (field : String) :
    ((inc deltas).overlaid d).get? field
      = ((addedTo field deltas).getLast?.map fun delta => .int (count d field + delta)).or
        (d.get? field) := by
  have hnamed : ∀ e ∈ deltas.filter (·.1 = field),
      (Json.int (count d e.1 + e.2)) = .int (count d field + e.2) := fun e he => by
    rw [of_decide_eq_true (List.mem_filter.mp he).2]
  rw [overlaid, Table.get?_merge_getLast?, List.filter_map, ← List.getLast?_map, List.map_map,
    addedTo, ← List.getLast?_map, List.map_map]
  exact congrArg (fun vs : List Json => vs.getLast?.or (d.get? field))
    (List.map_congr_left hnamed)

/-! ## The documents -/

lemma sorted_overlaid (u : Update) {d : Document} (hd : Table.Sorted d) :
    Table.Sorted (u.overlaid d) := by
  cases u with
  | set fields => exact hd.merge fields
  | inc deltas => exact hd.merge _

lemma sorted_apply (u : Update) {d : Document} (hd : Table.Sorted d) :
    Table.Sorted (u.apply d) := by
  cases u with
  | set fields => exact hd.merge fields
  | inc deltas =>
      induction deltas generalizing d with
      | nil => exact hd
      | cons e rest ih => exact ih (hd.insert e.1 _)

/-- **An update can be laid over a document at once** just if the last delta of each counter decides
what is added to it. -/
theorem overlaid_eq_apply_iff {u : Update} {d : Document} (hd : Table.Sorted d) (h : u.Fits d) :
    u.overlaid d = u.apply d ↔ u.LastDecides := by
  cases u with
  | set fields => exact iff_of_true rfl trivial
  | inc deltas =>
      have hfield : ∀ field, ((inc deltas).overlaid d).get? field = ((inc deltas).apply d).get? field
          ↔ (addedTo field deltas).dropLast.sum = 0 := by
        intro field
        rw [get?_overlaid_inc, get?_apply_inc (fun field => (h.2 field).running)]
        rcases List.eq_nil_or_concat (addedTo field deltas) with hnil | ⟨before, last, hlast⟩
        · simp [hnil]
        · have hsum : (before ++ [last]).sum = before.sum + last := by simp
          rw [hlast, List.concat_eq_append, if_neg (by simp), List.getLast?_concat,
            List.dropLast_concat, hsum, Option.map_some, Option.some_or, Option.some.injEq,
            Json.int.injEq]
          omega
      rw [LastDecides]
      refine ⟨fun heq field => (hfield field).mp (by rw [heq]), fun hall => ?_⟩
      exact (sorted_overlaid _ hd).ext (sorted_apply _ hd) fun field => (hfield field).mpr (hall field)

lemma length_addedTo (field : String) (deltas : List (String × Int)) :
    (addedTo field deltas).length = (deltas.map Prod.fst).count field := by
  rw [addedTo, List.length_map, ← List.countP_eq_length_filter, List.count, List.countP_map]
  rfl

/-- Where no counter is named twice there is nothing before the last. -/
lemma lastDecides_of_nodup {deltas : List (String × Int)} (h : (deltas.map Prod.fst).Nodup) :
    (inc deltas).LastDecides := by
  intro field
  have hlength : (addedTo field deltas).dropLast.length = 0 := by
    rw [List.length_dropLast, length_addedTo]
    exact Nat.sub_eq_zero_of_le (List.nodup_iff_count_le_one.mp h field)
  rw [List.length_eq_zero_iff.mp hlength, List.sum_nil]

/-- An update that names no counter twice fits a document if all its sums are in bounds. -/
lemma fits_of_nodup {deltas : List (String × Int)} {d : Document}
    (hnames : (deltas.map Prod.fst).Nodup)
    (h : ∀ c ∈ deltas, IsCounter d c.1 ∧ Json.Signed (count d c.1 + c.2)) :
    (inc deltas).Fits d := by
  refine ⟨fun field hfield => ?_, fun field => ?_⟩
  · obtain ⟨c, hc, rfl⟩ := List.mem_map.mp hfield
    exact (h c hc).1
  · have halone : ∀ delta ∈ addedTo field deltas, Json.Signed (count d field + delta) := by
      intro delta hdelta
      obtain ⟨c, hc, rfl⟩ := List.mem_map.mp hdelta
      obtain ⟨hmem, hname⟩ := List.mem_filter.mp hc
      obtain rfl := of_decide_eq_true hname
      exact (h c hmem).2
    refine ⟨fun before hbefore => ?_, halone⟩
    -- Of a list with at most one element a beginning is empty or all of it.
    have hlength : (addedTo field deltas).length ≤ 1 := by
      rw [length_addedTo]
      exact List.nodup_iff_count_le_one.mp hnames field
    match before, Nat.le_trans hbefore.length_le hlength with
    | [], _ => simpa using signed_count d field
    | [delta], _ => simpa using halone delta (hbefore.subset List.mem_cons_self)

/-- **The ledger names no counter twice** in what an execution adds to a tally. -/
theorem lastDecides_increments (e : Execution) : (Ledger.increments e).LastDecides :=
  lastDecides_of_nodup (by cases h : e.success <;> simp)

end Update

end FleetLedger
