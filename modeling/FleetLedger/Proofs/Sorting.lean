import Mathlib.Data.List.Nodup
import Mathlib.Data.List.Perm.Basic
import FleetLedger.Proofs.Documents

/-!
# Sorting documents whose fields are of one kind

The order in which documents are sorted is no order on all documents.  Values of different kinds
count as equal there, so two values may both be equal to a third and differ from each other, and
large numbers are compared as floats.  But where each field to sort by holds values of one kind only
(`Uniform`), nulls and missing fields apart, sorting does what one expects.

What one expects is said without the code: `Json.Below` is the order of values, and `Earlier` is the
order of rows, by the values of the first key that tells them apart, and by their places where no
key does.  **`sort_uniform`** is the result: the sorted documents are all of the documents, each of
them earlier than those that follow.
-/

namespace FleetLedger

/-! ## Values of one kind -/

namespace Json

/-- The kinds of values that are in order among themselves. -/
inductive Kind where
  | text
  | truth
  | whole

/-- A value of a kind, or null. -/
inductive OfKind : Kind → Json → Prop where
  | null {k : Kind} : OfKind k .null
  | text (s : String) : OfKind .text (.string s)
  | truth (b : Bool) : OfKind .truth (.bool b)
  | whole {n : Int} (hn : leastInt ≤ n ∧ n ≤ greatestSigned) : OfKind .whole (.int n)

/-- The order of values: null is below all others, texts are ordered by their characters, false is
below true, and integers are ordered by size. -/
inductive Below : Json → Json → Prop where
  | null {v : Json} (hv : v ≠ .null) : Below .null v
  | text {a b : String} (h : a < b) : Below (.string a) (.string b)
  | truth : Below (.bool false) (.bool true)
  | whole {m n : Int} (h : m < n) : Below (.int m) (.int n)

lemma Below.irrefl {a : Json} : ¬ Below a a := by
  rintro (hv | h | _ | h)
  · exact hv rfl
  · exact String.lt_irrefl _ h
  · exact Int.lt_irrefl _ h

lemma Below.ne_null {a b : Json} (h : Below a b) : b ≠ .null := by
  cases h with
  | null hv => exact hv
  | _ => simp

/-- The order of values of one kind is transitive. -/
lemma Below.trans {a b c : Json} (hab : Below a b) (hbc : Below b c) : Below a c := by
  cases hab with
  | null _ => exact Below.null hbc.ne_null
  | text h =>
      cases hbc with
      | text h' => exact Below.text (String.lt_trans h h')
  | truth => cases hbc
  | whole h =>
      cases hbc with
      | whole h' => exact Below.whole (Int.lt_trans h h')

/-! ### How values of one kind are compared -/

lemma sortOrder_text (s t : String) : (string s).sortOrder (string t) = compare s t := rfl

/-- Integers that 63 bits hold are ordered as such. -/
lemma sortOrder_whole {m n : Int} (hm : leastInt ≤ m ∧ m ≤ greatestSigned)
    (hn : leastInt ≤ n ∧ n ≤ greatestSigned) : (int m).sortOrder (int n) = compare m n := by
  have horder := order?_int hm hn
  simp only [sortOrder, horder, Option.getD_some]

namespace OfKind

variable {k : Kind} {a b : Json}

/-- Values of one kind are compared as what they are. -/
lemma sortOrder_spec (ha : OfKind k a) (hb : OfKind k b) :
    match a.sortOrder b with
    | .lt => Below a b
    | .eq => a = b
    | .gt => Below b a := by
  cases ha with
  | null =>
      cases hb with
      | null => rfl
      | _ => exact Below.null (by simp)
  | text s =>
      cases hb with
      | null => exact Below.null (by simp)
      | text t =>
          rw [sortOrder_text]
          split
          case h_1 h => exact Below.text (compareOfLessAndEq_eq_lt.mp h)
          case h_2 h => exact congrArg string (Std.compare_eq_iff_eq.mp h)
          case h_3 h =>
            have hlt : compare t s = .lt := Std.OrientedCmp.gt_iff_lt.mp h
            exact Below.text (compareOfLessAndEq_eq_lt.mp hlt)
  | truth s =>
      cases hb with
      | null => exact Below.null (by simp)
      | truth t => cases s <;> cases t <;> first | rfl | exact Below.truth
  | whole hm =>
      cases hb with
      | null => exact Below.null (by simp)
      | whole hn =>
          rw [sortOrder_whole hm hn]
          split
          case h_1 h => exact Below.whole (Int.compare_eq_lt.mp h)
          case h_2 h => exact congrArg int (Int.compare_eq_eq.mp h)
          case h_3 h => exact Below.whole (Int.compare_eq_gt.mp h)

/-- Values of one kind are in order if one is below the other. -/
lemma sortOrder_eq_lt (ha : OfKind k a) (hb : OfKind k b) :
    a.sortOrder b = .lt ↔ Below a b := by
  have hspec := ha.sortOrder_spec hb
  constructor
  · intro h
    rw [h] at hspec
    exact hspec
  · intro hbelow
    split at hspec
    case h_1 h => exact h
    case h_2 h => exact absurd (hspec ▸ hbelow) Below.irrefl
    case h_3 h => exact absurd (hbelow.trans hspec) Below.irrefl

lemma sortOrder_eq_eq (ha : OfKind k a) (hb : OfKind k b) :
    a.sortOrder b = .eq ↔ a = b := by
  have hspec := ha.sortOrder_spec hb
  constructor
  · intro h
    rw [h] at hspec
    exact hspec
  · rintro rfl
    split at hspec
    case h_1 h => exact absurd hspec Below.irrefl
    case h_2 h => exact h
    case h_3 h => exact absurd hspec Below.irrefl

lemma sortOrder_swap (ha : OfKind k a) (hb : OfKind k b) :
    b.sortOrder a = (a.sortOrder b).swap := by
  cases ha with
  | null => cases hb <;> rfl
  | text s =>
      cases hb with
      | null => rfl
      | text t =>
          rw [sortOrder_text, sortOrder_text]
          exact Std.OrientedCmp.eq_swap
  | truth s =>
      cases hb with
      | null => rfl
      | truth t => cases s <;> cases t <;> rfl
  | whole hm =>
      cases hb with
      | null => rfl
      | whole hn =>
          rw [sortOrder_whole hm hn, sortOrder_whole hn hm]
          exact Std.OrientedCmp.eq_swap

end OfKind

end Json

/-! ## The order of rows -/

namespace SortKey

/-- What a document says under a key. -/
def value (k : SortKey) (d : Document) : Json := d.getOrNull k.field

/-- A key puts one document below another. -/
def Below (k : SortKey) (a b : Document) : Prop :=
  match k.direction with
  | .ascending => (k.value a).Below (k.value b)
  | .descending => (k.value b).Below (k.value a)

variable {k : SortKey} {kind : Json.Kind} {a b c : Document}

lemma Below.value_ne (h : k.Below a b) : k.value a ≠ k.value b := by
  obtain ⟨field, direction⟩ := k
  intro he
  cases direction with
  | ascending =>
      simp only [Below, he] at h
      exact Json.Below.irrefl h
  | descending =>
      simp only [Below, he] at h
      exact Json.Below.irrefl h

/-- What a key puts before a second document it puts before all that come after this one. -/
lemma Below.trans (hab : k.Below a b) (hbc : k.Below b c) : k.Below a c := by
  obtain ⟨field, direction⟩ := k
  cases direction with
  | ascending => exact Json.Below.trans hab hbc
  | descending => exact Json.Below.trans hbc hab

/-- Only the values under the key count. -/
lemma Below.congr {a' b' : Document} (h : k.Below a b) (ha : k.value a = k.value a')
    (hb : k.value b = k.value b') : k.Below a' b' := by
  simpa only [Below, ha, hb] using h

section OfKind

variable (ha : (k.value a).OfKind kind) (hb : (k.value b).OfKind kind)
include ha hb

/-- Comparing the other way round gives the opposite. -/
lemma order_swap : k.order b a = (k.order a b).swap := by
  obtain ⟨field, direction⟩ := k
  have hswap := ha.sortOrder_swap hb
  cases direction with
  | ascending => exact hswap
  | descending => exact congrArg Ordering.swap hswap

/-- Documents are even for a key if they have the same value there. -/
lemma order_eq_eq : k.order a b = .eq ↔ k.value a = k.value b := by
  obtain ⟨field, direction⟩ := k
  have heq := ha.sortOrder_eq_eq hb
  cases direction with
  | ascending => exact heq
  | descending => exact Ordering.swap_eq_eq.trans heq

/-- Documents are in order for a key if the one's value is below the other's. -/
lemma order_eq_lt : k.order a b = .lt ↔ k.Below a b := by
  obtain ⟨field, direction⟩ := k
  cases direction with
  | ascending => exact ha.sortOrder_eq_lt hb
  | descending =>
      have hswap := ha.sortOrder_swap hb
      have hlt := hb.sortOrder_eq_lt ha
      rw [hswap] at hlt
      exact hlt

end OfKind

end SortKey

/-- **The order of rows**, documents at their places.  The first key that tells two rows apart
decides; where no key does, the row at the earlier place comes first. -/
def Earlier : List SortKey → Document × Nat → Document × Nat → Prop
  | [], x, y => x.2 < y.2
  | k :: ks, x, y => k.Below x.1 y.1 ∨ k.value x.1 = k.value y.1 ∧ Earlier ks x y

lemma Earlier.irrefl {keys : List SortKey} {x : Document × Nat} : ¬ Earlier keys x x := by
  induction keys with
  | nil => exact Nat.lt_irrefl _
  | cons k ks ih =>
      rintro (h | ⟨-, h⟩)
      · exact h.value_ne rfl
      · exact ih h

/-- The order of documents is transitive, as that of each key is. -/
lemma Earlier.trans {keys : List SortKey} {x y z : Document × Nat} (hxy : Earlier keys x y)
    (hyz : Earlier keys y z) : Earlier keys x z := by
  induction keys with
  | nil => exact Nat.lt_trans hxy hyz
  | cons k ks ih =>
      rcases hxy with hxy | ⟨hv, hxy⟩
      · rcases hyz with hyz | ⟨hw, -⟩
        · exact Or.inl (hxy.trans hyz)
        · exact Or.inl (hxy.congr rfl hw)
      · rcases hyz with hyz | ⟨hw, hyz⟩
        · exact Or.inl (hyz.congr hv.symm rfl)
        · exact Or.inr ⟨hv.trans hw, ih hxy hyz⟩

/-- Documents hold values of one kind under each of the keys. -/
def Uniform (keys : List SortKey) (docs : List Document) : Prop :=
  ∀ k ∈ keys, ∃ kind, ∀ d ∈ docs, (k.value d).OfKind kind

lemma Uniform.tail {k : SortKey} {keys : List SortKey} {docs : List Document}
    (h : Uniform (k :: keys) docs) : Uniform keys docs :=
  fun k' hk' => h k' (List.mem_cons_of_mem _ hk')

/-- The test by which rows are sorted. -/
def notLater (keys : List SortKey) : Document × Nat → Document × Nat → Bool :=
  List.zipIdxLE fun a b => Document.order keys a b != .gt

namespace Document

section Compared

variable {keys : List SortKey} {docs : List Document} {a b : Document}

lemma order_swap (h : Uniform keys docs) (ha : a ∈ docs) (hb : b ∈ docs) :
    order keys b a = (order keys a b).swap := by
  induction keys with
  | nil => rfl
  | cons k ks ih =>
      obtain ⟨kind, hkind⟩ := h k List.mem_cons_self
      have hrest := ih h.tail
      have hk := SortKey.order_swap (hkind a ha) (hkind b hb)
      simp only [order, List.foldr_cons] at hrest ⊢
      rw [hk, hrest, Ordering.swap_then]

/-- **The order of rows is that of their documents**, and of their places where that decides
nothing. -/
theorem earlier_iff (h : Uniform keys docs) (ha : a ∈ docs) (hb : b ∈ docs) (i j : Nat) :
    Earlier keys (a, i) (b, j) ↔ (order keys a b).then (compare i j) = .lt := by
  induction keys with
  | nil => exact Nat.compare_eq_lt.symm
  | cons k ks ih =>
      obtain ⟨kind, hkind⟩ := h k List.mem_cons_self
      have hlt := SortKey.order_eq_lt (hkind a ha) (hkind b hb)
      have heq := SortKey.order_eq_eq (hkind a ha) (hkind b hb)
      have hrest := ih h.tail
      simp only [order, List.foldr_cons] at hrest ⊢
      rw [Earlier, Ordering.then_assoc, Ordering.then_eq_lt, hlt, heq, hrest]

/-- Sorting asks whether a document is not later, which is to say that the other is not earlier. -/
lemma notLater_iff (h : Uniform keys docs) {x y : Document × Nat} (hx : x.1 ∈ docs)
    (hy : y.1 ∈ docs) : notLater keys x y = true ↔ ¬ Earlier keys y x := by
  obtain ⟨a, i⟩ := x
  obtain ⟨b, j⟩ := y
  have hearlier := earlier_iff h hy hx j i
  have hswap := order_swap h hx hy
  simp only [notLater, List.zipIdxLE, hearlier, hswap]
  cases order keys a b with
  | lt => simp
  | eq => simp [Nat.compare_eq_lt]
  | gt => simp

/-- Of two rows one is earlier, unless they are the same. -/
lemma earlier_trichotomy (h : Uniform keys docs) {x y : Document × Nat} (hx : x ∈ docs.zipIdx)
    (hy : y ∈ docs.zipIdx) : Earlier keys x y ∨ x = y ∨ Earlier keys y x := by
  obtain ⟨a, i⟩ := x
  obtain ⟨b, j⟩ := y
  have ha : a ∈ docs := List.fst_mem_of_mem_zipIdx hx
  have hb : b ∈ docs := List.fst_mem_of_mem_zipIdx hy
  have hab := earlier_iff h ha hb i j
  have hba := earlier_iff h hb ha j i
  have hplaces : compare j i = (compare i j).swap := Std.OrientedCmp.eq_swap
  rw [order_swap h ha hb, hplaces, ← Ordering.swap_then] at hba
  cases ho : (order keys a b).then (compare i j) with
  | lt => exact Or.inl (hab.mpr ho)
  | gt => exact Or.inr (Or.inr (hba.mpr (congrArg Ordering.swap ho)))
  | eq =>
      -- at the same place there is the same document
      have hij : i = j := Nat.compare_eq_eq.mp (Ordering.then_eq_eq.mp ho).2
      subst hij
      have hget := List.mem_zipIdx_iff_getElem?.mp hx
      rw [List.mem_zipIdx_iff_getElem?.mp hy] at hget
      exact Or.inr (Or.inl (Prod.ext (Option.some.inj hget).symm rfl))

end Compared

end Document

/-- A list is sorted where the test is an order of its elements. -/
lemma pairwise_mergeSort_of_mem {α : Type} (le : α → α → Bool) (xs : List α)
    (htrans : ∀ x ∈ xs, ∀ y ∈ xs, ∀ z ∈ xs, le x y = true → le y z = true → le x z = true)
    (htotal : ∀ x ∈ xs, ∀ y ∈ xs, (le x y || le y x) = true) :
    (xs.mergeSort le).Pairwise fun x y => le x y = true := by
  have hattach : (xs.attach.mergeSort fun x y => le x.1 y.1).map Subtype.val
      = xs.mergeSort le := by
    rw [List.map_mergeSort (s := le) fun _ _ _ _ => rfl, List.attach_map_subtype_val]
  rw [← hattach, List.pairwise_map]
  refine List.pairwise_mergeSort ?_ ?_ xs.attach
  · intro x y z
    exact htrans x.1 x.2 y.1 y.2 z.1 z.2
  · intro x y
    exact htotal x.1 x.2 y.1 y.2

/-- Rows are sorted by their order. -/
lemma pairwise_mergeSort_notLater {keys : List SortKey} {docs : List Document}
    (h : Uniform keys docs) :
    (docs.zipIdx.mergeSort (notLater keys)).Pairwise fun x y => notLater keys x y = true := by
  have hmem : ∀ x ∈ docs.zipIdx, x.1 ∈ docs := fun x hx => List.fst_mem_of_mem_zipIdx hx
  have hiff := fun x hx y hy => Document.notLater_iff h (hmem x hx) (hmem y hy)
  refine pairwise_mergeSort_of_mem _ _ ?_ ?_
  · intro x hx y hy z hz hxy hyz
    rw [hiff x hx y hy] at hxy
    rw [hiff y hy z hz] at hyz
    rw [hiff x hx z hz]
    intro hzx
    rcases Document.earlier_trichotomy h hx hy with hlt | rfl | hgt
    · exact hyz (hzx.trans hlt)
    · exact hyz hzx
    · exact hxy hgt
  · intro x hx y hy
    rw [Bool.or_eq_true, hiff x hx y hy, hiff y hy x hx, ← not_and_or]
    rintro ⟨hyx, hxy⟩
    exact (hyx.trans hxy).irrefl

/-- **Sorting puts every document in its place**: what results are all the documents, with their
places in the list, each of them earlier than those that follow. -/
theorem Document.sort_uniform {keys : List SortKey} {docs : List Document}
    (h : Uniform keys docs) : ∃ rows : List (Document × Nat),
      rows.Perm docs.zipIdx ∧ rows.Pairwise (Earlier keys)
        ∧ rows.map Prod.fst = Document.sort keys docs := by
  have hmem : ∀ x ∈ docs.zipIdx, x.1 ∈ docs := fun x hx => List.fst_mem_of_mem_zipIdx hx
  have hperm : (docs.zipIdx.mergeSort (notLater keys)).Perm docs.zipIdx := List.mergeSort_perm _ _
  have hplaces : (docs.zipIdx.map Prod.snd).Nodup := by
    rw [List.zipIdx_map_snd]
    exact List.nodup_range'
  have hdistinct := hperm.nodup_iff.mpr hplaces.of_map
  refine ⟨_, hperm, ?_, List.mergeSort_zipIdx⟩
  refine ((pairwise_mergeSort_notLater h).and hdistinct).imp_of_mem fun {x y} hx hy hxy => ?_
  have hx := hperm.mem_iff.mp hx
  have hy := hperm.mem_iff.mp hy
  have hnot := (notLater_iff h (hmem x hx) (hmem y hy)).mp hxy.1
  rcases earlier_trichotomy h hx hy with hlt | heq | hgt
  · exact hlt
  · exact absurd heq hxy.2
  · exact absurd hgt hnot

end FleetLedger
