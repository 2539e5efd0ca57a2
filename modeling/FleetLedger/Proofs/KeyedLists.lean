import Mathlib.Data.List.Forall2
import Mathlib.Data.List.Nodup
import FleetLedger.Store.Memory

/-!
# Lists with one element for each key

An upsert changes the first document that its filter holds of, or adds one at the end.  `amend` is
that operation on any list, and `Memory.upsertRows_eq_amend` says that it is the operation of the
store.

Two lists that stand for each other element by element still do after they were both amended
(`forall₂_amend`), and so do a list and what is seen of its elements (`amend_map`).  That is how
rows of documents are compared with lists of plain values.  In a list of plain values with a key, an
amendment is a write under a key: it is what is found there afterwards, nothing else changes
(`find?_amend`), and no key comes to be there twice (`nodup_amend`).
-/

namespace FleetLedger

variable {α β κ : Type}

/-- Changes the first element that is hit; if none is, `fresh` comes last. -/
def amend (hit : α → Bool) (change : α → α) (fresh : α) : List α → List α
  | [] => [fresh]
  | x :: xs => if hit x then change x :: xs else x :: amend hit change fresh xs

/-- Upserting amends the rows where the filter holds. -/
lemma Memory.upsertRows_eq_amend (f : Filter) (u : Update) (docs : List Document) :
    upsertRows f u docs = amend f.holds u.apply (u.seed f) docs := by
  induction docs with
  | nil => rfl
  | cons d ds ih => simp only [upsertRows, amend, ih]

/-- The first element that is hit is the one that is changed. -/
lemma amend_append {hit : α → Bool} {change : α → α} {fresh x : α} {before after : List α}
    (hbefore : ∀ y ∈ before, hit y = false) (hx : hit x = true) :
    amend hit change fresh (before ++ x :: after) = before ++ change x :: after := by
  induction before with
  | nil => simp [amend, hx]
  | cons y before ih =>
      obtain ⟨hy, hrest⟩ := List.forall_mem_cons.mp hbefore
      simp [amend, hy, ih hrest]

/-- Where nothing is hit, the fresh one is put behind. -/
lemma amend_of_forall {hit : α → Bool} {change : α → α} {fresh : α} {xs : List α}
    (h : ∀ x ∈ xs, hit x = false) : amend hit change fresh xs = xs ++ [fresh] := by
  induction xs with
  | nil => rfl
  | cons x xs ih =>
      obtain ⟨hx, hrest⟩ := List.forall_mem_cons.mp h
      simp [amend, hx, ih hrest]

/-- **Amending keeps the correspondence** of two lists, if it hits the same elements of both. -/
theorem forall₂_amend {R : α → β → Prop} {hit : α → Bool} {hit' : β → Bool} {change : α → α}
    {change' : β → β} {fresh : α} {fresh' : β} (hhit : ∀ x y, R x y → hit x = hit' y)
    (hchange : ∀ x y, R x y → hit' y = true → R (change x) (change' y)) (hfresh : R fresh fresh')
    {xs : List α} {ys : List β} (h : List.Forall₂ R xs ys) :
    List.Forall₂ R (amend hit change fresh xs) (amend hit' change' fresh' ys) := by
  induction h with
  | nil => exact List.Forall₂.cons hfresh List.Forall₂.nil
  | @cons x y xs ys hxy hrest ih =>
      rw [amend, amend, hhit x y hxy]
      by_cases hy : hit' y = true
      · rw [if_pos hy, if_pos hy]
        exact List.Forall₂.cons (hchange x y hxy hy) hrest
      · rw [if_neg hy, if_neg hy]
        exact List.Forall₂.cons hxy ih

/-- Amending commutes with a view of the elements that hits and changes commute with. -/
lemma amend_map {view : β → α} {hit : α → Bool} {hit' : β → Bool} {change : α → α}
    {change' : β → β} {fresh : β} (hhit : ∀ y, hit (view y) = hit' y)
    (hchange : ∀ y, change (view y) = view (change' y)) (ys : List β) :
    amend hit change (view fresh) (ys.map view) = (amend hit' change' fresh ys).map view := by
  induction ys with
  | nil => rfl
  | cons y ys ih =>
      rw [List.map_cons, amend, amend, hhit, hchange, ih]
      split
      · rfl
      · rfl

lemma exists_of_forall₂ {R : α → β → Prop} {xs : List α} {ys : List β} (h : List.Forall₂ R xs ys)
    {x : α} (hx : x ∈ xs) : ∃ y ∈ ys, R x y := by
  induction h with
  | nil => exact absurd hx (by simp)
  | @cons x' y xs ys hxy _ ih =>
      rcases List.mem_cons.mp hx with rfl | hx
      · exact ⟨y, List.mem_cons_self, hxy⟩
      · obtain ⟨z, hz, hxz⟩ := ih hx
        exact ⟨z, List.mem_cons_of_mem _ hz, hxz⟩

/-- Where each element is read as its counterpart, the list is read as the other list. -/
lemma mapM_ok_of_forall₂ {ε : Type} {f : α → Except ε β} {xs : List α} {ys : List β}
    (h : List.Forall₂ (fun x y => f x = .ok y) xs ys) : xs.mapM f = .ok ys := by
  induction h with
  | nil => rfl
  | cons hxy _ ih =>
      rw [List.mapM_cons, hxy, ih]
      rfl

lemma mapM_map_eq_ok {γ ε : Type} {f : α → Except ε γ} {g : β → α} {k : β → γ}
    (h : ∀ y, f (g y) = .ok (k y)) (ys : List β) : (ys.map g).mapM f = .ok (ys.map k) := by
  refine mapM_ok_of_forall₂ (List.forall₂_map_left_iff.mpr (List.forall₂_map_right_iff.mpr ?_))
  exact List.forall₂_same.mpr fun y _ => h y

lemma mapM_map_ok {ε : Type} {f : α → Except ε β} {g : β → α} (h : ∀ y, f (g y) = .ok y)
    (ys : List β) : (ys.map g).mapM f = .ok ys := by
  have hmapped := mapM_map_eq_ok (k := id) h ys
  rwa [List.map_id] at hmapped

section Keyed

variable [DecidableEq κ] {key : α → κ} {k : κ} {change : α → α} {fresh : α}

/-- An element is found under its key, where keys are different. -/
lemma find?_key_eq_some_iff {xs : List α} (hn : (xs.map key).Nodup) {x : α} :
    xs.find? (fun y => key y = k) = some x ↔ x ∈ xs ∧ key x = k := by
  constructor
  · intro h
    exact ⟨List.mem_of_find?_eq_some h, by simpa using List.find?_some h⟩
  · rintro ⟨hx, rfl⟩
    induction xs with
    | nil => exact absurd hx (by simp)
    | cons y ys ih =>
        rw [List.map_cons, List.nodup_cons] at hn
        rcases List.mem_cons.mp hx with rfl | hmem
        · simp
        · have hne : key y ≠ key x := fun he => hn.1 (he ▸ List.mem_map_of_mem hmem)
          simpa [hne] using ih hn.2 hmem

/-- At most one element has a key, where keys are different. -/
lemma filter_key_eq {xs : List α} (hn : (xs.map key).Nodup) (k : κ) :
    xs.filter (fun x => key x = k) = (xs.find? fun x => key x = k).toList := by
  induction xs with
  | nil => rfl
  | cons x xs ih =>
      rw [List.map_cons, List.nodup_cons] at hn
      by_cases hx : key x = k
      · have hrest : xs.filter (fun x => key x = k) = [] := by
          refine List.filter_eq_nil_iff.mpr fun y hy => ?_
          have hne : key y ≠ k := fun he => hn.1 (hx ▸ he ▸ List.mem_map_of_mem hy)
          simpa using hne
        simp [hx, hrest]
      · simpa [hx] using ih hn.2

/-- **A write under a key** is what is found there afterwards, and no other key is touched. -/
theorem find?_amend (hchange : ∀ x, key x = k → key (change x) = k) (hfresh : key fresh = k)
    (k' : κ) (xs : List α) :
    (amend (fun x => key x = k) change fresh xs).find? (fun x => key x = k')
      = if k = k' then some (((xs.find? fun x => key x = k).map change).getD fresh)
        else xs.find? fun x => key x = k' := by
  induction xs with
  | nil => by_cases h : k = k' <;> simp [amend, hfresh, h]
  | cons x xs ih =>
      by_cases hx : key x = k
      · by_cases h : k = k' <;> simp [amend, hx, hchange x hx, h]
      · by_cases h : k = k'
        · subst h
          simpa [amend, hx] using ih
        · by_cases hx' : key x = k'
          · simp [amend, hx', h, Ne.symm h]
          · simpa [amend, hx, hx', h] using ih

/-- Amending opens a place only for a key that has none. -/
lemma map_key_amend (hchange : ∀ x, key x = k → key (change x) = k) (hfresh : key fresh = k)
    (xs : List α) : (amend (fun x => key x = k) change fresh xs).map key
      = if k ∈ xs.map key then xs.map key else xs.map key ++ [k] := by
  induction xs with
  | nil => simp [amend, hfresh]
  | cons x xs ih =>
      by_cases hx : key x = k
      · simp [amend, hx, hchange x hx]
      · simp only [amend, hx, decide_false, Bool.false_eq_true, if_false, List.map_cons, ih,
          List.mem_cons, Ne.symm hx, false_or]
        split <;> rfl

/-- Amending gives no key a second place. -/
lemma nodup_amend (hchange : ∀ x, key x = k → key (change x) = k) (hfresh : key fresh = k)
    {xs : List α} (hn : (xs.map key).Nodup) :
    ((amend (fun x => key x = k) change fresh xs).map key).Nodup := by
  rw [map_key_amend hchange hfresh]
  split
  · exact hn
  case isFalse h =>
    refine List.nodup_append.mpr ⟨hn, List.nodup_singleton k, fun a ha b hb => ?_⟩
    rw [List.mem_singleton.mp hb]
    exact fun he => h (he ▸ ha)

end Keyed

end FleetLedger
