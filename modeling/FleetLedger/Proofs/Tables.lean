import Mathlib.Tactic.Lemma
import FleetLedger.Table

/-!
# Tables with the same content are the same table

`insert` puts a name where it belongs, so whatever is built from the empty table by `insert`,
`merge` and `ofList` has its names in ascending order (`Sorted.insert`, `Sorted.merge`,
`sorted_ofList`).  A sorted table is determined by what `get?` says of it (`Sorted.ext`).

The consequence that documents rest on is **`merge_eq_right`**: a table that is overwritten with at
least all of its names becomes the one it is overwritten with, and nothing of it survives.  What is
written into a table that is not empty can be lost as well, when the same names are written again
(`merge_merge_of_subset`); for that the names need not be in order.
-/

namespace FleetLedger.Table

variable {α : Type}

/-! ## Ascending order -/

lemma lt_or_lt_of_ne {a b : String} (h : a ≠ b) : a < b ∨ b < a := by
  rcases String.le_total a b with hle | hle
  · exact Or.inl (String.not_le.mp fun h' => h (String.le_antisymm hle h'))
  · exact Or.inr (String.not_le.mp fun h' => h (String.le_antisymm h' hle))

/-- The names are in ascending order, so each of them is there once. -/
def Sorted (t : Table α) : Prop := t.Pairwise fun a b => a.1 < b.1

lemma sorted_nil : Sorted ([] : Table α) := List.Pairwise.nil

lemma mem_insert {t : Table α} {name : String} {value : α} {e : String × α}
    (h : e ∈ t.insert name value) : e = (name, value) ∨ e ∈ t := by
  induction t with
  | nil => simpa [insert] using h
  | cons entry rest ih =>
      obtain ⟨k, v⟩ := entry
      simp only [insert] at h
      split at h
      · simp only [List.mem_cons] at h ⊢
        rcases h with h | h
        · exact Or.inl h
        · exact Or.inr (Or.inr h)
      · split at h
        · simpa using h
        · simp only [List.mem_cons] at h ⊢
          rcases h with h | h
          · exact Or.inr (Or.inl h)
          · exact (ih h).imp id Or.inr

lemma Sorted.insert {t : Table α} (ht : Sorted t) (name : String) (value : α) :
    Sorted (t.insert name value) := by
  induction t with
  | nil => simp [Sorted, Table.insert]
  | cons entry rest ih =>
      obtain ⟨k, v⟩ := entry
      obtain ⟨hk, hrest⟩ := List.pairwise_cons.mp ht
      simp only [Table.insert]
      split
      case isTrue h =>
        subst h
        exact List.pairwise_cons.mpr ⟨hk, hrest⟩
      case isFalse hne =>
        split
        case isTrue hlt =>
          refine List.pairwise_cons.mpr ⟨fun e he => ?_, ht⟩
          rcases List.mem_cons.mp he with rfl | he
          · exact hlt
          · exact String.lt_trans hlt (hk e he)
        case isFalse hlt =>
          refine List.pairwise_cons.mpr ⟨fun e he => ?_, ih hrest⟩
          rcases mem_insert he with rfl | he
          · exact (lt_or_lt_of_ne hne).resolve_right hlt
          · exact hk e he

lemma Sorted.merge {t : Table α} (ht : Sorted t) (entries : List (String × α)) :
    Sorted (t.merge entries) := by
  induction entries generalizing t with
  | nil => exact ht
  | cons e rest ih => exact ih (ht.insert e.1 e.2)

lemma sorted_ofList (entries : List (String × α)) : Sorted (ofList entries) :=
  sorted_nil.merge entries

/-! ## Writes one after the other -/

/-- Of two writes under one name the second counts. -/
lemma insert_insert (t : Table α) (name : String) (v w : α) :
    (t.insert name v).insert name w = t.insert name w := by
  induction t with
  | nil => simp [insert]
  | cons entry rest ih =>
      obtain ⟨k, u⟩ := entry
      simp only [insert]
      split
      · simp [insert]
      case isFalse hne =>
        split
        · simp [insert]
        case isFalse hlt => simp [insert, hne, hlt, ih]

/-- Names that differ may be inserted in either order. -/
lemma insert_insert_of_lt (t : Table α) {a b : String} (h : a < b) (v w : α) :
    (t.insert a v).insert b w = (t.insert b w).insert a v := by
  have hab : a ≠ b := fun he => String.lt_irrefl b (he ▸ h)
  have hba : ¬ b < a := String.lt_asymm h
  induction t with
  | nil => simp [insert, hab, hab.symm, h, hba]
  | cons entry rest ih =>
      obtain ⟨k, u⟩ := entry
      by_cases hka : k = a
      · subst hka
        simp [insert, hab, hba]
      · by_cases hkb : k = b
        · subst hkb
          simp [insert, hab, hab.symm, h, hba]
        · by_cases hak : a < k
          · by_cases hbk : b < k <;> simp [insert, *, hab.symm]
          · have hbk : ¬ b < k := fun hlt => hak (String.lt_trans h hlt)
            simp [insert, *]

/-- Writes under different names can be made in either order. -/
lemma insert_comm (t : Table α) {a b : String} (h : a ≠ b) (v w : α) :
    (t.insert a v).insert b w = (t.insert b w).insert a v := by
  rcases lt_or_lt_of_ne h with hlt | hlt
  · exact insert_insert_of_lt t hlt v w
  · exact (insert_insert_of_lt t hlt w v).symm

/-- What is overwritten afterwards need not be inserted. -/
lemma merge_insert_of_mem {t : Table α} {entries : List (String × α)} {name : String}
    (h : name ∈ entries.map Prod.fst) (v : α) :
    (t.insert name v).merge entries = t.merge entries := by
  induction entries generalizing t with
  | nil => exact absurd h (by simp)
  | cons e rest ih =>
      show ((t.insert name v).insert e.1 e.2).merge rest = (t.insert e.1 e.2).merge rest
      by_cases he : name = e.1
      · rw [he, insert_insert]
      · rw [insert_comm t he]
        exact ih (by simpa [he] using h)

/-- **What is overwritten leaves no trace**: entries whose names all come again are as good as not
written. -/
theorem merge_merge_of_subset {t : Table α} {entries others : List (String × α)}
    (h : ∀ e ∈ entries, e.1 ∈ others.map Prod.fst) :
    (t.merge entries).merge others = t.merge others := by
  induction entries generalizing t with
  | nil => rfl
  | cons e rest ih =>
      obtain ⟨he, hrest⟩ := List.forall_mem_cons.mp h
      show ((t.insert e.1 e.2).merge rest).merge others = t.merge others
      rw [ih hrest, merge_insert_of_mem he]

/-! ## Content -/

/-- A name that comes before all names of a table is not one of them. -/
lemma get?_eq_none_of_lt {t : Table α} {name : String} (h : ∀ e ∈ t, name < e.1) :
    t.get? name = none := by
  induction t with
  | nil => rfl
  | cons entry rest ih =>
      have hlt : name < entry.1 := h entry List.mem_cons_self
      have hne : entry.1 ≠ name := fun he => String.lt_irrefl name (he ▸ hlt)
      simpa [get?, hne] using ih fun e he => h e (List.mem_cons_of_mem _ he)

/-- **Extensionality**: sorted tables that say the same under every name are the same. -/
theorem Sorted.ext {t u : Table α} (ht : Sorted t) (hu : Sorted u)
    (h : ∀ name, t.get? name = u.get? name) : t = u := by
  induction t generalizing u with
  | nil =>
      cases u with
      | nil => rfl
      | cons b us => simpa [get?] using h b.1
  | cons a ts ih =>
      obtain ⟨ha, hts⟩ := List.pairwise_cons.mp ht
      cases u with
      | nil => simpa [get?] using h a.1
      | cons b us =>
          obtain ⟨hb, hus⟩ := List.pairwise_cons.mp hu
          have hab : a.1 = b.1 := Decidable.byContradiction fun hne => by
            -- the smaller of the two first names is in one table only
            rcases lt_or_lt_of_ne hne with hlt | hlt
            · have hnone : get? us a.1 = none :=
                get?_eq_none_of_lt fun e he => String.lt_trans hlt (hb e he)
              simpa [get?, Ne.symm hne, hnone] using h a.1
            · have hnone : get? ts b.1 = none :=
                get?_eq_none_of_lt fun e he => String.lt_trans hlt (ha e he)
              simpa [get?, hne, hnone] using h b.1
          have hval : a.2 = b.2 := by simpa [get?, hab] using h a.1
          have hrest : ts = us := by
            refine ih hts hus fun name => ?_
            by_cases hn : a.1 = name
            · rw [get?_eq_none_of_lt fun e he => hn ▸ ha e he,
                get?_eq_none_of_lt fun e he => hn ▸ hab ▸ hb e he]
            · have hn' : ¬ b.1 = name := fun hb' => hn (hab.trans hb')
              simpa [get?, hn, hn'] using h name
          rw [hrest, Prod.ext hab hval]

/-- Overwriting with a sorted table: what it says counts, and where it says nothing, what was
there. -/
lemma get?_merge (t : Table α) {u : Table α} (hu : Sorted u) (name : String) :
    (t.merge u).get? name = (u.get? name).or (t.get? name) := by
  induction u generalizing t with
  | nil => rfl
  | cons b us ih =>
      obtain ⟨hb, hus⟩ := List.pairwise_cons.mp hu
      have hstep : (t.merge (b :: us)).get? name
          = (get? us name).or ((t.insert b.1 b.2).get? name) := ih (t.insert b.1 b.2) hus
      rw [hstep, get?_insert]
      by_cases hn : b.1 = name
      · have hnone : get? us name = none := get?_eq_none_of_lt fun e he => hn ▸ hb e he
        simp [get?, hn, hnone]
      · simp [get?, hn]

lemma Sorted.ofList_eq {t : Table α} (ht : Sorted t) : ofList t = t :=
  (sorted_ofList t).ext ht fun name => (get?_merge [] ht name).trans (by simp)

lemma Sorted.ofList_append {t : Table α} (ht : Sorted t) (entries : List (String × α)) :
    ofList (t ++ entries) = t.merge entries := by
  have hsplit : ofList (t ++ entries) = (ofList t).merge entries := List.foldl_append
  rw [hsplit, ht.ofList_eq]

/-- **Nothing survives being overwritten** with a table that has all of one's names. -/
theorem merge_eq_right {t u : Table α} (ht : Sorted t) (hu : Sorted u)
    (h : ∀ name, t.contains name = true → u.contains name = true) : t.merge u = u := by
  refine (ht.merge u).ext hu fun name => ?_
  rw [get?_merge t hu]
  cases hname : u.get? name with
  | some v => rfl
  | none =>
      cases hold : t.get? name with
      | none => rfl
      | some v =>
          have hmem := h name (by simp [contains, hold])
          simp [contains, hname] at hmem

/-! ## Names -/

/-- There is a value for the names of the entries. -/
lemma isSome_get?_iff {t : Table α} {name : String} :
    (t.get? name).isSome = true ↔ name ∈ t.map (·.1) := by
  induction t with
  | nil => simp
  | cons entry rest ih =>
      by_cases h : entry.1 = name
      · simp [get?, h]
      · simp [get?, h, ih, Ne.symm h]

/-- Whatever is put into a table, its names are the old ones and the new ones. -/
lemma isSome_get?_merge {t : Table α} {entries : List (String × α)} {name : String} :
    ((t.merge entries).get? name).isSome = true
      ↔ (t.get? name).isSome = true ∨ name ∈ entries.map (·.1) := by
  induction entries generalizing t with
  | nil => simp [merge]
  | cons e rest ih =>
      have hcons : t.merge (e :: rest) = (t.insert e.1 e.2).merge rest := rfl
      rw [hcons, ih, get?_insert, List.map_cons, List.mem_cons]
      by_cases h : e.1 = name
      · simp [h]
      · simp [h, Ne.symm h]

end FleetLedger.Table
