/-!
# Tables

A table keeps values under names, in ascending order of the names and each name once.  It serves
wherever the order of names shows: the fields of a document, the entries of a key-value store.

`insert` keeps a name in its place, so a table built from the empty one by inserting and erasing has
this normal form, and two tables with the same content are the same list.  What a table says is read
through `get?`; the laws below state each operation by its effect on `get?`.
-/

namespace FleetLedger

/-- Values under names, in ascending order of the names. -/
abbrev Table (α : Type) := List (String × α)

namespace Table

variable {α : Type}

/-- The value under a name. -/
def get? : Table α → String → Option α
  | [], _ => none
  | (k, v) :: rest, name => if k = name then some v else get? rest name

/-- There is a value under the name. -/
def contains (t : Table α) (name : String) : Bool := (t.get? name).isSome

/-- Puts a value under a name: in the place of the old value, or where the name belongs. -/
def insert : Table α → String → α → Table α
  | [], name, value => [(name, value)]
  | (k, v) :: rest, name, value =>
    if k = name then (name, value) :: rest
    else if name < k then (name, value) :: (k, v) :: rest
    else (k, v) :: insert rest name value

/-- Removes a name. -/
def erase (t : Table α) (name : String) : Table α := t.filter fun entry => entry.1 ≠ name

/-- Puts all of some values under their names; of several with one name the last stays. -/
def merge (t : Table α) (entries : List (String × α)) : Table α :=
  entries.foldl (fun t (name, value) => t.insert name value) t

/-- The table of some values; of several with one name the last stays. -/
def ofList (entries : List (String × α)) : Table α := merge [] entries

@[simp] theorem get?_nil (name : String) : get? ([] : Table α) name = none := rfl

/-- A value reads as it was put, and no other value changes. -/
theorem get?_insert (t : Table α) (name other : String) (value : α) :
    (t.insert name value).get? other = if name = other then some value else t.get? other := by
  induction t with
  | nil => simp [insert, get?]
  | cons entry rest ih =>
    obtain ⟨k, v⟩ := entry
    by_cases hk : k = name
    · subst hk
      by_cases ho : k = other <;> simp [insert, get?, ho]
    · by_cases hlt : name < k
      · simp only [insert, hk, if_false, hlt, if_true, get?]
      · simp only [insert, hk, if_false, hlt, get?, ih]
        by_cases ho : k = other
        · have : ¬ name = other := fun h => hk (ho.trans h.symm)
          simp [ho, this]
        · simp [ho]

/-- An erased name has no value, and no other value changes. -/
theorem get?_erase (t : Table α) (name other : String) :
    (t.erase name).get? other = if name = other then none else t.get? other := by
  induction t with
  | nil => simp [erase, get?]
  | cons entry rest ih =>
    obtain ⟨k, v⟩ := entry
    simp only [erase] at ih
    by_cases hk : k = name
    · subst hk
      simp only [erase, ne_eq, decide_not, List.filter_cons, decide_true,
        Bool.not_true, Bool.false_eq_true, if_false, get?]
      by_cases ho : k = other <;> simp_all
    · by_cases ho : k = other
      · have : ¬ name = other := fun h => hk (ho.trans h.symm)
        simp_all [erase, get?]
      · simp_all [erase, get?]

end Table

end FleetLedger
