/-!
# Scopes of keys

Keys of one purpose start with the same text, their scope; what follows the scope is the key's bare
name.  A scope takes in every key that starts with it, whether or not a separator follows.
-/

namespace FleetLedger.Scope

/-- The key starts with the scope. -/
def covers (scope key : String) : Bool := scope.toList.isPrefixOf key.toList

/-- What follows the scope in a key; none for a key outside of it. -/
def rest? (scope key : String) : Option String :=
  if covers scope key then some (String.ofList (key.toList.drop scope.toList.length)) else none

/-- The bare name of a key; a key outside of the scope stays as it is. -/
def bare (scope key : String) : String := (rest? scope key).getD key

/-- A scope covers what starts with it. -/
theorem covers_iff {scope key : String} : covers scope key = true ↔ ∃ rest, key = scope ++ rest := by
  rw [covers, List.isPrefixOf_iff_prefix]
  constructor
  · rintro ⟨rest, h⟩
    refine ⟨String.ofList rest, ?_⟩
    rw [← String.toList_inj, String.toList_append, String.toList_ofList, h]
  · rintro ⟨rest, rfl⟩
    exact ⟨rest.toList, (String.toList_append ..).symm⟩

/-- A scope followed by a name covers, and the name is what follows. -/
theorem rest?_append (scope name : String) : rest? scope (scope ++ name) = some name := by
  simp [rest?, covers]

/-- What follows a scope in a key is what makes the key of it. -/
theorem rest?_eq_some_iff {scope key name : String} :
    rest? scope key = some name ↔ key = scope ++ name := by
  constructor
  · intro h
    unfold rest? at h
    split at h
    · rename_i hc
      obtain ⟨rest, rfl⟩ := covers_iff.1 hc
      simp at h
      rw [h]
    · cases h
  · rintro rfl
    exact rest?_append scope name

end FleetLedger.Scope
