import Mathlib.Data.List.TakeWhile
import FleetLedger.Coordination.Entries
import FleetLedger.Proofs.Tables

/-!
# Scans

A scan begins at the scope, as a text, and stops at the first key that does not start with it.  As
the entries stand in the order of their keys, nothing is left out by that: what starts with the
scope does not come before it (`not_lt_of_covers`), and between the scope and a key that starts with
it there are only keys that do as well (`covers_of_lt`).  Hence **`scan_eq_filter`**.

The entries within a scope are a table of their own, which is all that is needed to follow a scope
through changes: **`under_foldl_after`**.  What changes make of a table depends for each key on the
last of them only (`get?_foldl_after`), so making them once more makes no difference:
**`foldl_after_absorbs`**.
-/

namespace FleetLedger

open Table

namespace Scope

/-! ## The order of keys -/

/-- What lies between a beginning and a text with this beginning has it, too. -/
lemma prefix_of_lt {p a r : List Char} (hp : ¬ a < p) (ha : a < p ++ r) : p <+: a := by
  induction p generalizing a with
  | nil => exact List.nil_prefix
  | cons c p ih =>
      cases a with
      | nil => exact absurd (List.nil_lt_cons _ _) hp
      | cons d a =>
          rw [List.cons_append, List.cons_lt_cons_iff] at ha
          rw [List.cons_lt_cons_iff, not_or] at hp
          obtain ⟨rfl, hlt⟩ := ha.resolve_left hp.1
          have hrest : p <+: a := ih (fun h => hp.2 ⟨rfl, h⟩) hlt
          exact (List.prefix_cons_inj d).mpr hrest

lemma not_lt_append (p r : List Char) : ¬ p ++ r < p := by
  induction p with
  | nil => exact List.not_lt_nil r
  | cons c p ih =>
      rw [List.cons_append, List.cons_lt_cons_iff]
      rintro (h | ⟨-, h⟩)
      · exact Char.lt_irrefl c h
      · exact ih h

/-- A key within a scope does not come before the scope. -/
lemma not_lt_of_covers {scope key : String} (h : covers scope key = true) : ¬ key < scope := by
  obtain ⟨rest, rfl⟩ := covers_iff.mp h
  intro hlt
  have hlists : (scope ++ rest).toList < scope.toList := hlt
  rw [String.toList_append] at hlists
  exact not_lt_append _ _ hlists

/-- **The keys of a scope stand together.** -/
theorem covers_of_lt {scope key later : String} (hscope : ¬ key < scope) (hlt : key < later)
    (h : covers scope later = true) : covers scope key = true := by
  obtain ⟨rest, rfl⟩ := covers_iff.mp h
  have hlists : key.toList < (scope ++ rest).toList := hlt
  rw [String.toList_append] at hlists
  exact List.isPrefixOf_iff_prefix.mpr (prefix_of_lt hscope hlists)

end Scope

namespace Entries

/-! ## The entries within a scope -/

/-- The entries within a scope, as a table. -/
def under (scope : String) (t : Entries) : Entries := t.filter fun e => Scope.covers scope e.1

/-- The entries of a table, one after the other. -/
def listed (t : Entries) : List KeyValue := t.map fun e => ⟨e.1, e.2⟩

/-- In a table in order, what a scope covers comes first of what is not before it. -/
lemma takeWhile_covers {scope : String} {t : Entries} (ht : Sorted t)
    (h : ∀ e ∈ t, ¬ e.1 < scope) : t.takeWhile (fun e => Scope.covers scope e.1) = under scope t := by
  induction t with
  | nil => rfl
  | cons e rest ih =>
      obtain ⟨he, hrest⟩ := List.pairwise_cons.mp ht
      have hlater := ih hrest fun e' he' => h e' (List.mem_cons_of_mem e he')
      rw [under] at hlater ⊢
      rw [List.takeWhile_cons, List.filter_cons, hlater]
      split
      · rfl
      · -- no later key starts with the scope, or this one would
        rename_i hnot
        refine (List.filter_eq_nil_iff.mpr fun e' he' hcovers' => ?_).symm
        exact hnot (Scope.covers_of_lt (h e List.mem_cons_self) (he e' he') hcovers')

/-- **A scan leaves nothing out** and takes in nothing else. -/
theorem scan_eq_filter {t : Entries} (ht : Sorted t) (scope : String) :
    t.scan scope = (under scope t).listed := by
  refine congrArg listed ?_
  induction t with
  | nil => rfl
  | cons e rest ih =>
      obtain ⟨he, hrest⟩ := List.pairwise_cons.mp ht
      by_cases hlt : e.1 < scope
      · have hnot : ¬ Scope.covers scope e.1 = true := fun h => Scope.not_lt_of_covers h hlt
        rw [List.dropWhile_cons_of_pos (by simpa using hlt), ih hrest, under, under,
          List.filter_cons, if_neg hnot]
      · rw [List.dropWhile_cons_of_neg (by simpa using hlt)]
        refine takeWhile_covers ht fun e' he' hlt' => ?_
        rcases List.mem_cons.mp he' with rfl | he'
        · exact hlt hlt'
        · exact hlt (String.lt_trans (he e' he') hlt')

lemma sorted_under {t : Entries} (ht : Sorted t) (scope : String) : Sorted (under scope t) :=
  List.Pairwise.filter _ ht

/-- Under a scope are the keys that it covers, with their values. -/
lemma get?_under (t : Entries) (scope key : String) :
    (under scope t).get? key = if Scope.covers scope key then t.get? key else none := by
  induction t with
  | nil => simp [under]
  | cons e rest ih =>
      rw [under] at ih ⊢
      obtain ⟨k, v⟩ := e
      by_cases hk : k = key
      · subst hk
        cases hcovers : Scope.covers scope k with
        | true => simp [hcovers, get?]
        | false =>
            rw [hcovers] at ih
            simpa [hcovers] using ih
      · cases hcovers : Scope.covers scope k with
        | true => simp [hcovers, get?, hk, ih]
        | false => simp [hcovers, get?, hk, ih]

/-! ## Changes -/

lemma sorted_after {t : Entries} (ht : Sorted t) (e : Event) : Sorted (t.after e) := by
  cases e with
  | put key value => exact ht.insert key value
  | delete key => exact List.Pairwise.filter _ ht
  | closed reason => exact ht

lemma sorted_foldl_after {t : Entries} (ht : Sorted t) (es : List Event) :
    Sorted (es.foldl after t) := by
  induction es generalizing t with
  | nil => exact ht
  | cons e es ih => exact ih (sorted_after ht e)

/-- What an event leaves under a key, if it concerns the key. -/
def leaves? (key : String) : Event → Option (Option String)
  | .put k value => if k = key then some (some value) else none
  | .delete k => if k = key then some none else none
  | .closed _ => none

/-- After a change a key has what the change leaves there, or what it had. -/
lemma get?_after (t : Entries) (e : Event) (key : String) :
    (t.after e).get? key = (leaves? key e).getD (t.get? key) := by
  cases e with
  | put k value =>
      rw [after, get?_insert, leaves?]
      split <;> rfl
  | delete k =>
      rw [after, get?_erase, leaves?]
      split <;> rfl
  | closed reason => rfl

/-- What the last event leaves under a key that concerns the key. -/
def lastLeft? (key : String) (es : List Event) : Option (Option String) :=
  es.foldl (fun last e => (leaves? key e).or last) none

/-- Of several changes the last one of a key counts. -/
lemma foldl_leaves? (key : String) (es : List Event) (last : Option (Option String)) :
    es.foldl (fun last e => (leaves? key e).or last) last = (lastLeft? key es).or last := by
  induction es generalizing last with
  | nil => rfl
  | cons e es ih =>
      rw [lastLeft?, List.foldl_cons, List.foldl_cons, ih, ih]
      simp [Option.or_assoc]

/-- **Under each key the last change counts.** -/
theorem get?_foldl_after (t : Entries) (es : List Event) (key : String) :
    (es.foldl after t).get? key = (lastLeft? key es).getD (t.get? key) := by
  induction es generalizing t with
  | nil => rfl
  | cons e es ih =>
      have hlast : lastLeft? key (e :: es) = (lastLeft? key es).or (leaves? key e) :=
        (foldl_leaves? key es _).trans (by simp only [Option.or_none])
      rw [List.foldl_cons, ih, get?_after, hlast]
      cases lastLeft? key es <;> rfl

/-- **Changes that are made once more make no difference.** -/
theorem foldl_after_absorbs {t : Entries} (ht : Sorted t) (es : List Event) :
    es.foldl after (es.foldl after t) = es.foldl after t := by
  have hsorted := sorted_foldl_after ht es
  refine (sorted_foldl_after hsorted es).ext hsorted fun key => ?_
  rw [get?_foldl_after, get?_foldl_after]
  cases lastLeft? key es <;> rfl

/-- A change outside of a scope leaves the entries within it alone. -/
lemma under_after {t : Entries} (ht : Sorted t) (scope : String) (e : Event) :
    under scope (t.after e)
      = if e.isUnder scope then (under scope t).after e else under scope t := by
  -- an event that concerns a key is within the scope exactly if the key is
  have hleft : ∀ key, leaves? key e = none ∨ Event.isUnder scope e = Scope.covers scope key := by
    intro key
    cases e with
    | put k value =>
        by_cases hk : k = key
        · exact Or.inr (hk ▸ rfl)
        · exact Or.inl (if_neg hk)
    | delete k =>
        by_cases hk : k = key
        · exact Or.inr (hk ▸ rfl)
        · exact Or.inl (if_neg hk)
    | closed reason => exact Or.inl rfl
  cases hunder : e.isUnder scope with
  | true =>
      rw [if_pos rfl]
      refine (sorted_under (sorted_after ht e) scope).ext (sorted_after (sorted_under ht scope) e)
        fun key => ?_
      rw [get?_under, get?_after, get?_after, get?_under]
      rcases hleft key with hnone | hcovers
      · rw [hnone]
        rfl
      · rw [← hcovers, hunder]
        rfl
  | false =>
      rw [if_neg Bool.false_ne_true]
      refine (sorted_under (sorted_after ht e) scope).ext (sorted_under ht scope) fun key => ?_
      rw [get?_under, get?_after, get?_under]
      rcases hleft key with hnone | hcovers
      · rw [hnone]
        rfl
      · rw [← hcovers, hunder]
        rfl

/-- **A scope follows from the changes within it.** -/
theorem under_foldl_after {t : Entries} (ht : Sorted t) (scope : String) (es : List Event) :
    under scope (es.foldl after t)
      = (es.filter (Event.isUnder scope)).foldl after (under scope t) := by
  induction es generalizing t with
  | nil => rfl
  | cons e es ih =>
      rw [List.foldl_cons, ih (sorted_after ht e), under_after ht]
      cases hunder : e.isUnder scope with
      | true => rw [List.filter_cons_of_pos hunder, if_pos rfl, List.foldl_cons]
      | false =>
          rw [List.filter_cons_of_neg (ne_true_of_eq_false hunder), if_neg Bool.false_ne_true]

end Entries

end FleetLedger
