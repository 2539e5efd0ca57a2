import Mathlib.Tactic.Lemma
import FleetLedger.Text.Blank

/-!
# Trimming

A text is trimmed from one end and then, turned around, from the other one.  What that comes to is said
without an order: a text has blanks around another one (`Around`), and nothing is left to take away from
a text that ends in no blank on either side (`Tight`).  Blanks around a text do not change what is left
of it (`trim_of_around`), and **`trimmed?_eq_some_iff_around`** says what that is.
-/

namespace FleetLedger.Blank

/-- Nothing but blanks. -/
def AllBlank (cs : List Char) : Prop := ∀ c ∈ cs, isBlank c = true

/-- A text is another one with blanks around it. -/
def Around (core s : String) : Prop :=
  ∃ before after, s.toList = before ++ core.toList ++ after ∧ AllBlank before ∧ AllBlank after

/-- A text that is not empty and neither begins nor ends with a blank. -/
structure Tight (s : String) : Prop where
  nonempty : s ≠ ""
  first : ∀ c ∈ s.toList.head?, isBlank c = false
  last : ∀ c ∈ s.toList.getLast?, isBlank c = false

lemma AllBlank.reverse {cs : List Char} (h : AllBlank cs) : AllBlank cs.reverse :=
  fun c hc => h c (List.mem_reverse.mp hc)

lemma allBlank_takeWhile (cs : List Char) : AllBlank (cs.takeWhile isBlank) :=
  List.all_eq_true.mp List.all_takeWhile

/-- What trimming takes from the end are blanks. -/
lemma exists_dropWhile_eq (cs : List Char) :
    ∃ after, cs.dropWhile isBlank = trimChars cs ++ after ∧ AllBlank after := by
  refine ⟨((cs.dropWhile isBlank).reverse.takeWhile isBlank).reverse, ?_,
    (allBlank_takeWhile _).reverse⟩
  rw [trimChars, ← List.reverse_append, List.takeWhile_append_dropWhile, List.reverse_reverse]

/-- Blanks around a text make no difference to what is left of it. -/
lemma trimChars_append {before cs after : List Char} (hbefore : AllBlank before)
    (hafter : AllBlank after) : trimChars (before ++ cs ++ after) = trimChars cs := by
  rw [trimChars, trimChars, List.append_assoc, List.dropWhile_append_of_pos hbefore,
    List.dropWhile_append]
  split
  case isTrue hnil => rw [List.isEmpty_iff.mp hnil, dropWhile_isBlank_eq_nil_iff.mpr hafter]
  case isFalse => rw [List.reverse_append, List.dropWhile_append_of_pos hafter.reverse]

lemma toList_trim (s : String) : (trim s).toList = trimChars s.toList := by
  rw [trim, String.toList_ofList]

lemma trim_of_around {core s : String} (h : Around core s) : trim s = trim core := by
  obtain ⟨before, after, happend, hbefore, hafter⟩ := h
  rw [trim, trim, happend, trimChars_append hbefore hafter]

/-- Trimming takes nothing but blanks, and only at both ends. -/
lemma around_trim (s : String) : Around (trim s) s := by
  obtain ⟨after, hdrop, hafter⟩ := exists_dropWhile_eq s.toList
  refine ⟨s.toList.takeWhile isBlank, after, ?_, allBlank_takeWhile _, hafter⟩
  rw [toList_trim, List.append_assoc, ← hdrop, List.takeWhile_append_dropWhile]

lemma head?_dropWhile_isBlank (cs : List Char) :
    ∀ c ∈ (cs.dropWhile isBlank).head?, isBlank c = false := by
  intro c hc
  have h := List.head?_dropWhile_not isBlank cs
  rw [Option.mem_def.mp hc] at h
  simpa using h

lemma dropWhile_isBlank_of_head? {cs : List Char} (h : ∀ c ∈ cs.head?, isBlank c = false) :
    cs.dropWhile isBlank = cs := by
  cases cs with
  | nil => rfl
  | cons c cs => exact List.dropWhile_cons_of_neg (ne_true_of_eq_false (h c rfl))

/-- Nothing is taken from a text with no blanks at its ends. -/
lemma trim_eq_self {s : String} (hfirst : ∀ c ∈ s.toList.head?, isBlank c = false)
    (hlast : ∀ c ∈ s.toList.getLast?, isBlank c = false) : trim s = s := by
  have hback : ∀ c ∈ s.toList.reverse.head?, isBlank c = false := by
    rw [List.head?_reverse]
    exact hlast
  rw [trim, trimChars, dropWhile_isBlank_of_head? hfirst, dropWhile_isBlank_of_head? hback,
    List.reverse_reverse, String.ofList_toList]

/-- Trimming leaves no blank at either end. -/
lemma tight_trim {s : String} (h : trim s ≠ "") : Tight (trim s) := by
  refine ⟨h, fun c hc => ?_, fun c hc => ?_⟩
  · -- what is left begins where the blanks in front end
    obtain ⟨after, hdrop, -⟩ := exists_dropWhile_eq s.toList
    have hfront := head?_dropWhile_isBlank s.toList
    rw [hdrop, ← toList_trim, List.head?_append, Option.mem_def.mp hc] at hfront
    exact hfront c rfl
  · rw [toList_trim, trimChars, List.getLast?_reverse] at hc
    exact head?_dropWhile_isBlank _ c hc

/-- What is left of a text is the text without the blanks around it. -/
lemma trimmed?_eq_some_iff_around {s w : String} : trimmed? s = some w ↔ Around w s ∧ Tight w := by
  rw [trimmed?_eq_some_iff]
  constructor
  · rintro ⟨rfl, hs⟩
    exact ⟨around_trim s, tight_trim hs⟩
  · rintro ⟨haround, htight⟩
    have htrim : trim s = w :=
      (trim_of_around haround).trans (trim_eq_self htight.first htight.last)
    exact ⟨htrim, htrim ▸ htight.nonempty⟩

end FleetLedger.Blank
