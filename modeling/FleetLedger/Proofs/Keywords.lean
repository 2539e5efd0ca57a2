import Mathlib.Data.List.Infix
import FleetLedger.Pattern.Parser
import FleetLedger.Proofs.CaseVariants

/-!
# Keywords are found where they stand

A keyword is turned into a pattern by escaping whatever would mean something in a pattern.  Two facts
make it a search for the keyword itself.

The notation reads an escaped text as the row of its characters (**`parse?_escape`**): an escape stands
for the character behind it, no other character is special, and in front of the next character there is
nothing that repeats the last one.  And a row of characters matches where they stand one after the
other, letter case aside (**`isMatch_literal`**): place by place, each character leads one place on if
it has the folding of the character there.
-/

namespace FleetLedger.Pattern

/-! ## Reading what was escaped -/

namespace Parser

lemma escaped?_of_mem {c : Char} (h : c ∈ metaCharacters) : escaped? c = some (.char c) := by
  have hall : (metaCharacters.all fun c => decide (escaped? c = some (.char c))) = true := by
    decide +kernel
  exact of_decide_eq_true (List.all_eq_true.mp hall c h)

lemma escapeChars_cons (c : Char) (cs : List Char) : escapeChars (c :: cs)
    = if c ∈ metaCharacters then '\\' :: c :: escapeChars cs else c :: escapeChars cs := by
  rw [escapeChars, List.flatMap_cons, List.contains_eq_mem]
  by_cases h : c ∈ metaCharacters
  · simp [h, escapeChars]
  · simp [h, escapeChars]

lemma item_of_notMem {c : Char} (h : c ∉ metaCharacters) (fuel : Nat) (rest : List Char) :
    item (fuel + 1) (c :: rest) = some (.char c, rest) := by
  simp only [metaCharacters, List.mem_cons, not_or] at h
  rw [item.eq_def]
  split <;> simp_all

/-- No escaped text begins with a repetition. -/
lemma repetition?_escapeChars (cs : List Char) : repetition? (escapeChars cs) = none := by
  cases cs with
  | nil => rfl
  | cons c cs =>
      rw [escapeChars_cons]
      split
      case isTrue => rfl
      case isFalse h =>
          simp only [metaCharacters, List.mem_cons, not_or] at h
          rw [repetition?.eq_def]
          split <;> simp_all

/-- The first item of an escaped text is its first character. -/
lemma item_escapeChars (c : Char) (cs : List Char) (fuel : Nat) :
    item (fuel + 1) (escapeChars (c :: cs)) = some (.char c, escapeChars cs) := by
  rw [escapeChars_cons]
  split
  case isTrue h =>
      rw [item, escaped?_of_mem h]
      rfl
  case isFalse h => exact item_of_notMem h fuel (escapeChars cs)

/-- An escaped text goes on with an item: it begins with no bar and no parenthesis. -/
lemma items_escapeChars_cons (c : Char) (cs : List Char) (fuel : Nat) :
    items (fuel + 1) (escapeChars (c :: cs)) = (do
      let (first, rest) ← item fuel (escapeChars (c :: cs))
      let (first, rest) ← repetitions (rest.length + 1) first rest
      let (more, rest) ← items fuel rest
      return (first :: more, rest)) := by
  rw [escapeChars_cons]
  split
  case isTrue => rfl
  case isFalse h =>
      simp only [metaCharacters, List.mem_cons, not_or] at h
      rw [items.eq_def]
      split <;> simp_all

lemma items_escapeChars (cs : List Char) {fuel : Nat} (h : cs.length + 2 ≤ fuel) :
    items fuel (escapeChars cs) = some (cs.map Pattern.char, []) := by
  induction cs generalizing fuel with
  | nil =>
      obtain ⟨n, rfl⟩ : ∃ n, fuel = n + 2 := ⟨fuel - 2, (Nat.sub_add_cancel h).symm⟩
      rfl
  | cons c cs ih =>
      rw [List.length_cons] at h
      obtain ⟨n, rfl⟩ : ∃ n, fuel = n + 2 := ⟨fuel - 2, by omega⟩
      have hmore : items (n + 1) (escapeChars cs) = some (cs.map Pattern.char, []) :=
        ih (by omega)
      have hrepeated : repetitions ((escapeChars cs).length + 1) (.char c) (escapeChars cs)
          = some (.char c, escapeChars cs) := by
        rw [repetitions, repetition?_escapeChars]
      rw [items_escapeChars_cons, item_escapeChars]
      simp only [Option.bind_eq_bind, Option.bind_some, hrepeated, hmore]
      rfl

lemma length_le_escapeChars (cs : List Char) : cs.length ≤ (escapeChars cs).length := by
  induction cs with
  | nil => exact Nat.le_refl _
  | cons c cs ih =>
      rw [escapeChars_cons]
      split <;> simp only [List.length_cons] <;> omega

end Parser

/-- A row of characters is hardly nested. -/
lemma nesting_literal (cs : List Char) :
    (literal cs).nesting ≤ 1 ∧ ((literal cs).isSeq = false → (literal cs).nesting = 0) := by
  induction cs with
  | nil => exact ⟨Nat.zero_le 1, fun _ => rfl⟩
  | cons c cs ih =>
      cases cs with
      | nil => exact ⟨Nat.zero_le 1, fun _ => rfl⟩
      | cons c' cs =>
          refine ⟨?_, fun h => Bool.noConfusion h⟩
          show max ((char c).nesting + 1) (if (literal (c' :: cs)).isSeq
            then (literal (c' :: cs)).nesting else (literal (c' :: cs)).nesting + 1) ≤ 1
          refine Nat.max_le.mpr ⟨Nat.le_refl 1, ?_⟩
          split
          case isTrue => exact ih.1
          case isFalse hseq => rw [ih.2 (Bool.eq_false_iff.mpr hseq)]

/-- **An escaped text is read as the row of its characters.** -/
theorem parse?_escape (w : String) : parse? (escape w) = some (literal w.toList) := by
  have hlength := Parser.length_le_escapeChars w.toList
  have hread : Parser.alternatives (3 * (escapeChars w.toList).length + 3)
      (escapeChars w.toList) = some (literal w.toList, []) := by
    rw [Parser.alternatives, Parser.items_escapeChars w.toList (by omega)]
    rfl
  have hnesting : (literal w.toList).nesting ≤ maxNesting :=
    Nat.le_trans (nesting_literal w.toList).1 (by decide)
  simp only [parse?, escape, String.toList_ofList, hread, if_pos hnesting]

/-! ## Matching a row of characters -/

/-- A place is among those that are marked. -/
def Marked (places : List Bool) (i : Nat) : Prop := places[i]? = some true

/-- A character leads one place on, where the text has one with its folding. -/
lemma marked_reach_char {text : List Char} {places : List Bool} {c : Char} {j : Nat} :
    Marked (reach text (char c) places) j
      ↔ ∃ i x, j = i + 1 ∧ Marked places i ∧ text[i]? = some x
        ∧ CaseFold.fold c = CaseFold.fold x := by
  cases j with
  | zero => simp [Marked, reach, char]
  | succ i =>
      simp only [Marked, reach, char, List.getElem?_cons_succ, List.getElem?_zipWith_eq_some,
        Bool.and_eq_true]
      constructor
      · rintro ⟨x, here, hx, hhere, rfl, hfold⟩
        exact ⟨i, x, rfl, hhere, hx, CharSet.holds_char_iff.mp hfold⟩
      · rintro ⟨_, x, hi, hhere, hx, hfold⟩
        obtain rfl := Nat.succ.inj hi
        exact ⟨x, true, hx, hhere, rfl, CharSet.holds_char_iff.mpr hfold⟩

lemma reach_literal_cons (text : List Char) (places : List Bool) (c : Char) (cs : List Char) :
    reach text (literal (c :: cs)) places = reach text (literal cs) (reach text (char c) places) := by
  cases cs with
  | nil => rfl
  | cons c' cs => rfl

/-- A row begins at a place if its first character stands there, and the others behind it. -/
lemma cons_prefix_drop_iff {c : Char} {cs text : List Char} {i : Nat} :
    (c :: cs).map CaseFold.fold <+: (text.drop i).map CaseFold.fold
      ↔ ∃ x, text[i]? = some x ∧ CaseFold.fold c = CaseFold.fold x
        ∧ cs.map CaseFold.fold <+: (text.drop (i + 1)).map CaseFold.fold := by
  cases hx : text[i]? with
  | none =>
      have hlength : text.length ≤ i := List.getElem?_eq_none_iff.mp hx
      simp [List.drop_eq_nil_of_le hlength]
  | some x =>
      obtain ⟨hlength, rfl⟩ := List.getElem?_eq_some_iff.mp hx
      rw [List.drop_eq_getElem_cons hlength, List.map_cons, List.map_cons, List.cons_prefix_cons]
      simp

/-- A row of characters leads from where it stands to its end. -/
lemma marked_reach_literal {text : List Char} {places : List Bool} {cs : List Char} {j : Nat} :
    Marked (reach text (literal cs) places) j
      ↔ ∃ i, j = i + cs.length ∧ Marked places i
        ∧ cs.map CaseFold.fold <+: (text.drop i).map CaseFold.fold := by
  induction cs generalizing places with
  | nil => simp [literal, sequence, reach]
  | cons c cs ih =>
      rw [reach_literal_cons, ih]
      simp only [marked_reach_char, cons_prefix_drop_iff, List.length_cons]
      constructor
      · rintro ⟨_, rfl, ⟨i, x, rfl, hhere, hx, hfold⟩, hrest⟩
        exact ⟨i, by omega, hhere, x, hx, hfold, hrest⟩
      · rintro ⟨i, rfl, hhere, x, hx, hfold, hrest⟩
        exact ⟨i + 1, by omega, ⟨i, x, rfl, hhere, hx, hfold⟩, hrest⟩

lemma marked_everywhere {text : List Char} {i : Nat} :
    Marked (everywhere text) i ↔ i ≤ text.length := by
  rw [Marked, everywhere, List.getElem?_replicate, ← Nat.lt_succ_iff]
  split <;> simp [*]

/-- A word occurs in a text, letter case aside. -/
def Occurs (word text : String) : Prop :=
  word.toList.map CaseFold.fold <:+: text.toList.map CaseFold.fold

instance (word text : String) : Decidable (Occurs word text) :=
  inferInstanceAs (Decidable (List.IsInfix _ _))

/-- **A row of characters matches where it occurs.** -/
theorem isMatch_literal {word text : String} :
    (literal word.toList).isMatch text = true ↔ Occurs word text := by
  have hmarked : (literal word.toList).isMatch text = true
      ↔ ∃ j, Marked (reach text.toList (literal word.toList) (everywhere text.toList)) j := by
    rw [isMatch, List.any_eq_true]
    simp [Marked, List.mem_iff_getElem?]
  rw [hmarked, Occurs, List.infix_iff_prefix_suffix]
  simp only [marked_reach_literal, marked_everywhere]
  constructor
  · rintro ⟨_, i, -, -, hprefix⟩
    rw [List.map_drop] at hprefix
    exact ⟨_, hprefix, List.drop_suffix i _⟩
  · rintro ⟨t, hprefix, hsuffix⟩
    rw [List.suffix_iff_eq_drop.mp hsuffix, ← List.map_drop] at hprefix
    exact ⟨_, _, rfl, by simp, hprefix⟩

end FleetLedger.Pattern
