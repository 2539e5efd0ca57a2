import Mathlib.Data.List.Basic
import FleetLedger.Proofs.Documents
import FleetLedger.Proofs.Lexing
import FleetLedger.Sql.Commands

/-!
# The texts of filters

What stands in a statement for a filter depends on the form of the filter, and of a junction on the
texts of its parts.  **`filterText_cases`** says how, and is an induction principle at once; nothing
else looks into the predicate of a filter.  From it follows that the pieces of such a text keep apart
(`spaced_filterText`), which texts and values stand in it (`places_filterText`), and that nothing else
of the filter shows but its form (`masked_filterText`).
-/

namespace FleetLedger

namespace Sql

open Statement

/-! ## The text of a filter, by its form -/

/-- The text of a filter. -/
def filterText (f : Filter) : Statement := (Predicate.ofFilter f).pieces

/-- A field of the document in a row. -/
def docField (name : String) : Statement := field Predicate.column name

/-- A filter compares a field with a value. -/
inductive Compares : Filter → String → Comparison → Json → Prop where
  | equal (name : String) {v : Json} (h : v ≠ .null) : Compares (.eq name v) name .equal v
  | atLeast (name : String) (v : Json) : Compares (.gte name v) name .atLeast v
  | less (name : String) (v : Json) : Compares (.lt name v) name .less v
  | atMost (name : String) (v : Json) : Compares (.lte name v) name .atMost v

/-- The parts of a junction, with a word between each two of them. -/
def junctionText (joiner empty : String) : List Statement → Statement
  | [] => [.word empty]
  | s :: rest => .word "(" :: separatedBy joiner (s :: rest) ++ [.word ")"]

/-- A field is missing or null. -/
def nullText (name : String) : Statement :=
  junctionText " OR " "FALSE"
    [docField name ++ [.word " IS NULL"],
      docField name ++ [.word " = ", .literal "null", .word "::jsonb"]]

/-- A comparison with a value. -/
def comparisonText (name : String) (c : Comparison) (v : Json) : Statement :=
  docField name ++ [.word (" " ++ c.sign ++ " "), .value (.jsonb v)]

/-- Values in a list. -/
def listText (vs : List Json) : Statement := separatedBy ", " (vs.map fun v => [.value (.jsonb v)])

/-- A field is one of some values. -/
def amongText (name : String) (vs : List Json) : Statement :=
  docField name ++ .word " IN (" :: (listText vs ++ [.word ")"])

/-- A document has a field. -/
def hasText (name : String) : Statement :=
  [.word "jsonb_exists(doc, ", .literal name, .word ")"]

lemma piecesOf_ofFilters (fs : List Filter) :
    Predicate.piecesOf (Predicate.ofFilters fs) = fs.map filterText := by
  induction fs with
  | nil => rfl
  | cons f fs ih => exact congrArg (filterText f :: ·) ih

lemma filterText_and (fs : List Filter) :
    filterText (.and fs) = junctionText " AND " "TRUE" (fs.map filterText) := by
  rw [← piecesOf_ofFilters]
  cases fs <;> rfl

lemma filterText_or (fs : List Filter) :
    filterText (.or fs) = junctionText " OR " "FALSE" (fs.map filterText) := by
  rw [← piecesOf_ofFilters]
  cases fs <;> rfl

/-- **The text of a filter** depends on its form, and on the texts of its parts. -/
theorem filterText_cases {P : Filter → Statement → Prop} (all : P .all [.word "TRUE"])
    (null : ∀ name, P (.eq name .null) (nullText name))
    (compare : ∀ {f name c v}, Compares f name c v → P f (comparisonText name c v))
    (none : ∀ name, P (.isIn name []) [.word "FALSE"])
    (among : ∀ name vs, vs ≠ [] →
      P (.isIn name vs) (amongText name vs))
    (has : ∀ name, P (.has name true) (hasText name))
    (hasNot : ∀ name, P (.has name false) (.word "NOT " :: hasText name))
    (like : ∀ name pattern, P (.like name pattern)
      [.word "(doc ->> ", .literal name, .word ")", .word " ~* ", .value (.text pattern)])
    (and : ∀ fs, (∀ f ∈ fs, P f (filterText f)) →
      P (.and fs) (junctionText " AND " "TRUE" (fs.map filterText)))
    (or : ∀ fs, (∀ f ∈ fs, P f (filterText f)) →
      P (.or fs) (junctionText " OR " "FALSE" (fs.map filterText)))
    (f : Filter) : P f (filterText f) := by
  induction f using Filter.induction with
  | all => exact all
  | eq name v =>
      by_cases hv : v = .null
      · subst hv
        exact null name
      · have htext : filterText (.eq name v) = comparisonText name .equal v := by
          cases v with
          | null => exact absurd rfl hv
          | _ => rfl
        rw [htext]
        exact compare (.equal name hv)
  | isIn name vs =>
      cases vs with
      | nil => exact none name
      | cons v vs => exact among name (v :: vs) (List.cons_ne_nil v vs)
  | gte name v => exact compare (.atLeast name v)
  | lt name v => exact compare (.less name v)
  | lte name v => exact compare (.atMost name v)
  | has name present =>
      cases present with
      | true => exact has name
      | false => exact hasNot name
  | like name pattern => exact like name pattern
  | and fs ih =>
      rw [filterText_and]
      exact and fs ih
  | or fs ih =>
      rw [filterText_or]
      exact or fs ih

/-! ## Its pieces keep apart -/

/-- The words that occur in many statements: no quote, no placeholder, and nothing open at their
ends. -/
lemma clean_closing : Clean true false ")" := clean (by decide +kernel)

lemma clean_comma : Clean true false ", " := clean (by decide +kernel)

lemma clean_opening : Clean false false "(" := clean (by decide +kernel)

lemma clean_and : Clean true false " AND " := clean (by decide +kernel)

/-- A field may stand where nothing is pending, and then anything may follow. -/
lemma spaced_docField {name : String} {s : Statement} (h : Spaced false s) :
    Spaced false (docField name ++ s) := by
  have hfield : docField name = [.word "(doc -> ", .literal name, .word ")"] := rfl
  have hopening : Clean false false "(doc -> " := clean (by decide +kernel)
  rw [hfield]
  exact .word hopening nofun (.literal (.word clean_closing (fun _ => rfl) h))

lemma spaced_junctionText {joiner empty : String} (hjoiner : Clean true false joiner)
    (hempty : Clean false true empty) {parts : List Statement}
    (h : ∀ s ∈ parts, Spaced false s) : Spaced false (junctionText joiner empty parts) := by
  cases parts with
  | nil => exact .word hempty nofun .nil
  | cons s rest =>
      have hparts := spaced_separatedBy hjoiner h
      exact .word clean_opening nofun (hparts.append (.word clean_closing (fun _ => rfl) .nil))

lemma clean_sign (c : Comparison) : Clean true false (" " ++ c.sign ++ " ") := by
  cases c with
  | equal => exact (clean (by decide +kernel) : Clean true false " = ")
  | atLeast => exact (clean (by decide +kernel) : Clean true false " >= ")
  | less => exact (clean (by decide +kernel) : Clean true false " < ")
  | atMost => exact (clean (by decide +kernel) : Clean true false " <= ")

lemma spaced_hasText (name : String) : Spaced false (hasText name) :=
  have hopening : Clean false false "jsonb_exists(doc, " := clean (by decide +kernel)
  .word hopening nofun (.literal (.word clean_closing (fun _ => rfl) .nil))

/-- A list keeps its values apart, each of which is handed over. -/
lemma spaced_listText (vs : List Json) : Spaced false (listText vs) := by
  refine spaced_separatedBy clean_comma fun s hs => ?_
  obtain ⟨v, -, rfl⟩ := List.mem_map.mp hs
  exact .value .nil

/-- **The pieces of the text of a filter keep apart.** -/
theorem spaced_filterText (f : Filter) : Spaced false (filterText f) := by
  have htrue : Clean false true "TRUE" := clean (by decide +kernel)
  have hfalse : Clean false true "FALSE" := clean (by decide +kernel)
  have hor : Clean true false " OR " := clean (by decide +kernel)
  apply filterText_cases (P := fun _ s => Spaced false s)
  case all => exact .word htrue nofun .nil
  case null =>
    intro name
    have hisNull : Clean true true " IS NULL" := clean (by decide +kernel)
    have hequal : Clean true false " = " := clean_sign .equal
    have hcast : Clean true true "::jsonb" := clean (by decide +kernel)
    refine spaced_junctionText hor hfalse fun s hs => ?_
    rcases List.mem_cons.mp hs with rfl | hs
    · exact spaced_docField (.word hisNull nofun .nil)
    · obtain rfl := List.mem_singleton.mp hs
      exact spaced_docField (.word hequal nofun (.literal (.word hcast (fun _ => rfl) .nil)))
  case compare => exact fun _ => spaced_docField (.word (clean_sign _) nofun (.value .nil))
  case none => exact fun _ => .word hfalse nofun .nil
  case among =>
    intro name vs _
    have hin : Clean true false " IN (" := clean (by decide +kernel)
    have hlist := (spaced_listText vs).append (.word clean_closing (fun _ => rfl) .nil)
    exact spaced_docField (.word hin nofun hlist)
  case has => exact spaced_hasText
  case hasNot =>
    intro name
    have hnot : Clean false false "NOT " := clean (by decide +kernel)
    exact .word hnot nofun (spaced_hasText name)
  case like =>
    intro name pattern
    have hopening : Clean false false "(doc ->> " := clean (by decide +kernel)
    have hmatches : Clean true false " ~* " := clean (by decide +kernel)
    exact .word hopening nofun (.literal (.word clean_closing (fun _ => rfl)
      (.word hmatches nofun (.value .nil))))
  case and =>
    intro fs hfs
    refine spaced_junctionText clean_and htrue fun s hs => ?_
    obtain ⟨f, hf, rfl⟩ := List.mem_map.mp hs
    exact hfs f hf
  case or =>
    intro fs hfs
    refine spaced_junctionText hor hfalse fun s hs => ?_
    obtain ⟨f, hf, rfl⟩ := List.mem_map.mp hs
    exact hfs f hf

/-! ## What stands in it -/

mutual

/-- The names, constants and values that stand in the text of a filter, from the left. -/
def filterPlaces : Filter → List Place
  | .all => []
  | .eq name .null => [.name name, .name name, .name "null"]
  | .eq name v => [.name name, .value (.jsonb v)]
  | .isIn _ [] => []
  | .isIn name vs => .name name :: vs.map fun v => .value (.jsonb v)
  | .gte name v => [.name name, .value (.jsonb v)]
  | .lt name v => [.name name, .value (.jsonb v)]
  | .lte name v => [.name name, .value (.jsonb v)]
  | .has name _ => [.name name]
  | .like name pattern => [.name name, .value (.text pattern)]
  | .and fs => filtersPlaces fs
  | .or fs => filtersPlaces fs

/-- The same for several filters. -/
def filtersPlaces : List Filter → List Place
  | [] => []
  | f :: fs => filterPlaces f ++ filtersPlaces fs

end

lemma filtersPlaces_eq (fs : List Filter) : filtersPlaces fs = fs.flatMap filterPlaces := by
  induction fs with
  | nil => rfl
  | cons f fs ih => rw [filtersPlaces, ih, List.flatMap_cons]

/-- In a junction there stands what stands in its filters, from the left. -/
lemma places_junctionText (joiner empty : String) (parts : List Statement) :
    (junctionText joiner empty parts).places = parts.flatMap places := by
  cases parts with
  | nil => rfl
  | cons s rest =>
      have hplaces : (junctionText joiner empty (s :: rest)).places
          = (separatedBy joiner (s :: rest)).places ++ [] := places_append _ [.word ")"]
      rw [hplaces, List.append_nil, places_separatedBy]

lemma places_listText (vs : List Json) :
    (listText vs).places = vs.map fun v => .value (.jsonb v) := by
  rw [listText, places_separatedBy, List.flatMap_map]
  exact List.map_eq_flatMap.symm

lemma places_filterTexts {fs : List Filter}
    (h : ∀ f ∈ fs, (filterText f).places = filterPlaces f) :
    (fs.map filterText).flatMap places = filtersPlaces fs := by
  rw [List.flatMap_map, filtersPlaces_eq]
  exact List.flatMap_congr h

/-- **What stands in the text of a filter** are its names and values, as they stand in it. -/
theorem places_filterText (f : Filter) : (filterText f).places = filterPlaces f := by
  apply filterText_cases (P := fun f s => s.places = filterPlaces f)
  case all => rfl
  case null => exact fun _ => rfl
  case compare =>
    intro f name c v h
    cases h with
    | @equal name v hv =>
        cases v with
        | null => exact absurd rfl hv
        | _ => rfl
    | _ => rfl
  case none => exact fun _ => rfl
  case among =>
    intro name vs hvs
    have hplaces : (amongText name vs).places = .name name :: ((listText vs).places ++ []) :=
      congrArg (Place.name name :: ·) (places_append (listText vs) [.word ")"])
    rw [hplaces, List.append_nil, places_listText]
    cases vs with
    | nil => exact absurd rfl hvs
    | cons v vs => rfl
  case has => exact fun _ => rfl
  case hasNot => exact fun _ => rfl
  case like => exact fun _ _ => rfl
  case and =>
    intro fs hfs
    rw [places_junctionText, places_filterTexts hfs, filterPlaces]
  case or =>
    intro fs hfs
    rw [places_junctionText, places_filterTexts hfs, filterPlaces]

/-! ## What does not show in it -/

mutual

/-- A filter without its values, except for the question whether a field is null, and with other
names. -/
def maskedFilter (rename : String → String) : Filter → Filter
  | .all => .all
  | .eq name .null => .eq (rename name) .null
  | .eq name _ => .eq (rename name) (.bool true)
  | .isIn name vs => .isIn (rename name) (vs.map fun _ => .null)
  | .gte name _ => .gte (rename name) .null
  | .lt name _ => .lt (rename name) .null
  | .lte name _ => .lte (rename name) .null
  | .has name present => .has (rename name) present
  | .like name _ => .like (rename name) ""
  | .and fs => .and (maskedFilters rename fs)
  | .or fs => .or (maskedFilters rename fs)

/-- The same for several filters. -/
def maskedFilters (rename : String → String) : List Filter → List Filter
  | [] => []
  | f :: fs => maskedFilter rename f :: maskedFilters rename fs

end

lemma maskedFilters_eq (rename : String → String) (fs : List Filter) :
    maskedFilters rename fs = fs.map (maskedFilter rename) := by
  induction fs with
  | nil => rfl
  | cons f fs ih => rw [maskedFilters, ih, List.map_cons]

lemma masked_junctionText (rename : String → String) (joiner empty : String)
    (parts : List Statement) :
    (junctionText joiner empty parts).masked rename
      = junctionText joiner empty (parts.map (masked rename)) := by
  cases parts with
  | nil => rfl
  | cons s rest =>
      have hmasked : (junctionText joiner empty (s :: rest)).masked rename
          = .word "(" :: (separatedBy joiner (s :: rest)).masked rename ++ [.word ")"] :=
        masked_append rename (.word "(" :: separatedBy joiner (s :: rest)) [.word ")"]
      rw [hmasked, masked_separatedBy]
      rfl

/-- Of a list only its length shows. -/
lemma masked_listText (rename : String → String) (vs : List Json) :
    (listText vs).masked rename = separatedBy ", " (vs.map fun _ => [.value (.text "")]) := by
  rw [listText, masked_separatedBy, List.map_map]
  rfl

section Masked

variable {rename : String → String} (hrename : ∀ name, rename (rename name) = rename name)
include hrename

lemma masked_docField (name : String) :
    (docField (rename name)).masked rename = (docField name).masked rename :=
  congrArg (fun name => [Piece.word "(doc -> ", .literal name, .word ")"]) (hrename name)

/-- Neither the field of a comparison shows, nor the value. -/
lemma masked_comparisonText (name : String) (c : Comparison) (v w : Json) :
    (comparisonText (rename name) c v).masked rename = (comparisonText name c w).masked rename := by
  rw [comparisonText, comparisonText, masked_append, masked_append, masked_docField hrename]
  rfl

lemma masked_hasText (name : String) :
    (hasText (rename name)).masked rename = (hasText name).masked rename :=
  congrArg (fun name => [Piece.word "jsonb_exists(doc, ", .literal name, .word ")"]) (hrename name)

/-- **Nothing of a filter shows in its text** but its form and its names: without its values it has
the same text, up to the names. -/
theorem masked_filterText (f : Filter) :
    (filterText (maskedFilter rename f)).masked rename = (filterText f).masked rename := by
  apply filterText_cases
    (P := fun f s => (filterText (maskedFilter rename f)).masked rename = s.masked rename)
  case all => rfl
  case null =>
    intro name
    have htext : filterText (maskedFilter rename (.eq name .null)) = nullText (rename name) := rfl
    rw [htext, nullText, nullText, masked_junctionText, masked_junctionText]
    simp only [List.map_cons, masked_append, masked_docField hrename]
  case compare =>
    intro f name c v h
    cases h with
    | @equal name v hv =>
        have hmasked : maskedFilter rename (.eq name v) = .eq (rename name) (.bool true) := by
          cases v with
          | null => exact absurd rfl hv
          | _ => rfl
        rw [hmasked]
        exact masked_comparisonText hrename name .equal (.bool true) v
    | atLeast name v => exact masked_comparisonText hrename name .atLeast .null v
    | less name v => exact masked_comparisonText hrename name .less .null v
    | atMost name v => exact masked_comparisonText hrename name .atMost .null v
  case none => exact fun _ => rfl
  case among =>
    intro name vs hvs
    have htext : filterText (maskedFilter rename (.isIn name vs))
        = amongText (rename name) (vs.map fun _ => .null) := by
      cases vs with
      | nil => exact absurd rfl hvs
      | cons v vs => rfl
    have hmasked : ∀ name vs, (amongText name vs).masked rename
        = (docField name).masked rename
          ++ .word " IN (" :: ((listText vs).masked rename ++ [.word ")"]) := fun name vs => by
      rw [amongText, masked_append]
      exact congrArg (fun rest => _ ++ Piece.word " IN (" :: rest) (masked_append ..)
    rw [htext, hmasked, hmasked, masked_docField hrename, masked_listText, masked_listText,
      List.map_map]
    rfl
  case has => exact masked_hasText hrename
  case hasNot => exact fun name => congrArg (Piece.word "NOT " :: ·) (masked_hasText hrename name)
  case like =>
    intro name pattern
    exact congrArg (fun name => [Piece.word "(doc ->> ", .literal name, .word ")", .word " ~* ",
      .value (.text "")]) (hrename name)
  case and =>
    intro fs hfs
    rw [maskedFilter, filterText_and, masked_junctionText, masked_junctionText, maskedFilters_eq,
      List.map_map, List.map_map, List.map_map]
    exact congrArg _ (List.map_congr_left hfs)
  case or =>
    intro fs hfs
    rw [maskedFilter, filterText_or, masked_junctionText, masked_junctionText, maskedFilters_eq,
      List.map_map, List.map_map, List.map_map]
    exact congrArg _ (List.map_congr_left hfs)

end Masked

end Sql

end FleetLedger
