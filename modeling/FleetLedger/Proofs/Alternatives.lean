import FleetLedger.Proofs.Scoping

/-!
# Lists of alternatives

That a field is one of several values can be asked in one filter with a list of them, or in a disjunction
of equalities.  On documents in memory these are one and the same.

The texts for a database are not.  An equality with null has two halves, since a missing field has no value
to be equal to anything; but in a list null is a value like any other.  **`isIn_selects_present`**: the list
selects what the disjunction selects, except for the documents without the field, which it never selects.
So the two differ just where null is an alternative and the field is missing (`null_listed`).
-/

namespace FleetLedger

/-- In memory a list of alternatives is a disjunction. -/
lemma Filter.holds_isIn (name : String) (vs : List Json) (d : Document) :
    (Filter.isIn name vs).holds d = (Filter.or (vs.map (Filter.eq name))).holds d := by
  have heach : (fun v : Json => v.same (d.getOrNull name))
      = fun v => (Filter.eq name v).holds d := funext fun v => Json.same_comm ..
  rw [Filter.holds_or, Filter.holds, heach, List.any_map]
  rfl

namespace Sql

lemma ofStatement?_filterText (f : Filter) :
    Expr.ofStatement? (filterText f) = some (filterExpr f) := by
  rw [Statement.ofStatement?_eq (spaced_filterText f)]
  exact (reads_filterText f).read?

/-- A disjunction of equalities says that the field is like one of the values. -/
lemma says_separate (collection : String) (d : Document) (name : String) (vs : List Json) :
    Says ((filterExpr (.or (vs.map (.eq name)))).eval ⟨collection, d⟩)
      (vs.any (d.getOrNull name).alike) := by
  have hany := says_junctionExpr .or true "FALSE" (fun _ _ => rfl) rfl
    (fun v (_ : v ∈ vs) => says_eqExpr collection d name v)
  rw [foldl_until_true] at hany
  rw [filterExpr, filterExprs_eq, List.map_map]
  exact hany

/-- **A list of alternatives selects the documents with the field** among those that the disjunction of
equalities selects.  In memory both hold of the same documents, for all values, null and floats included.
The texts of both are read to expressions that have a value in every row.  The list is true just if the
field is there and the disjunction is true; and in a row without the field the disjunction is true just if
null is an alternative. -/
theorem isIn_selects_present (name : String) (vs : List Json) :
    (∀ d, (Filter.isIn name vs).holds d = (Filter.or (vs.map (Filter.eq name))).holds d)
      ∧ ∃ listed separate, Expr.ofStatement? (filterText (.isIn name vs)) = some listed
        ∧ Expr.ofStatement? (filterText (.or (vs.map (.eq name)))) = some separate
        ∧ ∀ row : DocumentRow, ∃ x y, listed.eval row = some x ∧ separate.eval row = some y
          ∧ (x = .bool true ↔ row.doc.contains name = true ∧ y = .bool true)
          ∧ (row.doc.contains name = false → (y = .bool true ↔ .null ∈ vs)) := by
  refine ⟨Filter.holds_isIn name vs, _, _, ofStatement?_filterText _, ofStatement?_filterText _,
    fun row => ?_⟩
  obtain ⟨x, hx, hlisted⟩ := (says_listed row.collection row.doc name vs).eq_true_iff
  obtain ⟨y, hy, hseparate⟩ := (says_separate row.collection row.doc name vs).eq_true_iff
  refine ⟨x, y, hx, hy, ?_, fun hmissing => ?_⟩
  · rw [hlisted, hseparate, Bool.and_eq_true]
  · have hnull : row.doc.getOrNull name = .null := by
      rw [Table.contains, Option.isSome_eq_false_iff, Option.isNone_iff_eq_none] at hmissing
      rw [Document.getOrNull, hmissing]
      rfl
    rw [hseparate, hnull, List.any_eq_true]
    simp only [Json.null_alike]
    constructor
    · rintro ⟨v, hv, rfl⟩
      exact hv
    · exact fun h => ⟨.null, h, rfl⟩

/-- A list with null in it is not true of a document without the field, though the filter holds of it, and
the disjunction is true of it. -/
theorem null_listed :
    (Filter.isIn "cleanup" [.null]).holds [] = true
      ∧ ∃ listed separate, Expr.ofStatement? (filterText (.isIn "cleanup" [.null])) = some listed
        ∧ Expr.ofStatement? (filterText (.or [.eq "cleanup" .null])) = some separate
        ∧ listed.eval ⟨"jobwatch_job_log", []⟩ = some .null
        ∧ separate.eval ⟨"jobwatch_job_log", []⟩ = some (.bool true) :=
  ⟨rfl, _, _, ofStatement?_filterText _, ofStatement?_filterText _, rfl, rfl⟩

end Sql

end FleetLedger
