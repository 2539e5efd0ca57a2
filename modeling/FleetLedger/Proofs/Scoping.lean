import FleetLedger.Proofs.Documents
import FleetLedger.Proofs.Reading

/-!
# What a scope selects

A filter is put to use in two ways: it is evaluated on documents, and it is said to a database.
**`scope_selects`**: both come to the same.  The database reads the text of a scope, and the value of
what it reads is true in just those rows of the collection that hold a document of the filter; in the
rows of other collections it is false, whatever the filter is.

The database has a third truth value, which comes from missing fields.  It means that the filter does
not hold (`Says`): conjunctions and disjunctions keep to that, and the only negation is one of
something that always has a truth value.
-/

namespace FleetLedger

/-! ## Filters that mean the same everywhere -/

namespace Filter

mutual

/-- Nothing in a filter depends on what a database does with patterns, floats and null in lists, and
its bounds are integers of the signed range. -/
def plain : Filter → Bool
  | all => true
  | eq _ v => v.floatFree
  | isIn _ vs => vs.all fun v => v.floatFree && !v.same .null
  | gte _ b => b.signed?.isSome
  | lt _ b => b.signed?.isSome
  | lte _ b => b.signed?.isSome
  | has _ _ => true
  | like _ _ => false
  | and fs => plainAll fs
  | or fs => plainAll fs

/-- The same for several filters. -/
def plainAll : List Filter → Bool
  | [] => true
  | f :: fs => plain f && plainAll fs

end

mutual

/-- The fields that a filter compares with bounds. -/
def ranged : Filter → List String
  | gte name _ => [name]
  | lt name _ => [name]
  | lte name _ => [name]
  | and fs => rangedOf fs
  | or fs => rangedOf fs
  | _ => []

/-- The same for several filters. -/
def rangedOf : List Filter → List String
  | [] => []
  | f :: fs => ranged f ++ rangedOf fs

end

/-- A document without floats, in which the fields that the filter compares with bounds are integers
of the signed range, if they are there. -/
structure Fits (f : Filter) (d : Document) : Prop where
  floatFree : (Json.object d).floatFree = true
  ranged : ∀ name ∈ f.ranged, ∀ v, d.get? name = some v → v.signed?.isSome = true

/-- The parts of a plain junction are plain. -/
lemma plain_of_mem {fs : List Filter} (h : plainAll fs = true) {f : Filter} (hf : f ∈ fs) :
    f.plain = true := by
  induction fs with
  | nil => cases hf
  | cons g fs ih =>
      rw [plainAll, Bool.and_eq_true] at h
      rcases List.mem_cons.mp hf with rfl | hf
      · exact h.1
      · exact ih h.2 hf

lemma mem_rangedOf {fs : List Filter} {f : Filter} (hf : f ∈ fs) {name : String}
    (hname : name ∈ f.ranged) : name ∈ rangedOf fs := by
  induction fs with
  | nil => cases hf
  | cons g fs ih =>
      rw [rangedOf, List.mem_append]
      rcases List.mem_cons.mp hf with rfl | hf
      · exact .inl hname
      · exact .inr (ih hf)

/-- What fits several filters fits each of them. -/
lemma fits_of_mem {fs : List Filter} {d : Document} (hfloats : (Json.object d).floatFree = true)
    (h : ∀ name ∈ rangedOf fs, ∀ v, d.get? name = some v → v.signed?.isSome = true) {f : Filter}
    (hf : f ∈ fs) : f.Fits d :=
  ⟨hfloats, fun name hname => h name (mem_rangedOf hf hname)⟩

end Filter

lemma Json.floatFree_get? {d : Document} (h : (Json.object d).floatFree = true) {name : String}
    {v : Json} (hv : d.get? name = some v) : v.floatFree = true := by
  rw [floatFree] at h
  induction d with
  | nil => cases hv
  | cons entry d ih =>
      obtain ⟨k, w⟩ := entry
      rw [fieldsFloatFree, Bool.and_eq_true] at h
      rw [Table.get?] at hv
      split at hv
      · obtain rfl := Option.some.inj hv
        exact h.1
      · exact ih h.2 hv

lemma Json.floatFree_getOrNull {d : Document} (h : (Json.object d).floatFree = true)
    (name : String) : (d.getOrNull name).floatFree = true := by
  rw [Document.getOrNull]
  cases hget : d.get? name with
  | none => rfl
  | some v => exact floatFree_get? h hget

lemma Json.exists_int_of_signed? {v : Json} (h : v.signed?.isSome = true) :
    ∃ n, v = .int n ∧ leastInt ≤ n ∧ n ≤ greatestSigned := by
  cases v with
  | int n =>
      rw [signed?] at h
      split at h
      · exact ⟨n, rfl, ‹_›⟩
      · cases h
  | _ => cases h

namespace Sql

/-! ## Truth values -/

/-- The value of a condition says that something is true or that it is not: there is a truth value, or
there is none where it is not true. -/
inductive Says : Option Datum → Bool → Prop where
  | truth (b : Bool) : Says (some (.bool b)) b
  | unknown : Says (some .null) false

namespace Says

/-- Only `TRUE` says that something is true. -/
lemma eq_true_iff {o : Option Datum} {b : Bool} (h : Says o b) :
    ∃ d, o = some d ∧ (d = .bool true ↔ b = true) := by
  cases h with
  | truth => exact ⟨_, rfl, by simp⟩
  | unknown => exact ⟨_, rfl, by simp⟩

/-- **Both kinds of junctions keep to what their parts say.** -/
theorem junction (decisive : Bool) {o p : Option Datum} {a b : Bool} (ho : Says o a)
    (hp : Says p b) : Says (Datum.junction? decisive o p) (if a = decisive then a else b) := by
  cases ho with
  | truth a =>
      cases hp with
      | truth b => exact .truth _
      | unknown =>
          cases a <;> cases decisive
          · exact .truth false
          · exact .unknown
          · exact .unknown
          · exact .truth true
  | unknown =>
      cases hp with
      | truth b =>
          cases b <;> cases decisive
          · exact .truth false
          · exact .unknown
          · exact .unknown
          · exact .truth true
      | unknown => cases decisive <;> exact .unknown

lemma foldl_junction (decisive : Bool) {α : Type} {datum : α → Option Datum} {truth : α → Bool}
    {rest : List α} (hrest : ∀ a ∈ rest, Says (datum a) (truth a)) {o : Option Datum} {x : Bool}
    (h : Says o x) :
    Says (rest.foldl (fun o a => Datum.junction? decisive o (datum a)) o)
      (rest.foldl (fun x a => if x = decisive then x else truth a) x) := by
  induction rest generalizing o x with
  | nil => exact h
  | cons a rest ih =>
      exact ih (fun b hb => hrest b (List.mem_cons_of_mem a hb))
        (h.junction decisive (hrest a List.mem_cons_self))

end Says

lemma foldl_until_false {α : Type} (truth : α → Bool) (rest : List α) (x : Bool) :
    rest.foldl (fun x a => if x = false then x else truth a) x = (x && rest.all truth) := by
  induction rest generalizing x with
  | nil => simp
  | cons a rest ih =>
      rw [List.foldl_cons, ih]
      cases x <;> simp

lemma foldl_until_true {α : Type} (truth : α → Bool) (rest : List α) (x : Bool) :
    rest.foldl (fun x a => if x = true then x else truth a) x = (x || rest.any truth) := by
  induction rest generalizing x with
  | nil => simp
  | cons a rest ih =>
      rw [List.foldl_cons, ih]
      cases x <;> simp

/-! ## The values of expressions -/

variable {row : DocumentRow}

/-- What a row has in a field. -/
def fieldDatum (d : Document) (name : String) : Datum := ((d.get? name).map .jsonb).getD .null

lemma eval_foldl {op : Operator} {decisive : Bool}
    (hop : ∀ l r, (Expr.infixed op l r).eval row
      = Datum.junction? decisive (l.eval row) (r.eval row))
    (es : List Expr) (e : Expr) :
    (es.foldl (.infixed op) e).eval row
      = es.foldl (fun o e => Datum.junction? decisive o (e.eval row)) (e.eval row) := by
  induction es generalizing e with
  | nil => rfl
  | cons a es ih => rw [List.foldl_cons, List.foldl_cons, ih, hop]

/-- A junction says what its parts say. -/
lemma says_junctionExpr (op : Operator) (decisive : Bool) (empty : String)
    (hop : ∀ l r, (Expr.infixed op l r).eval row
      = Datum.junction? decisive (l.eval row) (r.eval row))
    (hempty : (Expr.name empty).eval row = some (.bool !decisive)) {α : Type} {tree : α → Expr}
    {truth : α → Bool} {parts : List α} (h : ∀ a ∈ parts, Says ((tree a).eval row) (truth a)) :
    Says ((junctionExpr op empty (parts.map tree)).eval row)
      (parts.foldl (fun x a => if x = decisive then x else truth a) !decisive) := by
  cases parts with
  | nil =>
      rw [List.map_nil, junctionExpr, hempty]
      exact .truth _
  | cons a rest =>
      have hgroup : (junctionExpr op empty ((a :: rest).map tree)).eval row
          = (((rest.map tree).foldl (.infixed op) (tree a))).eval row := rfl
      have hfirst : (if (!decisive) = decisive then !decisive else truth a) = truth a := by
        cases decisive <;> rfl
      rw [hgroup, eval_foldl hop, List.foldl_map, List.foldl_cons, hfirst]
      exact Says.foldl_junction decisive (fun b hb => h b (List.mem_cons_of_mem a hb))
        (h a List.mem_cons_self)

lemma values_items (vs : List Json) (e : Expr) :
    ((vs.map fun v => Expr.value (.jsonb v)).foldl (.infixed .comma) e).values row
      = e.values row ++ vs.map fun v => some (.jsonb v) := by
  induction vs generalizing e with
  | nil => exact (List.append_nil _).symm
  | cons v vs ih =>
      have hcomma : (Expr.infixed .comma e (.value (.jsonb v))).values row
          = e.values row ++ [some (.jsonb v)] := rfl
      rw [List.map_cons, List.foldl_cons, ih, hcomma, List.append_assoc]
      rfl

/-! ## What filters say -/

section Fields

variable (collection : String) (d : Document) (name : String)

/-- Comparing a field with a value says that they are alike, if the field is there. -/
lemma says_alike (v : Json) :
    Says (Expr.operate? .equal (some (fieldDatum d name)) (some (.jsonb v)))
      (d.contains name && (d.getOrNull name).alike v) := by
  rw [fieldDatum, Table.contains, Document.getOrNull]
  cases d.get? name with
  | none => exact .unknown
  | some w => exact .truth (w.alike v)

/-- An equality says that the field and the value are alike, where a missing field is like null. -/
lemma says_eqExpr (v : Json) :
    Says ((filterExpr (.eq name v)).eval ⟨collection, d⟩) ((d.getOrNull name).alike v) := by
  by_cases hv : v = .null
  · subst hv
    have hvalue : (nullExpr name).eval ⟨collection, d⟩
        = Datum.junction? true (some (.bool (fieldDatum d name).isNull))
          (Expr.operate? .equal (some (fieldDatum d name)) (some (.jsonb .null))) := rfl
    have hhalves := (Says.truth (fieldDatum d name).isNull).junction true (says_alike d name .null)
    rw [← hvalue] at hhalves
    have htruth : (if (fieldDatum d name).isNull = true then (fieldDatum d name).isNull
        else d.contains name && (d.getOrNull name).alike .null)
        = (d.getOrNull name).alike .null := by
      rw [fieldDatum, Table.contains, Document.getOrNull]
      cases d.get? name <;> rfl
    exact htruth ▸ hhalves
  · have hexpr : filterExpr (.eq name v) = comparisonExpr name .equal v := by
      cases v with
      | null => exact absurd rfl hv
      | _ => rfl
    have htruth : (d.contains name && (d.getOrNull name).alike v) = (d.getOrNull name).alike v := by
      rw [Table.contains, Document.getOrNull]
      cases d.get? name with
      | none => exact (Bool.eq_false_iff.mpr fun h => hv ((Json.null_alike v).mp h)).symm
      | some w => rfl
    rw [hexpr, ← htruth]
    exact says_alike d name v

/-- A list says that the field is there and like one of the values. -/
lemma says_listed (vs : List Json) :
    Says ((filterExpr (.isIn name vs)).eval ⟨collection, d⟩)
      (d.contains name && vs.any (d.getOrNull name).alike) := by
  cases vs with
  | nil =>
      rw [List.any_nil, Bool.and_false]
      exact .truth false
  | cons v vs =>
      have hitems : (filterExpr (.isIn name (v :: vs))).eval ⟨collection, d⟩
          = Expr.among (some (fieldDatum d name)) ((v :: vs).map fun v => some (.jsonb v)) :=
        congrArg (Expr.among _) (values_items vs (.value (.jsonb v)))
      have hany := Says.foldl_junction true
        (fun w (_ : w ∈ v :: vs) => says_alike d name w) (.truth false)
      rw [foldl_until_true] at hany
      have htruth : ((v :: vs).any fun w => d.contains name && (d.getOrNull name).alike w)
          = (d.contains name && (v :: vs).any (d.getOrNull name).alike) := by
        cases d.contains name <;> simp
      rw [hitems, Expr.among, List.foldl_map, ← htruth]
      exact hany

variable {d name} in
/-- Whether a field is within a bound is left open if the field is missing. -/
lemma says_ordered {bound : Json} (hbound : bound.signed?.isSome = true)
    (hfield : ∀ v, d.get? name = some v → v.signed?.isSome = true) (allowed : Ordering → Bool) :
    Says (Datum.strict? (Datum.ordered? allowed) (fieldDatum d name) (.jsonb bound))
      (Filter.within d name bound allowed) := by
  obtain ⟨n, rfl, hn⟩ := Json.exists_int_of_signed? hbound
  cases hget : d.get? name with
  | none =>
      rw [Filter.within, fieldDatum, hget]
      exact .unknown
  | some v =>
      obtain ⟨m, rfl, hm⟩ := Json.exists_int_of_signed? (hfield v hget)
      rw [Filter.within, fieldDatum, hget]
      simp only [Json.order?_int hm hn]
      exact .truth _

end Fields

lemma says_and {fs : List Filter}
    (h : ∀ f ∈ fs, Says ((filterExpr f).eval row) (f.holds row.doc)) :
    Says ((filterExpr (.and fs)).eval row) ((Filter.and fs).holds row.doc) := by
  have hall := says_junctionExpr .and false "TRUE" (fun _ _ => rfl) rfl h
  rw [foldl_until_false] at hall
  rw [filterExpr, filterExprs_eq, Filter.holds_and]
  exact hall

lemma says_or {fs : List Filter}
    (h : ∀ f ∈ fs, Says ((filterExpr f).eval row) (f.holds row.doc)) :
    Says ((filterExpr (.or fs)).eval row) ((Filter.or fs).holds row.doc) := by
  have hany := says_junctionExpr .or true "FALSE" (fun _ _ => rfl) rfl h
  rw [foldl_until_true] at hany
  rw [filterExpr, filterExprs_eq, Filter.holds_or]
  exact hany

/-- A plain list of alternatives holds only where the field is there, for null is not one of them. -/
lemma holds_isIn_of_plain {d : Document} (hd : (Json.object d).floatFree = true) {name : String}
    {vs : List Json} (hvs : (Filter.isIn name vs).plain = true) :
    (Filter.isIn name vs).holds d = (d.contains name && vs.any (d.getOrNull name).alike) := by
  have heach : ∀ v ∈ vs, v.same (d.getOrNull name)
      = (d.contains name && (d.getOrNull name).alike v) := by
    intro v hv
    have hplain := List.all_eq_true.mp hvs v hv
    rw [Bool.and_eq_true, Bool.not_eq_true'] at hplain
    rw [Document.getOrNull, Table.contains]
    cases hget : d.get? name with
    | none => exact hplain.2
    | some w =>
        rw [Json.same_comm]
        exact Json.same_eq_alike (Json.floatFree_get? hd hget) hplain.1
  rw [Bool.eq_iff_iff, Bool.and_eq_true, Filter.holds, List.any_eq_true, List.any_eq_true]
  constructor
  · rintro ⟨v, hv, hsame⟩
    rw [heach v hv, Bool.and_eq_true] at hsame
    exact ⟨hsame.1, v, hv, hsame.2⟩
  · rintro ⟨hthere, v, hv, halike⟩
    exact ⟨v, hv, (heach v hv).trans (by rw [hthere, halike, Bool.and_self])⟩

/-- **A plain filter says of a row what it says of the document**, if the document fits it. -/
theorem says_filterExpr (collection : String) {d : Document} (f : Filter) (hf : f.plain = true)
    (hfits : f.Fits d) : Says ((filterExpr f).eval ⟨collection, d⟩) (f.holds d) := by
  have hd := hfits.floatFree
  induction f using Filter.induction with
  | all => exact .truth true
  | eq name v =>
      have hholds : (Filter.eq name v).holds d = (d.getOrNull name).alike v :=
        Json.same_eq_alike (Json.floatFree_getOrNull hd name) hf
      rw [hholds]
      exact says_eqExpr collection d name v
  | isIn name vs =>
      rw [holds_isIn_of_plain hd hf]
      exact says_listed collection d name vs
  | gte name v => exact says_ordered hf (hfits.ranged name List.mem_cons_self) _
  | lt name v => exact says_ordered hf (hfits.ranged name List.mem_cons_self) _
  | lte name v => exact says_ordered hf (hfits.ranged name List.mem_cons_self) _
  | has name present =>
      cases present with
      | true =>
          rw [Filter.holds, beq_true]
          exact .truth (d.contains name)
      | false =>
          rw [Filter.holds, beq_false]
          exact .truth (!d.contains name)
  | like name pattern => cases hf
  | and fs ih =>
      exact says_and fun f hmem =>
        ih f hmem (Filter.plain_of_mem hf hmem) (Filter.fits_of_mem hd hfits.ranged hmem)
  | or fs ih =>
      exact says_or fun f hmem =>
        ih f hmem (Filter.plain_of_mem hf hmem) (Filter.fits_of_mem hd hfits.ranged hmem)

/-! ## What scopes select -/

lemma eval_scopeExpr (collection : String) (f : Filter) (row : DocumentRow) :
    (scopeExpr collection f).eval row
      = Datum.junction? false (some (.bool (row.collection == collection)))
        ((filterExpr f).eval row) := rfl

/-- A part that decides a junction decides it whatever the other part is. -/
lemma junction?_decisive (decisive : Bool) (o : Option Datum) :
    Datum.junction? decisive (some (.bool decisive)) o = some (.bool decisive) := by
  cases o with
  | none => simp [Datum.junction?]
  | some d => cases d <;> simp [Datum.junction?]

/-- **A scope selects the documents that the filter holds of, and no others.**  The database reads its
text to an expression, by the powers of its operators alone.  In the rows of other collections it is
false, for all filters.  In every row that a plain filter fits it has a value, and that is `TRUE` just
if the row is of the collection and the filter holds of its document. -/
theorem scope_selects (collection : String) (f : Filter) :
    ∃ e, Expr.ofStatement? (scopeText collection f) = some e
      ∧ (∀ row : DocumentRow, row.collection ≠ collection → e.eval row = some (.bool false))
      ∧ (f.plain = true → ∀ row : DocumentRow, f.Fits row.doc → ∃ d, e.eval row = some d
        ∧ (d = .bool true ↔ row.collection = collection ∧ f.holds row.doc = true)) := by
  refine ⟨scopeExpr collection f, ofStatement?_scopeText collection f, fun row hrow => ?_,
    fun hplain row hfits => ?_⟩
  · have hother : (row.collection == collection) = false := beq_eq_false_iff_ne.mpr hrow
    rw [eval_scopeExpr, hother]
    exact junction?_decisive false _
  · have hboth := (Says.truth (row.collection == collection)).junction false
      (says_filterExpr row.collection f hplain hfits)
    obtain ⟨d, hd, htrue⟩ := hboth.eq_true_iff
    refine ⟨d, (eval_scopeExpr collection f row).trans hd, htrue.trans ?_⟩
    cases hrow : row.collection == collection with
    | false => simp [beq_eq_false_iff_ne.mp hrow]
    | true => simp [beq_iff_eq.mp hrow]

/-- A filter with a quotation mark in a name, a disjunction, and fields that may be missing. -/
def windingFilter : Filter :=
  .and [.eq "it's" .null, .or [.gte "count" (.int 5), .isIn "tag" [.string "a", .string "b"]],
    .has "gone" false, .and []]

/-- Its scope selects a document in which most of the fields are missing. -/
theorem scope_selects_winding :
    windingFilter.plain = true ∧ windingFilter.Fits [("count", .int 9)]
      ∧ ∃ e, Expr.ofStatement? (scopeText "jobs" windingFilter) = some e
        ∧ e.eval ⟨"jobs", [("count", .int 9)]⟩ = some (.bool true)
        ∧ e.eval ⟨"nodes", [("count", .int 9)]⟩ = some (.bool false) := by
  have hfits : windingFilter.Fits [("count", .int 9)] := by
    refine ⟨rfl, fun name hname v hv => ?_⟩
    obtain rfl := List.mem_singleton.mp hname
    obtain rfl := Option.some.inj hv
    rfl
  obtain ⟨e, he, hother, hplain⟩ := scope_selects "jobs" windingFilter
  obtain ⟨d, hd, htrue⟩ := hplain rfl ⟨"jobs", [("count", .int 9)]⟩ hfits
  refine ⟨rfl, hfits, e, he, ?_, hother _ (by decide)⟩
  rw [hd, htrue.mpr ⟨rfl, rfl⟩]

end Sql

end FleetLedger
