import Mathlib.Data.List.Infix
import FleetLedger.Proofs.Increments
import FleetLedger.Proofs.Numerals
import FleetLedger.Proofs.Reading
import FleetLedger.Store.Memory

/-!
# What the text of a change computes

An update is carried out in two ways: a store in memory applies it to a document, and a database is
told by a text what the new document is.  **`change_computes`**: the database reads the text to an
expression, and its value is the old document with the update laid over it at once (`updateExpr`,
`eval_updateExpr`).  So both ways agree on setting fields, and on counters just as far as
`overlaid_eq_apply_iff` says.  Where there is no document to change, both insert the same.
-/

namespace FleetLedger.Sql

open Statement
open FleetLedger.Sql.Expr (Reads Stands)

/-! ## The expression that is meant -/

/-- The column of documents under one of its names. -/
def columnExpr : String → Expr
  | "d.doc" => .infixed .member (.name "d") (.name "doc")
  | column => .name column

/-- What a counter counts in the old document. -/
def oldCountExpr (column field : String) : Expr :=
  .call "COALESCE" (.infixed .comma
    (.infixed .cast (.group (.infixed .fieldText (columnExpr column) (.literal field)))
      (.name "bigint"))
    (.name "0"))

/-- The new count of a counter. -/
def countExpr (column : String) (c : String × Int) : Expr :=
  .infixed .plus (oldCountExpr column c.1) (.value (.int8 c.2))

/-- Items, with the name of a counter and its new count behind them. -/
def nextCountExpr (column : String) (items : Expr) (c : String × Int) : Expr :=
  .infixed .comma (.infixed .comma items (.literal c.1)) (countExpr column c)

/-- The names of counters and their new counts, of which there is at least one. -/
def countsExpr (column : String) (c : String × Int) (rest : List (String × Int)) : Expr :=
  rest.foldl (nextCountExpr column) (.infixed .comma (.literal c.1) (countExpr column c))

/-- **The expression that is meant** by the text of the change that an update makes. -/
def updateExpr (column : String) : Update → Expr
  | .set fields => .infixed .concat (columnExpr column) (.value (.jsonb (.object fields)))
  | .inc [] => columnExpr column
  | .inc (c :: rest) =>
    .infixed .concat (columnExpr column) (.call "jsonb_build_object" (countsExpr column c rest))

/-! ## Its reading -/

lemma column_cases {P : String → Prop} {column : String} (h : column ∈ documentColumns)
    (alone : P "doc") (ofRow : P "d.doc") : P column := by
  simp only [documentColumns, List.mem_cons, List.not_mem_nil, or_false] at h
  rcases h with rfl | rfl
  · exact alone
  · exact ofRow

section Reading

variable {column : String} (hcolumn : column ∈ documentColumns)
include hcolumn

/-- The words that begin with the column begin with its tokens. -/
lemma pieceSymbols_column :
    pieceSymbols (.word (column ++ " || "))
        = pieceSymbols (.word column) ++ [.token (.sign "||")]
      ∧ pieceSymbols (.word (column ++ " || jsonb_build_object("))
        = pieceSymbols (.word column) ++ [.token (.sign "||"),
          .token (.word "jsonb_build_object"), .token (.mark '(')] := by
  have htokens : wordTokens (column ++ " || ") = wordTokens column ++ [.sign "||"]
      ∧ wordTokens (column ++ " || jsonb_build_object(")
        = wordTokens column ++ [.sign "||", .word "jsonb_build_object", .mark '('] := by
    revert column
    decide +kernel
  simp only [pieceSymbols, htokens, List.map_append, List.map_cons, List.map_nil, and_self]

lemma reads_column (loose : Nat) (hloose : loose < Operator.member.power) :
    Reads loose loose (pieceSymbols (.word column)) (columnExpr column) := by
  have hdoc : Stands [.token (.word "doc")] (.name "doc") := fun _ _ => rfl
  have hrow : Stands [.token (.word "d")] (.name "d") := fun _ _ => rfl
  exact column_cases (P := fun c => Reads loose loose (pieceSymbols (.word c)) (columnExpr c)) hcolumn
    (hdoc.reads _ _) (hrow.infixed (t := .mark '.') rfl hloose (hdoc.reads _ _))

/-- The text for what a counter counts in the old document is one operand. -/
lemma stands_oldCount (field : String) :
    Stands (symbols [.word ("COALESCE((" ++ column ++ " ->> "), .literal field,
      .word ")::bigint, 0)"]) (oldCountExpr column field) :=
  column_cases (P := fun c => Stands (symbols [.word ("COALESCE((" ++ c ++ " ->> "), .literal field,
    .word ")::bigint, 0)"]) (oldCountExpr c field)) hcolumn (fun _ _ => rfl) (fun _ _ => rfl)

/-- A counter is named, and its new count follows. -/
lemma reads_count (c : String × Int) :
    ∃ xs, (Change.countPieces column c).symbols
        = .token (.literal c.1) :: .token (.mark ',') :: xs
      ∧ Reads Operator.comma.power Operator.comma.power xs (countExpr column c) := by
  have hsymbols : (Change.countPieces column c).symbols
      = .token (.literal c.1) :: .token (.mark ',') ::
        (symbols [.word ("COALESCE((" ++ column ++ " ->> "), .literal c.1, .word ")::bigint, 0)"]
          ++ [.token (.sign "+"), .value (.int8 c.2)]) :=
    column_cases (P := fun name => (Change.countPieces name c).symbols
      = .token (.literal c.1) :: .token (.mark ',') ::
        (symbols [.word ("COALESCE((" ++ name ++ " ->> "), .literal c.1, .word ")::bigint, 0)"]
          ++ [.token (.sign "+"), .value (.int8 c.2)])) hcolumn rfl rfl
  exact ⟨_, hsymbols, (stands_oldCount hcolumn c.1).infixed (t := .sign "+") rfl (by decide)
    ((stands_value (.int8 c.2)).reads _ _)⟩

/-- Each counter is read with what stands before it. -/
lemma reads_counts (rest : List (String × Int)) {xs : List Symbol} {e : Expr}
    (h : Reads 0 Operator.comma.power xs e) :
    Reads 0 Operator.comma.power
      (xs ++ rest.flatMap fun c => .token (.mark ',') :: (Change.countPieces column c).symbols)
      (rest.foldl (nextCountExpr column) e) := by
  induction rest generalizing xs e with
  | nil => simpa using h
  | cons c rest ih =>
      obtain ⟨ys, hsymbols, hcount⟩ := reads_count hcolumn c
      have hnamed := Reads.infixed (t := .mark ',') rfl (by decide) h
        ((stands_literal c.1).reads _ _)
      have hnext := Reads.infixed (t := .mark ',') rfl (by decide) hnamed hcount
      have hall := ih hnext
      rw [List.append_assoc, List.append_assoc] at hall
      rw [List.flatMap_cons, hsymbols]
      exact hall

lemma reads_build (c : String × Int) (rest : List (String × Int)) :
    Stands (.token (.word "jsonb_build_object") :: .token (.mark '(') ::
        ((separatedBy ", " ((c :: rest).map (Change.countPieces column))).symbols
          ++ [.token (.mark ')')]))
      (.call "jsonb_build_object" (countsExpr column c rest)) := by
  obtain ⟨xs, hsymbols, hcount⟩ := reads_count hcolumn c
  have hfirst : Reads 0 Operator.comma.power (.token (.literal c.1) :: .token (.mark ',') :: xs)
      (.infixed .comma (.literal c.1) (countExpr column c)) :=
    Reads.infixed (t := .mark ',') rfl (by decide) ((stands_literal c.1).reads _ _) hcount
  rw [symbols_separatedBy (t := .mark ',') rfl, hsymbols]
  exact (reads_counts hcolumn rest hfirst).called fun _ _ => rfl

/-- **The text of a change is read as it is meant.** -/
theorem ofStatement?_ofUpdate (u : Update) :
    Expr.ofStatement? ((Change.ofUpdate u).pieces column) = some (updateExpr column u) := by
  rw [ofStatement?_eq (spaced_change hcolumn _)]
  obtain ⟨hmerged, hbuild⟩ := pieceSymbols_column hcolumn
  have hold := (reads_column hcolumn Operator.concat.power (by decide)).mono (Nat.zero_le _)
    (Nat.le_refl _)
  have hconcat : Operator.ofToken? (.sign "||") = some .concat := rfl
  cases u with
  | set fields =>
      have hsymbols : ((Change.ofUpdate (.set fields)).pieces column).symbols
          = pieceSymbols (.word column)
            ++ .token (.sign "||") :: [.value (.jsonb (.object fields))] :=
        (congrArg (· ++ _) hmerged).trans (List.append_assoc ..)
      rw [hsymbols]
      exact (Reads.infixed hconcat (by decide) hold ((stands_value _).reads _ _)).read?
  | inc deltas =>
      cases deltas with
      | nil =>
          have hsymbols : ((Change.ofUpdate (.inc [])).pieces column).symbols
              = pieceSymbols (.word column) := List.append_nil _
          rw [hsymbols]
          exact hold.read?
      | cons c rest =>
          have hsymbols : ((Change.ofUpdate (.inc (c :: rest))).pieces column).symbols
              = pieceSymbols (.word column) ++ .token (.sign "||") ::
                (.token (.word "jsonb_build_object") :: .token (.mark '(') ::
                  ((separatedBy ", " ((c :: rest).map (Change.countPieces column))).symbols
                    ++ [.token (.mark ')')])) := by
            have hrest := symbols_append
              (separatedBy ", " ((c :: rest).map (Change.countPieces column))) [.word ")"]
            exact (congrArg₂ (· ++ ·) hbuild hrest).trans (List.append_assoc ..)
          rw [hsymbols]
          exact (Reads.infixed hconcat (by decide) hold
            ((reads_build hcolumn c rest).reads _ _)).read?

end Reading

/-! ## Its value -/

lemma fields?_counts (deltas : List (String × Int)) (count : String × Int → Int) :
    Datum.fields? (deltas.flatMap fun c => [some (.text c.1), some (.int8 (count c))])
      = some (deltas.map fun c => (c.1, .int (count c))) := by
  induction deltas with
  | nil => rfl
  | cons c rest ih =>
      rw [List.flatMap_cons]
      exact congrArg (Option.map ((c.1, Json.int (count c)) :: ·)) ih

section Value

variable {column : String} (hcolumn : column ∈ documentColumns) (collection : String)
  {d : Document}
include hcolumn

lemma values_columnExpr :
    (columnExpr column).values ⟨collection, d⟩ = [some (.jsonb (.object d))] :=
  column_cases (P := fun c => (columnExpr c).values ⟨collection, d⟩ = [some (.jsonb (.object d))])
    hcolumn rfl rfl

/-- **A counter counts from zero** where there is none. -/
theorem values_oldCountExpr {field : String} (h : Update.IsCounter d field) :
    (oldCountExpr column field).values ⟨collection, d⟩
      = [some (.int8 (Update.count d field))] := by
  have hvalues : (oldCountExpr column field).values ⟨collection, d⟩
      = [Datum.first? [(Datum.fieldText? (.jsonb (.object d)) (.text field)).bind Datum.castInt8?,
          some (.int8 0)]] :=
    column_cases (P := fun c => (oldCountExpr c field).values ⟨collection, d⟩
      = [Datum.first? [(Datum.fieldText? (.jsonb (.object d)) (.text field)).bind Datum.castInt8?,
          some (.int8 0)]]) hcolumn rfl rfl
  rw [hvalues, Datum.fieldText?, Update.count]
  cases hget : d.get? field with
  | none => rfl
  | some v =>
      rcases h v hget with rfl | ⟨n, rfl, hn⟩
      · rfl
      · have hread : Numeral.read Json.leastInt Json.greatestSigned (toString n) = .ok n :=
          Numeral.read_toString hn.1 hn.2
        have hcast : Datum.castInt8? (.text (toString n)) = some (.int8 n) := by
          rw [Datum.castInt8?, hread]
          rfl
        have hfirst : Datum.first? [Datum.castInt8? (.text (toString n)), some (.int8 0)]
            = some (.int8 n) := by
          rw [hcast]
          rfl
        have hsigned : (Json.int n).signed? = some n := if_pos hn
        have hcount : ((some (Json.int n)).bind Json.signed?).getD 0 = n :=
          congrArg (Option.getD · 0) hsigned
        rw [hcount]
        exact congrArg (fun o => [o]) hfirst

lemma values_countExpr {c : String × Int} (h : Update.IsCounter d c.1)
    (hsum : Json.Signed (Update.count d c.1 + c.2)) :
    (countExpr column c).values ⟨collection, d⟩
      = [some (.int8 (Update.count d c.1 + c.2))] := by
  have hvalues : (countExpr column c).values ⟨collection, d⟩
      = [Expr.operate? .plus (Expr.single ((oldCountExpr column c.1).values ⟨collection, d⟩))
          (some (.int8 c.2))] := rfl
  have hadded : Datum.sum? (.int8 (Update.count d c.1)) (.int8 c.2)
      = some (.int8 (Update.count d c.1 + c.2)) := if_pos hsum
  rw [hvalues, values_oldCountExpr hcolumn collection h]
  exact congrArg (fun o => [o]) hadded

/-- The items of counters: names and new counts. -/
lemma values_counts {deltas : List (String × Int)}
    (h : ∀ c ∈ deltas, Update.IsCounter d c.1 ∧ Json.Signed (Update.count d c.1 + c.2)) (e : Expr) :
    (deltas.foldl (nextCountExpr column) e).values ⟨collection, d⟩
      = e.values ⟨collection, d⟩ ++ deltas.flatMap fun c =>
        [some (.text c.1), some (.int8 (Update.count d c.1 + c.2))] := by
  induction deltas generalizing e with
  | nil => exact (List.append_nil _).symm
  | cons c rest ih =>
      have hnext : (nextCountExpr column e c).values ⟨collection, d⟩
          = (e.values ⟨collection, d⟩ ++ [some (.text c.1)])
            ++ (countExpr column c).values ⟨collection, d⟩ := rfl
      obtain ⟨hcounter, hsum⟩ := h c List.mem_cons_self
      rw [List.foldl_cons, ih fun b hb => h b (List.mem_cons_of_mem c hb), hnext,
        values_countExpr hcolumn collection hcounter hsum, List.append_assoc, List.append_assoc]
      rfl

/-- The object that is built of counters has their new counts. -/
lemma values_build {c : String × Int} {rest : List (String × Int)}
    (h : ∀ b ∈ c :: rest,
      Update.IsCounter d b.1 ∧ Json.Signed (Update.count d b.1 + b.2)) :
    (Expr.call "jsonb_build_object" (countsExpr column c rest)).values ⟨collection, d⟩
      = [some (.jsonb (.object (Table.ofList
          ((c :: rest).map fun b => (b.1, .int (Update.count d b.1 + b.2))))))] := by
  obtain ⟨hcounter, hsum⟩ := h c List.mem_cons_self
  have hfirst : (Expr.infixed .comma (.literal c.1) (countExpr column c)).values ⟨collection, d⟩
      = some (.text c.1) :: (countExpr column c).values ⟨collection, d⟩ := rfl
  have hitems : (countsExpr column c rest).values ⟨collection, d⟩
      = (c :: rest).flatMap fun b =>
        [some (.text b.1), some (.int8 (Update.count d b.1 + b.2))] := by
    rw [countsExpr, values_counts hcolumn collection
      (fun b hb => h b (List.mem_cons_of_mem c hb)), hfirst,
      values_countExpr hcolumn collection hcounter hsum]
    rfl
  have hbuilt : (Expr.call "jsonb_build_object" (countsExpr column c rest)).values ⟨collection, d⟩
      = [(Datum.fields? ((countsExpr column c rest).values ⟨collection, d⟩)).map
          fun fields => .jsonb (.object (Table.ofList fields))] := rfl
  rw [hbuilt, hitems, fields?_counts]
  rfl

lemma eval_concat (hd : Table.Sorted d) {e : Expr} {new : Document}
    (he : e.values ⟨collection, d⟩ = [some (.jsonb (.object new))]) :
    (Expr.infixed .concat (columnExpr column) e).eval ⟨collection, d⟩
      = some (.jsonb (.object (d.merge new))) := by
  have hvalue : (Expr.infixed .concat (columnExpr column) e).eval ⟨collection, d⟩
      = Expr.operate? .concat (Expr.single ((columnExpr column).values ⟨collection, d⟩))
        (Expr.single (e.values ⟨collection, d⟩)) := rfl
  rw [hvalue, values_columnExpr hcolumn, he, ← hd.ofList_append]
  rfl

/-- **The database lays an update over the old document.** -/
theorem eval_updateExpr (hd : Table.Sorted d) {u : Update} (h : u.Fits d) :
    (updateExpr column u).eval ⟨collection, d⟩ = some (.jsonb (.object (u.overlaid d))) := by
  cases u with
  | set fields => exact eval_concat hcolumn collection hd rfl
  | inc deltas =>
      cases deltas with
      | nil => exact congrArg Expr.single (values_columnExpr hcolumn collection)
      | cons c rest =>
          rw [Update.overlaid, ← hd.merge_ofList]
          exact eval_concat hcolumn collection hd (values_build hcolumn collection fun b hb =>
            ⟨h.1 b.1 (List.mem_map_of_mem hb), (h.2 b.1).alone b.2 (Update.mem_addedTo hb)⟩)

end Value

/-! ## Both ways to carry out an update -/

lemma upsertRows_of_none {f : Filter} {docs : List Document}
    (h : ∀ d ∈ docs, f.holds d = false) (u : Update) :
    Memory.upsertRows f u docs = docs ++ [u.seed f] := by
  induction docs with
  | nil => rfl
  | cons d docs ih =>
      have hd : ¬ f.holds d = true := ne_true_of_eq_false (h d List.mem_cons_self)
      rw [Memory.upsertRows, if_neg hd, ih fun b hb => h b (List.mem_cons_of_mem d hb)]
      rfl

/-- The last value that is handed over for an upsert is the document to insert. -/
lemma getLast?_binds_upsertCommand (collection : String) (f : Filter) (u : Update) :
    (upsertCommand collection f u).binds.getLast? = some (.jsonb (.object (u.seed f))) := by
  rw [upsertCommand, binds_append, List.getLast?_append]
  rfl

/-- **A database computes what a store in memory does, just if the last delta of each counter
decides.**  Whatever the column of documents is called, the text of a change is read to an expression,
and the value of that is the old document with the update laid over it.  That is the document that the
update makes, just if all that is added to a counter but the last sums to nothing; of fields that are
set it always is.  Where the filter holds of no document, the statement hands over for insertion what
the store in memory adds. -/
theorem change_computes (collection : String) (u : Update) {d : Document} (hd : Table.Sorted d)
    (h : u.Fits d) :
    (∀ column ∈ documentColumns, ∃ e,
      Expr.ofStatement? ((Change.ofUpdate u).pieces column) = some e
        ∧ e.eval ⟨collection, d⟩ = some (.jsonb (.object (u.overlaid d))))
      ∧ (u.overlaid d = u.apply d ↔ u.LastDecides)
      ∧ ∀ f docs, (∀ d ∈ docs, f.holds d = false) →
        (upsertCommand collection f u).binds.getLast? = some (.jsonb (.object (u.seed f)))
          ∧ Memory.upsertRows f u docs = docs ++ [u.seed f] :=
  ⟨fun _ hcolumn => ⟨updateExpr _ u, ofStatement?_ofUpdate hcolumn u,
      eval_updateExpr hcolumn collection hd h⟩,
    Update.overlaid_eq_apply_iff hd h,
    fun f _ hnone => ⟨getLast?_binds_upsertCommand collection f u, upsertRows_of_none hnone u⟩⟩

/-- The tally of all executions, which has five of them and no failed one. -/
def fiveExecutions : Document := [("name", .string "job"), ("total", .int 5)]

/-- A failed execution is counted alike by both. -/
theorem change_computes_failedExecution :
    Table.Sorted fiveExecutions
      ∧ (Update.inc [("total", 1), ("failed", 1)]).Fits fiveExecutions
      ∧ ∃ e, Expr.ofStatement? ((Change.ofUpdate (.inc [("total", 1), ("failed", 1)])).pieces "d.doc")
          = some e
        ∧ e.eval ⟨"stat", fiveExecutions⟩ = some (.jsonb (.object
          [("failed", .int 1), ("name", .string "job"), ("total", .int 6)])) := by
  have hd : Table.Sorted fiveExecutions := Table.sorted_ofList fiveExecutions
  have hfits : (Update.inc [("total", 1), ("failed", 1)]).Fits fiveExecutions := by
    have htotal : Update.IsCounter fiveExecutions "total" := fun v hv =>
      .inr ⟨5, (Option.some.inj hv).symm, by decide⟩
    have hfailed : Update.IsCounter fiveExecutions "failed" := nofun
    refine Update.fits_of_nodup (by decide) fun c hc => ?_
    simp only [List.mem_cons, List.not_mem_nil, or_false] at hc
    rcases hc with rfl | rfl
    · exact ⟨htotal, by decide⟩
    · exact ⟨hfailed, by decide⟩
  obtain ⟨htext, hlast, -⟩ := change_computes "stat" _ hd hfits
  obtain ⟨e, hread, hvalue⟩ := htext "d.doc" (by decide)
  rw [hlast.mpr (Update.lastDecides_of_nodup (by decide))] at hvalue
  exact ⟨hd, hfits, e, hread, hvalue⟩

/-- A counter that is named twice grows once in a database, and twice in memory. -/
theorem counter_named_twice :
    (Update.inc [("total", 1), ("total", 1)]).Fits fiveExecutions
      ∧ (∃ e, Expr.ofStatement?
          ((Change.ofUpdate (.inc [("total", 1), ("total", 1)])).pieces "d.doc") = some e
        ∧ e.eval ⟨"stat", fiveExecutions⟩
          = some (.jsonb (.object [("name", .string "job"), ("total", .int 6)])))
      ∧ (Update.inc [("total", 1), ("total", 1)]).apply fiveExecutions
        = [("name", .string "job"), ("total", .int 7)] := by
  refine ⟨⟨fun field hfield => ?_, fun field => ?_⟩, ⟨_, ofStatement?_ofUpdate (by decide) _, rfl⟩,
    rfl⟩
  · simp only [List.map_cons, List.map_nil, List.mem_cons, List.not_mem_nil, or_self, or_false]
      at hfield
    subst hfield
    exact fun v hv => .inr ⟨5, (Option.some.inj hv).symm, by decide⟩
  · by_cases hfield : "total" = field
    · subst hfield
      refine ⟨fun before hbefore => ?_, by decide⟩
      have hall : ∀ before ∈ [1, 1].inits,
          Json.Signed (Update.count fiveExecutions "total" + before.sum) := by decide
      exact hall before ((List.mem_inits before _).mpr hbefore)
    · have hadded : Update.addedTo field [("total", 1), ("total", 1)] = [] := by
        simp [Update.addedTo, hfield]
      refine ⟨fun before hbefore => ?_, by simp [hadded]⟩
      rw [hadded, List.prefix_nil] at hbefore
      simpa [hbefore] using Update.signed_count fiveExecutions field

end FleetLedger.Sql
