import FleetLedger.Proofs.Statements
import FleetLedger.Sql.Evaluation

/-!
# The expressions of filters

The text of a filter puts junctions in parentheses and nothing else, and a scope puts no parentheses
around its filter at all.  **`ofStatement?_scopeText`**: the text of a scope is read as it is meant all
the same, a conjunction of a comparison of the collection and of the filter.

Two things make this an induction.  Values are put in the places of their placeholders at once
(`mapM_ofToken?`), so parts of a statement are read without regard to their numbers.  And `Reads` says
of a part how it is read behind anything that waits for an operand: what it leaves behind need not be
one operand yet, as in `NOT a` or in `a = b`, but comes to the same as one operand for whatever may
follow.  Its two bounds say what may wait and what may follow.
-/

namespace FleetLedger.Sql

open Statement

/-! ## The symbols of a statement -/

namespace Statement

/-- The symbols of a piece. -/
def pieceSymbols : Piece → List Symbol
  | .word text => (wordTokens text).map .token
  | .literal text => [.token (.literal text)]
  | .value bind => [.value bind]

/-- The symbols of a statement: its tokens, with the values in the places of their placeholders. -/
def symbols (s : Statement) : List Symbol := s.flatMap pieceSymbols

lemma symbols_append (s t : Statement) : (s ++ t).symbols = s.symbols ++ t.symbols :=
  List.flatMap_append

/-- Tokens of the language are symbols by themselves. -/
lemma mapM_plain (binds : List Bind) {tokens : List Token}
    (h : ∀ t ∈ tokens, isPlain t = true) :
    tokens.mapM (Symbol.ofToken? binds) = some (tokens.map .token) := by
  induction tokens with
  | nil => rfl
  | cons t tokens ih =>
      have ht : Symbol.ofToken? binds t = some (.token t) := by
        have hplain := h t List.mem_cons_self
        cases t with
        | literal text => cases hplain
        | parameter number => cases hplain
        | _ => rfl
      rw [List.mapM_cons, ht, ih fun t ht => h t (List.mem_cons_of_mem _ ht)]
      rfl

/-- **Each placeholder gets its own value**, wherever the statement stands. -/
theorem mapM_ofToken? {pending : Bool} {s : Statement} (h : Spaced pending s) (before : List Bind) :
    (tokensFrom (before.length + 1) s).mapM (Symbol.ofToken? (before ++ s.binds))
      = some s.symbols := by
  induction h generalizing before with
  | nil => rfl
  | @word pending opens holds text s h _ _ ih =>
      have hbinds : binds (.word text :: s) = s.binds := rfl
      rw [tokensFrom, List.mapM_append, mapM_plain _ h.plain, hbinds, ih before]
      rfl
  | @literal text s _ ih =>
      have hbinds : binds (.literal text :: s) = s.binds := rfl
      rw [tokensFrom, List.mapM_cons, hbinds, ih before]
      rfl
  | @value bind s _ ih =>
      have hbinds : before ++ binds (.value bind :: s) = (before ++ [bind]) ++ s.binds := by
        rw [List.append_assoc]
        rfl
      have hbind : Symbol.ofToken? ((before ++ [bind]) ++ s.binds) (.parameter (before.length + 1))
          = some (.value bind) := by
        simp [Symbol.ofToken?]
      have hnumber : before.length + 1 = (before ++ [bind]).length := by
        rw [List.length_append, List.length_singleton]
      rw [tokensFrom, List.mapM_cons, hbinds, hbind, hnumber, ih (before ++ [bind])]
      rfl

/-- **The symbols of a statement are read off its text.** -/
theorem symbolsOf_eq {s : Statement} (h : Spaced false s) :
    Symbol.ofStatement? s = some s.symbols := by
  rw [Symbol.ofStatement?, lex?_text h]
  exact mapM_ofToken? h []

lemma ofStatement?_eq {s : Statement} (h : Spaced false s) :
    Expr.ofStatement? s = Expr.read? s.symbols := by
  rw [Expr.ofStatement?, symbolsOf_eq h, Option.bind_some]

end Statement

namespace Expr

/-! ## Reading parts -/

/-- Where everything that waits binds less, nothing is completed. -/
lemma reduce_of_lt {power : Nat} {pending : List Half} (h : ∀ x ∈ pending, x.power < power)
    (e : Expr) : reduce power pending e = (pending, e) := by
  cases pending with
  | nil => rfl
  | cons x pending => rw [reduce, if_neg (Nat.not_le.mpr (h x List.mem_cons_self))]

/-- **Symbols are read to an expression** as an operand of whatever waits with a power of at most
`loose`: what they leave behind is completed to the expression by anything that binds no closer than
`tight`. -/
def Reads (loose tight : Nat) (symbols : List Symbol) (e : Expr) : Prop :=
  ∀ (level : Level) (outer : List Level), (∀ x ∈ level.pending, x.power ≤ loose) →
    ∃ pending last, symbols.foldlM Reader.step ⟨level, none, outer⟩
        = some ⟨⟨level.caller, pending⟩, some last, outer⟩
      ∧ ∀ power ≤ tight, reduce power pending last = reduce power level.pending e

/-- What may stand behind closer operators, and before looser ones, may stand behind and before
others. -/
lemma Reads.mono {loose tight looser tighter : Nat} {symbols : List Symbol} {e : Expr}
    (h : Reads loose tight symbols e) (hloose : looser ≤ loose) (htight : tighter ≤ tight) :
    Reads looser tighter symbols e := fun level outer hlevel => by
  obtain ⟨pending, last, hread, hreduce⟩ :=
    h level outer fun x hx => Nat.le_trans (hlevel x hx) hloose
  exact ⟨pending, last, hread, fun power hpower => hreduce power (Nat.le_trans hpower htight)⟩

/-- Symbols that are one operand. -/
def Stands (symbols : List Symbol) (e : Expr) : Prop :=
  ∀ (level : Level) (outer : List Level), symbols.foldlM Reader.step ⟨level, none, outer⟩
    = some ⟨level, some e, outer⟩

lemma Stands.reads {symbols : List Symbol} {e : Expr} (h : Stands symbols e)
    (loose tight : Nat) : Reads loose tight symbols e :=
  fun level outer _ => ⟨level.pending, e, h level outer, fun _ _ => rfl⟩

lemma foldlM_append {r next : Reader} {xs : List Symbol}
    (h : xs.foldlM Reader.step r = some next) (ys : List Symbol) :
    (xs ++ ys).foldlM Reader.step r = ys.foldlM Reader.step next := by
  rw [List.foldlM_append, h]
  rfl

lemma foldlM_cons {r next : Reader} {x : Symbol} (h : r.step x = some next) (ys : List Symbol) :
    (x :: ys).foldlM Reader.step r = ys.foldlM Reader.step next := by
  rw [List.foldlM_cons, h]
  rfl

/-- An operator takes as its operand what is before it and binds at least as close. -/
lemma step_operator {t : Token} {op : Operator} (h : Operator.ofToken? t = some op)
    (level : Level) (e : Expr) (outer : List Level) :
    Reader.step ⟨level, some e, outer⟩ (.token t)
      = some ⟨⟨level.caller, .infixed (reduce op.power level.pending e).2 op
          :: (reduce op.power level.pending e).1⟩, none, outer⟩ := by
  have hopening : t ≠ .mark '(' := fun ht => by
    rw [ht] at h
    cases h
  have hclosing : t ≠ .mark ')' := fun ht => by
    rw [ht] at h
    cases h
  -- No parenthesis is an operator, so the token is left to the last case.
  simp only [Reader.step, Reader.following.eq_def, h, Option.map_some]

/-- **An operator gets its last operand**, and what is left behind is completed with both. -/
theorem Reads.completed (half : Half) {ys : List Symbol} {e : Expr}
    (h : Reads half.power half.power ys e) {waiting : List Half}
    (hwaiting : ∀ x ∈ waiting, x.power ≤ half.power) (caller : Option String)
    (outer : List Level) :
    ∃ pending last, ys.foldlM Reader.step ⟨⟨caller, half :: waiting⟩, none, outer⟩
        = some ⟨⟨caller, pending⟩, some last, outer⟩
      ∧ ∀ power ≤ half.power,
        reduce power pending last = reduce power waiting (half.complete e) := by
  have hall : ∀ x ∈ half :: waiting, x.power ≤ half.power := by
    intro x hx
    rcases List.mem_cons.mp hx with rfl | hx
    · exact Nat.le_refl _
    · exact hwaiting x hx
  obtain ⟨pending, last, hread, hreduce⟩ := h ⟨caller, half :: waiting⟩ outer hall
  refine ⟨pending, last, hread, fun power hpower => ?_⟩
  rw [hreduce power hpower, reduce, if_pos hpower]

/-- **An operator between two operands** is read to the operator with both of them. -/
theorem Reads.infixed {loose : Nat} {t : Token} {op : Operator} {xs ys : List Symbol}
    {left right : Expr} (hop : Operator.ofToken? t = some op) (hloose : loose < op.power)
    (hleft : Reads loose op.power xs left) (hright : Reads op.power op.power ys right) :
    Reads loose op.power (xs ++ .token t :: ys) (.infixed op left right) := by
  intro level outer hlevel
  obtain ⟨pending, last, hread, hreduce⟩ := hleft level outer hlevel
  have hended : reduce op.power pending last = (level.pending, left) := by
    rw [hreduce op.power (Nat.le_refl _),
      reduce_of_lt fun x hx => Nat.lt_of_le_of_lt (hlevel x hx) hloose]
  have hstep := step_operator hop ⟨level.caller, pending⟩ last outer
  rw [hended] at hstep
  obtain ⟨pending', last', hread', hreduce'⟩ :=
    Reads.completed (.infixed left op) hright
      (fun x hx => Nat.le_trans (hlevel x hx) (Nat.le_of_lt hloose)) level.caller outer
  refine ⟨pending', last', ?_, hreduce'⟩
  rw [foldlM_append hread, foldlM_cons hstep, hread']

/-- What is read as an operand is read if it stands alone. -/
lemma Reads.read? {loose tight : Nat} {symbols : List Symbol} {e : Expr}
    (h : Reads loose tight symbols e) : read? symbols = some e := by
  obtain ⟨pending, last, hread, hreduce⟩ := h ⟨none, []⟩ [] fun _ hx => absurd hx List.not_mem_nil
  have hresult : Reader.result? ⟨⟨none, pending⟩, some last, []⟩
      = some (reduce 0 pending last).2 := rfl
  rw [Expr.read?, Reader.start, hread, Option.bind_some, hresult, hreduce 0 (Nat.zero_le tight)]
  rfl

/-- An operator that binds closer than what waits is read with the operands that stand next to it. -/
lemma Stands.infixed {loose : Nat} {t : Token} {op : Operator} {xs ys : List Symbol}
    {left right : Expr} (hop : Operator.ofToken? t = some op) (hloose : loose < op.power)
    (hleft : Stands xs left) (hright : Reads op.power op.power ys right) :
    Reads loose loose (xs ++ .token t :: ys) (.infixed op left right) :=
  (Reads.infixed hop hloose (hleft.reads _ _) hright).mono (Nat.le_refl _) (Nat.le_of_lt hloose)

/-- What is negated is read with the negation. -/
lemma Reads.negated {loose : Nat} {xs : List Symbol} {e : Expr}
    (h : Reads Operator.not.power Operator.not.power xs e) (hloose : loose ≤ Operator.not.power) :
    Reads loose Operator.not.power (.token (.word "NOT") :: xs) (.not e) := by
  intro level outer hlevel
  have hstep : Reader.step ⟨level, none, outer⟩ (.token (.word "NOT"))
      = some ⟨⟨level.caller, .not :: level.pending⟩, none, outer⟩ := rfl
  obtain ⟨pending, last, hread, hreduce⟩ :=
    Reads.completed .not h (fun x hx => Nat.le_trans (hlevel x hx) hloose) level.caller
      outer
  exact ⟨pending, last, (foldlM_cons hstep xs).trans hread, hreduce⟩

/-- What stands in parentheses is read on its own. -/
lemma Reads.closed {loose tight : Nat} {xs : List Symbol} {e : Expr}
    (h : Reads loose tight xs e) (caller : Option String) (level : Level) (outer : List Level) :
    List.foldlM Reader.step ⟨⟨caller, []⟩, none, level :: outer⟩ (xs ++ [.token (.mark ')')])
      = some ⟨level, some (Reader.enclosed caller e), outer⟩ := by
  obtain ⟨pending, last, hread, hreduce⟩ :=
    h ⟨caller, []⟩ (level :: outer) fun _ hx => absurd hx List.not_mem_nil
  have hclosed : Reader.step ⟨⟨caller, pending⟩, some last, level :: outer⟩ (.token (.mark ')'))
      = some ⟨level, some (Reader.enclosed caller (reduce 0 pending last).2), outer⟩ := rfl
  rw [foldlM_append hread, foldlM_cons hclosed, hreduce 0 (Nat.zero_le tight)]
  rfl

/-- What stands in parentheses is one operand. -/
lemma Reads.enclosed {loose tight : Nat} {xs : List Symbol} {e : Expr}
    (h : Reads loose tight xs e) :
    Stands (.token (.mark '(') :: (xs ++ [.token (.mark ')')])) (.group e) := by
  intro level outer
  have hopened : Reader.step ⟨level, none, outer⟩ (.token (.mark '('))
      = some ⟨⟨none, []⟩, none, level :: outer⟩ := rfl
  rw [foldlM_cons hopened, h.closed]
  rfl

/-- A function is one operand together with its argument. -/
lemma Reads.called {loose tight : Nat} {xs : List Symbol} {e : Expr}
    (h : Reads loose tight xs e) {function : String}
    (hname : Stands [.token (.word function)] (.name function)) :
    Stands (.token (.word function) :: .token (.mark '(') :: (xs ++ [.token (.mark ')')]))
      (.call function e) := by
  intro level outer
  have hopened : Reader.step ⟨level, some (.name function), outer⟩ (.token (.mark '('))
      = some ⟨⟨some function, []⟩, none, level :: outer⟩ := rfl
  rw [← List.singleton_append, foldlM_append (hname level outer), foldlM_cons hopened, h.closed]
  rfl

/-- **Operands with an operator between each two of them** are read from the left. -/
theorem Reads.joined {loose : Nat} {t : Token} {op : Operator}
    (hop : Operator.ofToken? t = some op) (hloose : loose < op.power) {α : Type}
    {text : α → List Symbol} {tree : α → Expr} {rest : List α}
    (hrest : ∀ a ∈ rest, Reads op.power op.power (text a) (tree a)) {xs : List Symbol} {e : Expr}
    (h : Reads loose op.power xs e) :
    Reads loose op.power (xs ++ rest.flatMap fun a => .token t :: text a)
      ((rest.map tree).foldl (.infixed op) e) := by
  induction rest generalizing xs e with
  | nil => simpa using h
  | cons a rest ih =>
      have hnext := Reads.infixed hop hloose h (hrest a List.mem_cons_self)
      have hall := ih (fun b hb => hrest b (List.mem_cons_of_mem a hb)) hnext
      rw [List.append_assoc] at hall
      exact hall

end Expr

/-! ## The expressions of filters -/

open FleetLedger.Sql.Expr (Reads Stands)

/-- The operator for a comparison. -/
def Comparison.operator : Comparison → Operator
  | equal => .equal
  | atLeast => .atLeast
  | less => .less
  | atMost => .atMost

/-- A field of the document in a row. -/
def fieldExpr (name : String) : Expr := .group (.infixed .field (.name "doc") (.literal name))

/-- Several expressions in parentheses, and a constant if there are none. -/
def junctionExpr (op : Operator) (empty : String) : List Expr → Expr
  | [] => .name empty
  | e :: es => .group (es.foldl (.infixed op) e)

/-- A document has a field. -/
def hasExpr (name : String) : Expr :=
  .call "jsonb_exists" (.infixed .comma (.name "doc") (.literal name))

/-- A field is missing or null. -/
def nullExpr (name : String) : Expr :=
  junctionExpr .or "FALSE"
    [.infixed .is (fieldExpr name) (.name "NULL"),
      .infixed .equal (fieldExpr name) (.infixed .cast (.literal "null") (.name "jsonb"))]

/-- A comparison with a value. -/
def comparisonExpr (name : String) (c : Comparison) (v : Json) : Expr :=
  .infixed c.operator (fieldExpr name) (.value (.jsonb v))

/-- A field is one of some values. -/
def amongExpr (name : String) (vs : List Json) : Expr :=
  .infixed .isIn (fieldExpr name) (junctionExpr .comma "FALSE" (vs.map fun v => .value (.jsonb v)))

mutual

/-- **The expression that is meant** by the text of a filter. -/
def filterExpr : Filter → Expr
  | .all => .name "TRUE"
  | .eq name .null => nullExpr name
  | .eq name v => comparisonExpr name .equal v
  | .isIn _ [] => .name "FALSE"
  | .isIn name vs => amongExpr name vs
  | .gte name v => comparisonExpr name .atLeast v
  | .lt name v => comparisonExpr name .less v
  | .lte name v => comparisonExpr name .atMost v
  | .has name true => hasExpr name
  | .has name false => .not (hasExpr name)
  | .like name pattern =>
    .infixed .like (.group (.infixed .fieldText (.name "doc") (.literal name)))
      (.value (.text pattern))
  | .and fs => junctionExpr .and "TRUE" (filterExprs fs)
  | .or fs => junctionExpr .or "FALSE" (filterExprs fs)

/-- The expressions of several filters. -/
def filterExprs : List Filter → List Expr
  | [] => []
  | f :: fs => filterExpr f :: filterExprs fs

end

lemma filterExprs_eq (fs : List Filter) : filterExprs fs = fs.map filterExpr := by
  induction fs with
  | nil => rfl
  | cons f fs ih => rw [filterExprs, ih, List.map_cons]

/-- A field of the document stands in parentheses, so it is one operand. -/
lemma stands_docField (name : String) : Stands (docField name).symbols (fieldExpr name) :=
  fun _ _ => rfl

lemma stands_value (bind : Bind) : Stands [.value bind] (.value bind) := fun _ _ => rfl

lemma stands_literal (text : String) : Stands [.token (.literal text)] (.literal text) :=
  fun _ _ => rfl

lemma stands_true : Stands (symbols [.word "TRUE"]) (.name "TRUE") := fun _ _ => rfl

lemma stands_false : Stands (symbols [.word "FALSE"]) (.name "FALSE") := fun _ _ => rfl

lemma stands_hasText (name : String) : Stands (hasText name).symbols (hasExpr name) :=
  fun _ _ => rfl

/-- Between parts stands the token of the separator. -/
lemma symbols_separatedBy {joiner : String} {t : Token} (h : wordTokens joiner = [t])
    {α : Type} (text : α → Statement) (a : α) (rest : List α) :
    (separatedBy joiner ((a :: rest).map text)).symbols
      = (text a).symbols ++ rest.flatMap fun b => .token t :: (text b).symbols := by
  induction rest generalizing a with
  | nil => exact (List.append_nil _).symm
  | cons b rest ih =>
      have hjoiner : pieceSymbols (.word joiner) = [.token t] := congrArg (List.map Symbol.token) h
      have hsymbols : (separatedBy joiner ((a :: b :: rest).map text)).symbols
          = (text a).symbols ++ (pieceSymbols (.word joiner)
            ++ (separatedBy joiner ((b :: rest).map text)).symbols) :=
        symbols_append (text a) _
      rw [hsymbols, hjoiner, ih b]
      rfl

/-- A junction stands in parentheses, or is a constant, so it is one operand. -/
lemma stands_junctionText {joiner empty : String} {t : Token} {op : Operator}
    (hjoiner : wordTokens joiner = [t]) (hop : Operator.ofToken? t = some op)
    (hpower : 0 < op.power) (hempty : Stands (symbols [.word empty]) (.name empty)) {α : Type}
    {text : α → Statement} {tree : α → Expr} {parts : List α}
    (h : ∀ a ∈ parts, Reads op.power op.power (text a).symbols (tree a)) :
    Stands (junctionText joiner empty (parts.map text)).symbols
      (junctionExpr op empty (parts.map tree)) := by
  cases parts with
  | nil => exact hempty
  | cons a rest =>
      have hsymbols : (junctionText joiner empty ((a :: rest).map text)).symbols
          = .token (.mark '(') :: ((separatedBy joiner ((a :: rest).map text)).symbols
            ++ [.token (.mark ')')]) :=
        congrArg (Symbol.token (.mark '(') :: ·) (symbols_append _ [.word ")"])
      have hfirst := (h a List.mem_cons_self).mono (Nat.zero_le _) (Nat.le_refl _)
      have hall := Reads.joined hop hpower (fun b hb => h b (List.mem_cons_of_mem a hb)) hfirst
      rw [hsymbols, symbols_separatedBy hjoiner]
      exact hall.enclosed

/-- A comparison is read as such, whether a conjunction or less waits for it. -/
lemma reads_comparisonText (name : String) (c : Comparison) (v : Json) :
    Reads Operator.and.power Operator.and.power (comparisonText name c v).symbols
      (comparisonExpr name c v) := by
  have hsymbols : (comparisonText name c v).symbols
      = (docField name).symbols ++ [.token (.sign c.sign), .value (.jsonb v)] := by
    cases c <;> rfl
  have hop : Operator.ofToken? (.sign c.sign) = some c.operator := by cases c <;> rfl
  have hpower : Operator.and.power < c.operator.power := by cases c <;> decide
  rw [hsymbols]
  exact (stands_docField name).infixed hop hpower ((stands_value (.jsonb v)).reads _ _)

lemma reads_amongText (name : String) {vs : List Json} (hvs : vs ≠ []) :
    Reads Operator.and.power Operator.and.power (amongText name vs).symbols
      (amongExpr name vs) := by
  have hsymbols : (amongText name vs).symbols
      = (docField name).symbols ++ .token (.word "IN") ::
        (junctionText ", " "FALSE" (vs.map fun v => [.value (.jsonb v)])).symbols := by
    cases vs with
    | nil => exact absurd rfl hvs
    | cons v vs => exact (symbols_append _ _).trans rfl
  have hin : Operator.ofToken? (.word "IN") = some .isIn := rfl
  have hitems : Stands (junctionText ", " "FALSE" (vs.map fun v => [.value (.jsonb v)])).symbols
      (junctionExpr .comma "FALSE" (vs.map fun v => .value (.jsonb v))) :=
    stands_junctionText rfl rfl (by decide) stands_false fun v _ =>
      (stands_value (.jsonb v)).reads _ _
  rw [hsymbols]
  exact (stands_docField name).infixed hin (by decide) (hitems.reads _ _)

/-- The question for null is a disjunction in parentheses. -/
lemma stands_nullText (name : String) : Stands (nullText name).symbols (nullExpr name) := by
  have hnothing : Stands [.token (.word "NULL")] (.name "NULL") := fun _ _ => rfl
  have hjsonb : Stands [.token (.word "jsonb")] (.name "jsonb") := fun _ _ => rfl
  have hmissing : Reads Operator.or.power Operator.or.power
      (symbols (docField name ++ [.word " IS NULL"]))
      (.infixed .is (fieldExpr name) (.name "NULL")) :=
    (stands_docField name).infixed (t := .word "IS") rfl (by decide) (hnothing.reads _ _)
  have hcast : Reads Operator.equal.power Operator.equal.power
      (symbols [.literal "null", .word "::jsonb"])
      (.infixed .cast (.literal "null") (.name "jsonb")) :=
    (stands_literal "null").infixed (t := .sign "::") rfl (by decide) (hjsonb.reads _ _)
  have hnull : Reads Operator.or.power Operator.or.power
      (symbols (docField name ++ [.word " = ", .literal "null", .word "::jsonb"]))
      (.infixed .equal (fieldExpr name) (.infixed .cast (.literal "null") (.name "jsonb"))) :=
    (stands_docField name).infixed (t := .sign "=") rfl (by decide) hcast
  have hparts : ∀ part ∈ [(docField name ++ [.word " IS NULL"],
        Expr.infixed .is (fieldExpr name) (.name "NULL")),
      (docField name ++ [.word " = ", .literal "null", .word "::jsonb"],
        .infixed .equal (fieldExpr name) (.infixed .cast (.literal "null") (.name "jsonb")))],
      Reads Operator.or.power Operator.or.power (symbols part.1) part.2 := by
    simpa using ⟨hmissing, hnull⟩
  exact stands_junctionText rfl rfl (by decide) stands_false hparts

lemma reads_notHasText (name : String) :
    Reads Operator.and.power Operator.and.power (symbols (.word "NOT " :: hasText name))
      (.not (hasExpr name)) :=
  (Reads.negated ((stands_hasText name).reads _ _) (by decide)).mono (Nat.le_refl _) (by decide)

lemma reads_likeText (name pattern : String) :
    Reads Operator.and.power Operator.and.power
      (symbols [.word "(doc ->> ", .literal name, .word ")", .word " ~* ", .value (.text pattern)])
      (.infixed .like (.group (.infixed .fieldText (.name "doc") (.literal name)))
        (.value (.text pattern))) := by
  have hfield : Stands (symbols [.word "(doc ->> ", .literal name, .word ")"])
      (.group (.infixed .fieldText (.name "doc") (.literal name))) := fun _ _ => rfl
  exact hfield.infixed (t := .sign "~*") rfl (by decide) ((stands_value (.text pattern)).reads _ _)

/-- **The text of a filter is read as it is meant**, also as a part of junctions. -/
theorem reads_filterText (f : Filter) :
    Reads Operator.and.power Operator.and.power (filterText f).symbols (filterExpr f) := by
  apply filterText_cases
    (P := fun f s => Reads Operator.and.power Operator.and.power s.symbols (filterExpr f))
  case all => exact stands_true.reads _ _
  case null => exact fun name => (stands_nullText name).reads _ _
  case compare =>
    intro f name c v h
    have hexpr : filterExpr f = comparisonExpr name c v := by
      cases h with
      | @equal name v hv =>
          cases v with
          | null => exact absurd rfl hv
          | _ => rfl
      | _ => rfl
    rw [hexpr]
    exact reads_comparisonText name c v
  case none => exact fun _ => stands_false.reads _ _
  case among =>
    intro name vs hvs
    have hexpr : filterExpr (.isIn name vs) = amongExpr name vs := by
      cases vs with
      | nil => exact absurd rfl hvs
      | cons v vs => rfl
    rw [hexpr]
    exact reads_amongText name hvs
  case has => exact fun name => (stands_hasText name).reads _ _
  case hasNot => exact reads_notHasText
  case like => exact reads_likeText
  case and =>
    intro fs hfs
    rw [filterExpr, filterExprs_eq]
    exact (stands_junctionText rfl rfl (by decide) stands_true hfs).reads _ _
  case or =>
    intro fs hfs
    rw [filterExpr, filterExprs_eq]
    exact (stands_junctionText rfl rfl (by decide) stands_false
      fun f hf => (hfs f hf).mono (by decide) (by decide)).reads _ _

/-! ## The expression of a scope -/

/-- The expression that is meant by the text of a scope. -/
def scopeExpr (collection : String) (f : Filter) : Expr :=
  .infixed .and (.infixed .equal (.name "collection") (.value (.text collection))) (filterExpr f)

/-- **A scope is read as the conjunction of both its parts**, whatever the filter is. -/
theorem ofStatement?_scopeText (collection : String) (f : Filter) :
    Expr.ofStatement? (scopeText collection f) = some (scopeExpr collection f) := by
  have hname : Stands [.token (.word "collection")] (.name "collection") := fun _ _ => rfl
  have hcollection : Reads Operator.and.power Operator.and.power
      [.token (.word "collection"), .token (.sign "="), .value (.text collection)]
      (.infixed .equal (.name "collection") (.value (.text collection))) :=
    hname.infixed (t := .sign "=") rfl (by decide) ((stands_value (.text collection)).reads _ _)
  have hscope : Reads 0 Operator.and.power (scopeText collection f).symbols
      (scopeExpr collection f) :=
    Reads.infixed (t := .word "AND") rfl (by decide)
      (hcollection.mono (Nat.zero_le _) (Nat.le_refl _)) (reads_filterText f)
  rw [ofStatement?_eq (spaced_scopeText collection f)]
  exact hscope.read?

end FleetLedger.Sql
