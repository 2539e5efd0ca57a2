import FleetLedger.Proofs.Reading
import FleetLedger.Sql.Search

/-!
# The texts of searches

**`ofStatement?_findCommand`**: the text of a search is read as it is meant, whatever its filter, its keys
and the names in them are.

Two cuts have to fall where they are meant.  Clauses are cut at words of the language, and nothing that
stands within a clause is one of these (`staysWithin`): names of fields are literals, and values take the
places of their placeholders.  Terms are cut at commas, of which a key brings just the one behind it
(`mapM_items_ordering`).
-/

namespace FleetLedger.Sql

open Statement

namespace Search

/-! ## Clauses -/

/-- No clause begins within the piece. -/
def staysWithin (p : Piece) : Bool := (pieceSymbols p).all fun s => (clauseWord? s).isNone

/-- Parts without a word that begins a clause stay so when they are joined by such words. -/
lemma within_separatedBy {joiner : String} (hjoiner : staysWithin (.word joiner) = true)
    {parts : List Statement} (h : ∀ s ∈ parts, s.all staysWithin = true) :
    (separatedBy joiner parts).all staysWithin = true := by
  induction parts with
  | nil => rfl
  | cons s rest ih =>
      have hs := h s List.mem_cons_self
      have hrest := ih fun t ht => h t (List.mem_cons_of_mem s ht)
      cases rest with
      | nil => exact hs
      | cons t rest =>
          have hall : (separatedBy joiner (s :: t :: rest)).all staysWithin
              = (s.all staysWithin && (staysWithin (.word joiner)
                && (separatedBy joiner (t :: rest)).all staysWithin)) := List.all_append
          rw [hall, hs, hjoiner, hrest]
          rfl

lemma within_junctionText {joiner empty : String} (hjoiner : staysWithin (.word joiner) = true)
    (hempty : staysWithin (.word empty) = true) {parts : List Statement}
    (h : ∀ s ∈ parts, s.all staysWithin = true) :
    (junctionText joiner empty parts).all staysWithin = true := by
  cases parts with
  | nil => simp [junctionText, hempty]
  | cons s rest =>
      have hopening : staysWithin (.word "(") = true := rfl
      have hclosing : staysWithin (.word ")") = true := rfl
      simp only [junctionText, List.all_append, List.all_cons, List.all_nil, hopening, hclosing,
        within_separatedBy hjoiner h, Bool.and_self]

/-- **No clause begins within the text of a filter.** -/
theorem within_filterText (f : Filter) : (filterText f).all staysWithin = true := by
  apply filterText_cases (P := fun _ s => s.all staysWithin = true)
  case all => rfl
  case null => exact fun _ => rfl
  case compare =>
    intro f name c v _
    cases c <;> rfl
  case none => exact fun _ => rfl
  case among =>
    intro name vs _
    have hlist : (listText vs).all staysWithin = true :=
      within_separatedBy rfl (List.forall_mem_map.mpr fun _ _ => rfl)
    have hall : (amongText name vs).all staysWithin
        = ((docField name).all staysWithin && (staysWithin (Piece.word " IN (")
          && (listText vs ++ [Piece.word ")"]).all staysWithin)) := List.all_append
    rw [hall, List.all_append, hlist]
    rfl
  case has => exact fun _ => rfl
  case hasNot => exact fun _ => rfl
  case like => exact fun _ _ => rfl
  case and => exact fun fs hfs => within_junctionText rfl rfl (List.forall_mem_map.mpr hfs)
  case or => exact fun fs hfs => within_junctionText rfl rfl (List.forall_mem_map.mpr hfs)

lemma within_scopeText (collection : String) (f : Filter) :
    (scopeText collection f).all staysWithin = true := by
  rw [scopeText_eq, List.all_cons, List.all_cons, List.all_cons, within_filterText]
  rfl

lemma within_ordering (keys : List SortKey) : (ordering keys).all staysWithin = true := by
  have hdirection : ∀ d, staysWithin (.word (directionText d)) = true := fun d => by
    cases d <;> rfl
  have hfield : ∀ name, (docField name).all staysWithin = true := fun _ => rfl
  induction keys with
  | nil => rfl
  | cons k keys ih =>
      rw [ordering_cons, List.all_append, List.all_cons, ih, hdirection, hfield]
      rfl

/-- A word that begins a clause ends what is before it. -/
lemma clauses_begun {word : String} (h : clauseWord? (.token (.word word)) = some word)
    (rest : List Symbol) :
    clauses (.token (.word word) :: rest) = ([], (word, (clauses rest).1) :: (clauses rest).2) := by
  simp only [clauses, h]

/-- Anything else belongs to the clause that it stands in. -/
lemma clauses_within {x : Symbol} (h : clauseWord? x = none) (rest : List Symbol) :
    clauses (x :: rest) = (x :: (clauses rest).1, (clauses rest).2) := by
  simp only [clauses, h]

/-- A clause goes on to the next word that begins one. -/
lemma clauses_append {s : Statement} (h : s.all staysWithin = true) (rest : List Symbol) :
    clauses (s.symbols ++ rest) = (s.symbols ++ (clauses rest).1, (clauses rest).2) := by
  have hwithin : ∀ x ∈ s.symbols, clauseWord? x = none := by
    intro x hx
    obtain ⟨p, hp, hx⟩ := List.mem_flatMap.mp hx
    exact Option.isNone_iff_eq_none.mp
      (List.all_eq_true.mp (List.all_eq_true.mp h p hp) x hx)
  revert hwithin
  induction s.symbols with
  | nil => exact fun _ => rfl
  | cons x xs ih =>
      intro hwithin
      rw [List.cons_append, clauses_within (hwithin x List.mem_cons_self),
        ih fun y hy => hwithin y (List.mem_cons_of_mem x hy)]
      rfl

/-! ## Terms -/

/-- Where rows go in which a key has no value. -/
def nullsOf : Direction → Nulls
  | .ascending => .first
  | .descending => .last

/-- The term that is meant by a key. -/
def keyTerm (k : SortKey) : OrderTerm := ⟨fieldExpr k.field, k.direction, nullsOf k.direction⟩

/-- The term by the ids of rows. -/
def idTerm : OrderTerm := ⟨.name "id", .ascending, .last⟩

/-- The words behind a key. -/
def directionSymbols : Direction → List Symbol
  | .ascending => [.token (.word "ASC"), .token (.word "NULLS"), .token (.word "FIRST")]
  | .descending => [.token (.word "DESC"), .token (.word "NULLS"), .token (.word "LAST")]

/-- The text of a key stands before those of the keys after it, with a comma between. -/
lemma symbols_ordering_cons (k : SortKey) (keys : List SortKey) :
    (ordering (k :: keys)).symbols = (docField k.field).symbols ++ (directionSymbols k.direction
      ++ .token (.mark ',') :: (ordering keys).symbols) := by
  have hdirection : ∀ d, pieceSymbols (.word (directionText d))
      = directionSymbols d ++ [.token (.mark ',')] := fun d => by cases d <;> rfl
  have hrest : symbols (.word (directionText k.direction) :: ordering keys)
      = pieceSymbols (.word (directionText k.direction)) ++ (ordering keys).symbols := rfl
  rw [ordering_cons, symbols_append, hrest, hdirection, List.append_assoc]
  rfl

/-- **Each key is read to its term**, and the ids decide last. -/
theorem mapM_items_ordering (keys : List SortKey) :
    (items 0 [] (ordering keys).symbols).mapM OrderTerm.ofSymbols?
      = some (keys.map keyTerm ++ [idTerm]) := by
  have hcut : ∀ name d rest,
      items 0 [] ((docField name).symbols ++ (directionSymbols d ++ .token (.mark ',') :: rest))
        = ((docField name).symbols ++ directionSymbols d) :: items 0 [] rest := fun _ d _ => by
    cases d <;> rfl
  have hread : ∀ name d, OrderTerm.ofSymbols? ((docField name).symbols ++ directionSymbols d)
      = some (keyTerm ⟨name, d⟩) := fun _ d => by cases d <;> rfl
  induction keys with
  | nil => rfl
  | cons k keys ih =>
      rw [symbols_ordering_cons, hcut, List.mapM_cons, hread, ih]
      rfl

/-! ## Searches -/

/-- What is meant to be shown of a row. -/
def shownExpr : List String → Expr
  | [] => .name "doc"
  | names => .infixed .minus (.name "doc")
      (.infixed .cast (.value (.textArray names)) (.name "text[]"))

/-- The greatest number of rows that can be handed over. -/
def greatestCount : Nat := 9223372036854775807

/-- **The search that is meant** by a selection. -/
def ofSelection (collection : String) (f : Filter) (s : Selection) : Search where
  shown := shownExpr s.exclude
  condition := scopeExpr collection f
  order := s.sort.map keyTerm ++ [idTerm]
  skip := min s.skip greatestCount
  limit := s.limit.map (min · greatestCount)

lemma within_projection (names : List String) : (projection names).all staysWithin = true := by
  cases names <;> rfl

/-- The list of fields to leave out is read to the documents without them. -/
lemma read?_projection (names : List String) :
    Expr.read? (typed (projection names).symbols) = some (shownExpr names) := by
  cases names <;> rfl

/-- A number of documents is read, and cut off where 63 bits end. -/
lemma count?_bigint (n : Nat) : count? [.value (bigint n)] = some (min n greatestCount) := by
  have hpositive : (0 : Int) ≤ min (n : Int) 9223372036854775807 := by omega
  have hnat : (min (n : Int) 9223372036854775807).toNat = min n greatestCount := by
    rw [greatestCount]
    omega
  rw [bigint, count?, if_pos hpositive, hnat]

/-- How many rows are passed over and shown is read from the clauses at the end. -/
lemma paging?_paging (skip : Nat) (limit : Option Nat) :
    (clauses (paging skip limit).symbols).1 = []
      ∧ paging? (clauses (paging skip limit).symbols).2
        = some (min skip greatestCount, limit.map (min · greatestCount)) := by
  by_cases hskip : skip = 0
  · subst hskip
    cases limit with
    | none => exact ⟨rfl, rfl⟩
    | some n =>
        have hclauses : clauses (paging 0 (some n)).symbols
            = ([], [("LIMIT", [.value (bigint n)])]) := rfl
        rw [hclauses, paging?, count?_bigint]
        exact ⟨rfl, rfl⟩
  · cases limit with
    | none =>
        have hclauses : clauses (paging skip none).symbols
            = ([], [("OFFSET", [.value (bigint skip)])]) := by
          rw [paging, if_neg hskip]
          rfl
        rw [hclauses, paging?, count?_bigint]
        exact ⟨rfl, rfl⟩
    | some n =>
        have hclauses : clauses (paging skip (some n)).symbols
            = ([], [("OFFSET", [.value (bigint skip)]), ("LIMIT", [.value (bigint n)])]) := by
          rw [paging, if_neg hskip]
          rfl
        rw [hclauses, paging?, count?_bigint, count?_bigint]
        exact ⟨rfl, rfl⟩

/-- **The text of a search is read as it is meant.** -/
theorem ofStatement?_findCommand (collection : String) (f : Filter) (s : Selection) :
    ofStatement? (findCommand collection f s) = some (ofSelection collection f s) := by
  have hspaced : Spaced false (findCommand collection f s) :=
    Request.spaced_statement (.find collection f s)
  have hcondition : Expr.read? (scopeText collection f).symbols
      = some (scopeExpr collection f) := by
    rw [← ofStatement?_eq (spaced_scopeText collection f)]
    exact ofStatement?_scopeText collection f
  obtain ⟨hlast, hpaging⟩ := paging?_paging s.skip s.limit
  have hsymbols : (findCommand collection f s).symbols
      = .token (.word "SELECT") :: ((projection s.exclude).symbols
        ++ .token (.word "FROM") :: .token (.word "documents") :: .token (.word "WHERE")
          :: ((scopeText collection f).symbols ++ .token (.word "ORDER") :: .token (.word "BY")
            :: ((ordering s.sort).symbols ++ (paging s.skip s.limit).symbols))) := by
    have hparts : findCommand collection f s
        = [.word "SELECT "] ++ (projection s.exclude ++ ([.word " FROM documents WHERE "]
          ++ (scopeText collection f ++ ([.word " ORDER BY "]
            ++ (ordering s.sort ++ paging s.skip s.limit))))) := by
      simp only [findCommand, List.cons_append, List.nil_append, List.append_assoc]
    rw [hparts]
    simp only [symbols_append]
    rfl
  have hclauses : clauses (findCommand collection f s).symbols
      = ([], ("SELECT", (projection s.exclude).symbols) :: ("FROM", [.token (.word "documents")])
        :: ("WHERE", (scopeText collection f).symbols)
        :: ("ORDER", .token (.word "BY") :: (ordering s.sort).symbols)
        :: (clauses (paging s.skip s.limit).symbols).2) := by
    rw [hsymbols, clauses_begun rfl, clauses_append (within_projection _), clauses_begun rfl,
      clauses_within rfl, clauses_begun rfl, clauses_append (within_scopeText collection f),
      clauses_begun rfl, clauses_within rfl, clauses_append (within_ordering _), hlast]
    simp only [List.append_nil]
  rw [ofStatement?, symbolsOf_eq hspaced, Option.bind_some, ofSymbols?, hclauses]
  simp only [read?_projection, hcondition, mapM_items_ordering, hpaging]
  rfl

end Search

end FleetLedger.Sql
