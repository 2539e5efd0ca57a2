import FleetLedger.Proofs.FilterTexts

/-!
# The statements of a document store

Names and values come from outside: fields are named by callers, filters carry whatever was searched
for.  **`Request.statement_reads`**: for each request the database reads just what was asked.  The
names stand in literals, which end where they should; the values do not stand in the text, and each
placeholder has the number of the value that belongs to it.

This is said of the text as a database reads it, token by token.  `Request.places` lists what belongs
into a statement, in terms of the request alone, and `Request.masked` takes everything off a request
that must not show.
-/

namespace FleetLedger.Sql

open Statement

/-! ## Requests -/

/-- What is asked of a document store in a database by one statement. -/
inductive Request where
  | find (collection : String) (f : Filter) (s : Selection)
  | count (collection : String) (f : Filter)
  | insert (collection : String) (docs : List Document)
  | update (collection : String) (f : Filter) (fields : Document)
  | upsert (collection : String) (f : Filter) (u : Update)
  | delete (collection : String) (f : Filter)

namespace Request

/-- The statement for a request. -/
def statement : Request → Statement
  | find collection f s => findCommand collection f s
  | count collection f => countCommand collection f
  | insert collection docs => insertCommand collection docs
  | update collection f fields => updateCommand collection f fields
  | upsert collection f u => upsertCommand collection f u
  | delete collection f => deleteCommand collection f

end Request

/-! ## Its pieces keep apart -/

lemma scopeText_eq (collection : String) (f : Filter) :
    scopeText collection f
      = .word "collection = " :: .value (.text collection) :: .word " AND " :: filterText f := rfl

/-- The text of a collection and a filter keeps its pieces apart. -/
lemma spaced_scopeText (collection : String) (f : Filter) :
    Spaced false (scopeText collection f) := by
  have hcollection : Clean false false "collection = " := clean (by decide +kernel)
  rw [scopeText_eq]
  exact .word hcollection nofun (.value (.word clean_and (fun _ => rfl) (spaced_filterText f)))

lemma spaced_projection (exclude : List String) : Spaced false (projection exclude) := by
  have hdoc : Clean false true "doc" := clean (by decide +kernel)
  have hminus : Clean false false "doc - " := clean (by decide +kernel)
  have hcast : Clean true false "::text[]" := clean (by decide +kernel)
  cases exclude with
  | nil => exact .word hdoc nofun .nil
  | cons name names => exact .word hminus nofun (.value (.word hcast (fun _ => rfl) .nil))

/-- An order by one more field begins with that field and its direction. -/
lemma ordering_cons (k : SortKey) (keys : List SortKey) :
    ordering (k :: keys)
      = docField k.field ++ .word (directionText k.direction) :: ordering keys := by
  simp [ordering, docField, Predicate.column]

/-- The order keeps its pieces apart, whatever the fields are called. -/
lemma spaced_ordering (keys : List SortKey) : Spaced false (ordering keys) := by
  have hid : Clean false true "id ASC" := clean (by decide +kernel)
  have hdirection : ∀ d, Clean true false (directionText d) := fun d => by
    cases d with
    | ascending => exact clean (by decide +kernel)
    | descending => exact clean (by decide +kernel)
  induction keys with
  | nil => exact .word hid nofun .nil
  | cons k keys ih =>
      rw [ordering_cons]
      exact spaced_docField (.word (hdirection _) nofun ih)

lemma spaced_paging (skip : Nat) (limit : Option Nat) : Spaced true (paging skip limit) := by
  have hoffset : Clean true false " OFFSET " := clean (by decide +kernel)
  have hlimit : Clean true false " LIMIT " := clean (by decide +kernel)
  refine Spaced.append ?_ ?_
  · split
    · exact .nil
    · exact .word hoffset (fun _ => rfl) (.value .nil)
  · split
    · exact .word hlimit (fun _ => rfl) (.value .nil)
    · exact .nil

/-- The names that the column of documents goes by. -/
def documentColumns : List String := ["doc", "d.doc"]

/-- A change keeps its pieces apart, by whichever name it has for the column of documents. -/
lemma spaced_change {column : String} (h : column ∈ documentColumns) (c : Change) :
    Spaced false (c.pieces column) := by
  have hcast : Clean true false ")::bigint, 0) + " := clean (by decide +kernel)
  -- The words that name the column are checked for each of its names.
  have hchecked : isClean false true column.toList = true
      ∧ isClean false false (column ++ " || ").toList = true
      ∧ isClean false false (column ++ " || jsonb_build_object(").toList = true
      ∧ isClean true false (", COALESCE((" ++ column ++ " ->> ").toList = true := by
    revert column
    decide +kernel
  have hclean : ∀ {opens holds : Bool} {text : String}, isClean opens holds text.toList = true →
      Clean opens holds text := fun h => by
    have htext := clean h
    rwa [String.ofList_toList] at htext
  obtain ⟨hcolumn, hmerged, hbuild, hold⟩ := hchecked
  cases c with
  | unchanged => exact .word (hclean hcolumn) nofun .nil
  | merged fields => exact .word (hclean hmerged) nofun (.value .nil)
  | counted deltas =>
      have hcounts : Spaced false
          (separatedBy ", " (deltas.map (Change.countPieces column))) := by
        refine spaced_separatedBy clean_comma fun s hs => ?_
        obtain ⟨⟨name, delta⟩, -, rfl⟩ := List.mem_map.mp hs
        exact .literal (.word (hclean hold) (fun _ => rfl) (.literal (.word hcast (fun _ => rfl)
          (.value .nil))))
      exact .word (hclean hbuild) nofun
        (hcounts.append (.word clean_closing (fun _ => rfl) .nil))

/-- **Every statement keeps its pieces apart**: no word runs into a value or a literal beside it. -/
theorem Request.spaced_statement (r : Request) : Spaced false r.statement := by
  cases r with
  | find collection f s =>
      have hselect : Clean false false "SELECT " := clean (by decide +kernel)
      have hfrom : Clean true false " FROM documents WHERE " := clean (by decide +kernel)
      have horder : Clean true false " ORDER BY " := clean (by decide +kernel)
      refine Spaced.append (Spaced.append (Spaced.append ?_ ?_) ?_) (spaced_paging s.skip s.limit)
      · exact .word hselect nofun (spaced_projection s.exclude)
      · exact .word hfrom (fun _ => rfl) (spaced_scopeText collection f)
      · exact .word horder (fun _ => rfl) (spaced_ordering s.sort)
  | count collection f =>
      have hcount : Clean false false "SELECT COUNT(*) FROM documents WHERE " :=
        clean (by decide +kernel)
      exact .word hcount nofun (spaced_scopeText collection f)
  | insert collection docs =>
      have hinsert : Clean false false "INSERT INTO documents (collection, doc) VALUES " :=
        clean (by decide +kernel)
      refine .word hinsert nofun (spaced_separatedBy clean_comma fun s hs => ?_)
      obtain ⟨d, -, rfl⟩ := List.mem_map.mp hs
      exact .word clean_opening nofun (.value (.word clean_comma (fun _ => rfl) (.value
        (.word clean_closing (fun _ => rfl) .nil))))
  | update collection f fields =>
      have hupdate : Clean false false "UPDATE documents SET doc = " := clean (by decide +kernel)
      have hwhere : Clean true false ", updated_at = NOW() WHERE " := clean (by decide +kernel)
      refine Spaced.append ?_ ?_
      · exact .word hupdate nofun (spaced_change List.mem_cons_self (.merged fields))
      · exact .word hwhere (fun _ => rfl) (spaced_scopeText collection f)
  | upsert collection f u =>
      have htarget : Clean false false "WITH target AS (SELECT id FROM documents WHERE " :=
        clean (by decide +kernel)
      have hupdated : Clean true false
          (" ORDER BY id LIMIT 1 FOR UPDATE), " ++ "updated AS (UPDATE documents d SET doc = ") :=
        (clean (by decide +kernel)).append (clean (by decide +kernel))
      have hinsert : Clean true false
          (", updated_at = NOW() FROM target WHERE d.id = target.id RETURNING d.id) " ++
            "INSERT INTO documents (collection, doc) SELECT ") :=
        (clean (by decide +kernel)).append (clean (by decide +kernel))
      have hnone : Clean true false " WHERE NOT EXISTS (SELECT 1 FROM updated)" :=
        clean (by decide +kernel)
      refine Spaced.append (Spaced.append ?_ ?_) ?_
      · exact .word htarget nofun (spaced_scopeText collection f)
      · exact .word hupdated (fun _ => rfl)
          (spaced_change (List.mem_of_mem_tail List.mem_cons_self) (.ofUpdate u))
      · exact .word hinsert (fun _ => rfl) (.value (.word clean_comma (fun _ => rfl) (.value
          (.word hnone (fun _ => rfl) .nil))))
  | delete collection f =>
      have hdelete : Clean false false "DELETE FROM documents WHERE " := clean (by decide +kernel)
      exact .word hdelete nofun (spaced_scopeText collection f)

/-! ## What stands in it -/

/-- The values of a change, and the names of the counters. -/
def updatePlaces : Update → List Place
  | .set fields => [.value (.jsonb (.object fields))]
  | .inc deltas =>
    deltas.flatMap fun (name, delta) => [.name name, .name name, .value (.int8 delta)]

/-- The collection, and what stands in the text of a filter. -/
def scopePlaces (collection : String) (f : Filter) : List Place :=
  .value (.text collection) :: filterPlaces f

namespace Request

/-- The names, constants and values that belong into the statement for a request, from the left. -/
def places : Request → List Place
  | find collection f s =>
    (if s.exclude.isEmpty then [] else [.value (.textArray s.exclude)]) ++ scopePlaces collection f
      ++ s.sort.map (fun key => .name key.field)
      ++ (if s.skip = 0 then [] else [.value (bigint s.skip)])
      ++ s.limit.toList.map (fun n => .value (bigint n))
  | count collection f => scopePlaces collection f
  | insert collection docs =>
    docs.flatMap fun d => [.value (.text collection), .value (.jsonb (.object d))]
  | update collection f fields =>
    .value (.jsonb (.object fields)) :: scopePlaces collection f
  | upsert collection f u =>
    scopePlaces collection f ++ updatePlaces u
      ++ [.value (.text collection), .value (.jsonb (.object (u.seed f)))]
  | delete collection f => scopePlaces collection f

end Request

/-- In the text of a collection and a filter there stand the collection and what the filter has. -/
lemma places_scopeText (collection : String) (f : Filter) :
    (scopeText collection f).places = scopePlaces collection f :=
  congrArg (Place.value (.text collection) :: ·) (places_filterText f)

lemma places_word (text : String) (s : Statement) : places (.word text :: s) = places s := rfl

/-- The fields to leave out are handed over as one value, if there are any. -/
lemma places_projection (exclude : List String) :
    (projection exclude).places
      = if exclude.isEmpty then [] else [.value (.textArray exclude)] := by
  cases exclude <;> rfl

/-- In the order there stand the names of its fields. -/
lemma places_ordering (keys : List SortKey) :
    (ordering keys).places = keys.map fun key => .name key.field := by
  induction keys with
  | nil => rfl
  | cons k keys ih =>
      rw [ordering_cons, places_append]
      exact congrArg (Place.name k.field :: ·) ih

/-- The numbers to skip and to give are handed over, where they say anything. -/
lemma places_paging (skip : Nat) (limit : Option Nat) :
    (paging skip limit).places
      = (if skip = 0 then [] else [.value (bigint skip)])
        ++ limit.toList.map (fun n => .value (bigint n)) := by
  rw [paging.eq_def, places_append]
  cases limit <;> split <;> rfl

/-- In a change there stand the new fields, or for each counter twice its name and then what is
added. -/
lemma places_ofUpdate (u : Update) :
    ((Change.ofUpdate u).pieces "d.doc").places = updatePlaces u := by
  cases u with
  | set fields => rfl
  | inc deltas =>
      cases deltas with
      | nil => rfl
      | cons d deltas =>
          have hcounts : ((Change.ofUpdate (.inc (d :: deltas))).pieces "d.doc").places
              = (separatedBy ", " ((d :: deltas).map (Change.countPieces "d.doc"))).places ++ [] :=
            places_append _ [.word ")"]
          rw [hcounts, List.append_nil, places_separatedBy, List.flatMap_map]
          rfl

/-- **What stands in a statement** is what belongs there, place by place. -/
theorem Request.places_statement (r : Request) : r.statement.places = r.places := by
  cases r with
  | find collection f s =>
      have hparts : (findCommand collection f s).places
          = (projection s.exclude).places ++ (scopeText collection f).places
            ++ (ordering s.sort).places ++ (paging s.skip s.limit).places := by
        simp only [findCommand, List.cons_append, List.append_assoc, places_word, places_append]
      rw [statement, hparts, places_projection, places_scopeText, places_ordering, places_paging,
        places, List.append_assoc _ _ (List.map _ s.limit.toList)]
  | count collection f => exact places_scopeText collection f
  | insert collection docs =>
      have hrows : (insertCommand collection docs).places
          = (docs.map (rowPieces collection)).flatMap Statement.places :=
        places_separatedBy ", " _
      rw [statement, hrows, List.flatMap_map]
      rfl
  | update collection f fields =>
      exact congrArg (Place.value (.jsonb (.object fields)) :: ·) (places_scopeText collection f)
  | upsert collection f u =>
      have hparts : (upsertCommand collection f u).places
          = (scopeText collection f).places ++ ((Change.ofUpdate u).pieces "d.doc").places
            ++ [.value (.text collection), .value (.jsonb (.object (u.seed f)))] := by
        simp only [upsertCommand, List.cons_append, List.append_assoc, places_word, places_append]
        rfl
      rw [statement, hparts, places_scopeText, places_ofUpdate, places]
  | delete collection f => exact places_scopeText collection f

/-! ## What does not show in it -/

/-- An update without its values and with other names. -/
def maskedUpdate (rename : String → String) : Update → Update
  | .set _ => .set []
  | .inc deltas => .inc (deltas.map fun d => (rename d.1, 0))

/-- A selection without its numbers, except for the questions whether anything is skipped, left out or
cut off, and with other names. -/
def maskedSelection (rename : String → String) (s : Selection) : Selection where
  exclude := if s.exclude.isEmpty then [] else [""]
  sort := s.sort.map fun key => ⟨rename key.field, key.direction⟩
  skip := if s.skip = 0 then 0 else 1
  limit := s.limit.map fun _ => 0

/-- **A request without what must not show**: without the collection, the documents, the numbers, and
the values in the filter that are not null, and with other names of fields. -/
def Request.masked (rename : String → String) : Request → Request
  | find _ f s => find "" (maskedFilter rename f) (maskedSelection rename s)
  | count _ f => count "" (maskedFilter rename f)
  | insert _ docs => insert "" (docs.map fun _ => [])
  | update _ f _ => update "" (maskedFilter rename f) []
  | upsert _ f u => upsert "" (maskedFilter rename f) (maskedUpdate rename u)
  | delete _ f => delete "" (maskedFilter rename f)

section Masked

variable {rename : String → String} (hrename : ∀ name, rename (rename name) = rename name)

lemma masked_word (text : String) (s : Statement) :
    masked rename (.word text :: s) = .word text :: masked rename s := rfl

include hrename in
/-- The collection and the values of a filter do not show. -/
lemma masked_scopeText (collection : String) (f : Filter) :
    (scopeText "" (maskedFilter rename f)).masked rename = (scopeText collection f).masked rename :=
  congrArg (fun rest => Piece.word "collection = " :: .value (.text "") :: .word " AND " :: rest)
    (masked_filterText hrename f)

lemma masked_projection (exclude : List String) :
    (projection (if exclude.isEmpty then [] else [""])).masked rename
      = (projection exclude).masked rename := by
  cases exclude <;> rfl

include hrename in
lemma masked_ordering (keys : List SortKey) :
    (ordering (keys.map fun key => ⟨rename key.field, key.direction⟩)).masked rename
      = (ordering keys).masked rename := by
  induction keys with
  | nil => rfl
  | cons k keys ih =>
      rw [List.map_cons, ordering_cons, ordering_cons, masked_append, masked_append,
        masked_docField hrename]
      exact congrArg (fun rest => _ ++ Piece.word (directionText k.direction) :: rest) ih

lemma masked_paging (skip : Nat) (limit : Option Nat) :
    (paging (if skip = 0 then 0 else 1) (limit.map fun _ => 0)).masked rename
      = (paging skip limit).masked rename := by
  rw [paging.eq_def, paging.eq_def, masked_append, masked_append]
  cases limit <;> split <;> rfl

include hrename in
/-- Neither the name of a counter shows, nor what is added to it. -/
lemma masked_countPieces (d : String × Int) :
    (Change.countPieces "d.doc" (rename d.1, 0)).masked rename
      = (Change.countPieces "d.doc" d).masked rename :=
  congrArg (fun name => [Piece.literal name, .word (", COALESCE((" ++ "d.doc" ++ " ->> "),
    .literal name, .word ")::bigint, 0) + ", .value (.text "")]) (hrename d.1)

include hrename in
/-- The fields and counters of an update do not show. -/
lemma masked_ofUpdate (u : Update) :
    ((Change.ofUpdate (maskedUpdate rename u)).pieces "d.doc").masked rename
      = ((Change.ofUpdate u).pieces "d.doc").masked rename := by
  have hpieces : ∀ deltas, ((Change.counted deltas).pieces "d.doc").masked rename
      = .word ("d.doc" ++ " || jsonb_build_object(")
        :: (separatedBy ", " ((deltas.map (Change.countPieces "d.doc")).map (masked rename))
          ++ [.word ")"]) := fun deltas => by
    rw [← masked_separatedBy]
    exact masked_append rename (.word _ :: separatedBy ", " _) [.word ")"]
  have hcounted : ∀ deltas,
      ((Change.counted (deltas.map fun d => (rename d.1, 0))).pieces "d.doc").masked rename
        = ((Change.counted deltas).pieces "d.doc").masked rename := fun deltas => by
    simp only [hpieces, List.map_map, Function.comp_def, masked_countPieces hrename]
  cases u with
  | set fields => rfl
  | inc deltas =>
      cases deltas with
      | nil => rfl
      | cons d deltas => exact hcounted (d :: deltas)

variable (rename) in
include hrename in
/-- **Nothing else of a request shows**: without it there is the same statement, up to the values and
the texts in literals. -/
theorem Request.masked_statement (r : Request) :
    (r.masked rename).statement.masked rename = r.statement.masked rename := by
  cases r with
  | find collection f s =>
      have hparts : ∀ collection f s, (findCommand collection f s).masked rename
          = .word "SELECT " :: ((projection s.exclude).masked rename
            ++ .word " FROM documents WHERE " :: ((scopeText collection f).masked rename
            ++ .word " ORDER BY " :: ((ordering s.sort).masked rename
            ++ (paging s.skip s.limit).masked rename))) := fun collection f s => by
        simp only [findCommand, List.cons_append, List.append_assoc, masked_word, masked_append]
      rw [masked, statement, statement, hparts, hparts, masked_scopeText hrename collection f]
      simp only [maskedSelection, masked_projection, masked_ordering hrename, masked_paging]
  | count collection f =>
      exact congrArg (Piece.word _ :: ·) (masked_scopeText hrename collection f)
  | insert collection docs =>
      have hrows : ∀ collection docs, (insertCommand collection docs).masked rename
          = .word "INSERT INTO documents (collection, doc) VALUES "
            :: separatedBy ", " ((docs.map (rowPieces collection)).map (Statement.masked rename)) :=
        fun collection docs => by
          rw [← masked_separatedBy]
          rfl
      rw [masked, statement, statement, hrows, hrows, List.map_map, List.map_map, List.map_map]
      rfl
  | update collection f fields =>
      exact congrArg (fun rest => Piece.word _ :: .word _ :: .value _ :: .word _ :: rest)
        (masked_scopeText hrename collection f)
  | upsert collection f u =>
      have hparts : ∀ collection f u, (upsertCommand collection f u).masked rename
          = .word "WITH target AS (SELECT id FROM documents WHERE "
            :: ((scopeText collection f).masked rename
            ++ .word (" ORDER BY id LIMIT 1 FOR UPDATE), "
              ++ "updated AS (UPDATE documents d SET doc = ")
            :: (((Change.ofUpdate u).pieces "d.doc").masked rename
            ++ [.word (", updated_at = NOW() FROM target WHERE d.id = target.id RETURNING d.id) "
                ++ "INSERT INTO documents (collection, doc) SELECT "),
              .value (.text ""), .word ", ", .value (.text ""),
              .word " WHERE NOT EXISTS (SELECT 1 FROM updated)"])) := fun collection f u => by
        simp only [upsertCommand, List.cons_append, List.append_assoc, masked_word, masked_append]
        rfl
      rw [masked, statement, statement, hparts, hparts, masked_scopeText hrename collection f,
        masked_ofUpdate hrename]
  | delete collection f =>
      exact congrArg (Piece.word _ :: ·) (masked_scopeText hrename collection f)

end Masked

/-! ## The statement as a database reads it -/

/-- **Statements say what was asked, and nothing else.**  The text of every statement can be read.
What stands in its literals are the names and constants that belong there; the placeholders are
numbered from one on without a gap, and each has the number of the value that belongs there, of which
just these are handed over.  Requests have one text if they differ in the collection, in documents, in
deltas, in numbers, or in filter values that are not null.  And if they differ in names of fields,
their texts have the same tokens, except in literals. -/
theorem Request.statement_reads (r : Request) :
    ∃ tokens, Token.lex? r.statement.text = some tokens
      ∧ tokens.filterMap slot? = slotsFrom 1 r.places
      ∧ (tokens.filterMap slot?).filterMap Sum.getRight?
        = List.range' 1 r.statement.binds.length
      ∧ r.statement.binds = r.places.filterMap Place.bind?
      ∧ (∀ other : Request, other.masked id = r.masked id →
        other.statement.text = r.statement.text)
      ∧ ∀ other : Request, other.masked (fun _ => "") = r.masked (fun _ => "") →
        ∃ others, Token.lex? other.statement.text = some others
          ∧ others.map (renamed fun _ => "") = tokens.map (renamed fun _ => "") := by
  have hbinds : ∀ r : Request, r.statement.binds = r.places.filterMap Place.bind? := fun r => by
    rw [binds_eq, places_statement]
  have hslots : (tokensFrom 1 r.statement).filterMap slot? = slotsFrom 1 r.places := by
    rw [filterMap_slot? r.spaced_statement, places_statement]
  have htext : ∀ r : Request, r.statement.text = ((r.masked id).statement.masked id).text :=
    fun r => by rw [masked_statement id fun _ => rfl, text_masked]
  have htokens : ∀ r : Request, (tokensFrom 1 r.statement).map (renamed fun _ => "")
      = tokensFrom 1 ((r.masked fun _ => "").statement.masked fun _ => "") := fun r => by
    rw [masked_statement (fun _ => "") fun _ => rfl, map_renamed r.spaced_statement]
  refine ⟨tokensFrom 1 r.statement, lex?_text r.spaced_statement, hslots, ?_, hbinds r, ?_, ?_⟩
  · rw [hslots, filterMap_number?, hbinds]
  · intro other hother
    rw [htext other, hother, ← htext]
  · intro other hother
    refine ⟨tokensFrom 1 other.statement, lex?_text other.spaced_statement, ?_⟩
    rw [htokens other, hother, ← htokens]

end FleetLedger.Sql
