import Mathlib.Data.List.Forall2
import FleetLedger.Ledger
import FleetLedger.Proofs.FilterTexts
import FleetLedger.Proofs.Tables
import FleetLedger.Sql.Documents
import FleetLedger.Sql.Indexes
import FleetLedger.Store.Memory

/-!
# Which fields get an index

A database tells indexes apart by their names alone, and the name of an index is made of a collection
and a field.  On the way capital letters become small ones, everything else becomes an underscore, and
the two parts are joined by an underscore, which may stand in either of them.  So there are two things
to find out: which names are the same, and what comes of it.

**Names.**  What becomes of a character is said by numbers (`toNat_identifierChar`), and collection and
field go into a name as one text (`indexName_eq`).  Two names are the same if these texts are alike
(`indexName_eq_iff`); if both are plain, then where one of them is cut in another place
(`append_underscore_eq_iff`).

**Statements.**  The name and the field are what a database reads in the statement that makes an index
(`ofStatement?_indexCommand`): a name is always one word, and a field stands in a literal.

**Calls.**  One request makes an index or finds one of its name (`Indexes.field?_make`), so of many
requests with one name the first one counts (`Indexes.field?_afterRequests`).  In memory, where indexes
are kept by collection and field, each of them does (`Memory.mem_indexedFields_run`).
**`indexes_by_name`** is all of it, and `index_skipped` a field that is left without an index.
-/

namespace FleetLedger.Sql

/-! ## Characters of names -/

/-- A character of a name. -/
def NameCharacter (c : Char) : Prop := 'a' ≤ c ∧ c ≤ 'z' ∨ '0' ≤ c ∧ c ≤ '9' ∨ c = '_'

/-- Two characters that names do not tell apart: the same one, or the same letter in upper and lower
case, or two that are neither letters nor digits. -/
def AlikeInNames (a b : Char) : Prop :=
  a.toLower = b.toLower ∨ a.isAlphanum = false ∧ b.isAlphanum = false

lemma nameCharacter_iff {c : Char} : NameCharacter c
    ↔ 97 ≤ c.toNat ∧ c.toNat ≤ 122 ∨ 48 ≤ c.toNat ∧ c.toNat ≤ 57 ∨ c.toNat = 95 := by
  simp [NameCharacter, Char.le_def, UInt32.le_iff_toNat_le, Char.ext_iff, ← UInt32.toNat_inj]

lemma isAlphanum_iff {c : Char} : c.isAlphanum = true
    ↔ 65 ≤ c.toNat ∧ c.toNat ≤ 90 ∨ 97 ≤ c.toNat ∧ c.toNat ≤ 122
      ∨ 48 ≤ c.toNat ∧ c.toNat ≤ 57 := by
  have hclasses : c.isAlphanum = ((decide ('A'.val ≤ c.val ∧ c.val ≤ 'Z'.val)
      || decide ('a'.val ≤ c.val) && decide (c.val ≤ 'z'.val))
      || decide ('0'.val ≤ c.val) && decide (c.val ≤ '9'.val)) := rfl
  rw [hclasses]
  simp [UInt32.le_iff_toNat_le, or_assoc]

/-- Only the large letters of ASCII have a small one. -/
lemma toNat_toLower (c : Char) : c.toLower.toNat
    = if 65 ≤ c.toNat ∧ c.toNat ≤ 90 then c.toNat + 32 else c.toNat := by
  have hfirst : 'A'.val.toNat = 65 := rfl
  have hlast : 'Z'.val.toNat = 90 := rfl
  have hoffset : ('a'.val - 'A'.val).toNat = 32 := rfl
  delta Char.toLower
  simp only [UInt32.le_iff_toNat_le, ge_iff_le, hfirst, hlast, Char.toNat_val]
  split
  case isTrue hupper =>
    have hsum : (c.val + ('a'.val - 'A'.val)).toNat = c.toNat + 32 := by
      rw [UInt32.toNat_add, hoffset, Char.toNat_val]
      omega
    exact hsum
  case isFalse => rfl

/-- What becomes of a character, by its number. -/
lemma toNat_identifierChar (c : Char) : (identifierChar c).toNat
    = if 65 ≤ c.toNat ∧ c.toNat ≤ 90 then c.toNat + 32
      else if 97 ≤ c.toNat ∧ c.toNat ≤ 122 ∨ 48 ≤ c.toNat ∧ c.toNat ≤ 57 then c.toNat else 95 := by
  have hlow : '_'.toNat = 95 := rfl
  rw [identifierChar]
  by_cases h : c.isAlphanum = true
  · rw [if_pos h, toNat_toLower]
    rw [isAlphanum_iff] at h
    split_ifs <;> omega
  · rw [if_neg h, hlow]
    rw [isAlphanum_iff] at h
    split_ifs <;> omega

/-- What a character becomes in a name may stand in a name. -/
lemma nameCharacter_identifierChar (c : Char) : NameCharacter (identifierChar c) := by
  rw [nameCharacter_iff, toNat_identifierChar]
  split_ifs <;> omega

lemma identifierChar_of_nameCharacter {c : Char} (h : NameCharacter c) : identifierChar c = c := by
  rw [nameCharacter_iff] at h
  rw [← Char.toNat_inj, toNat_identifierChar]
  split_ifs <;> omega

/-- Two characters become the same in names if they are alike there. -/
lemma identifierChar_eq_iff {a b : Char} :
    identifierChar a = identifierChar b ↔ AlikeInNames a b := by
  simp only [AlikeInNames, ← Char.toNat_inj, toNat_identifierChar, toNat_toLower,
    ← Bool.not_eq_true, isAlphanum_iff]
  split_ifs <;> omega

/-! ## Names -/

/-- A text that becomes part of a name as it is. -/
def Plain (s : String) : Prop := ∀ c ∈ s.toList, NameCharacter c

lemma Plain.append {s t : String} (hs : Plain s) (ht : Plain t) : Plain (s ++ t) := by
  intro c hc
  rw [String.toList_append, List.mem_append] at hc
  exact hc.elim (hs c) (ht c)

lemma plain_underscore : Plain "_" := by
  intro c hc
  exact Or.inr (Or.inr (List.mem_singleton.mp hc))

lemma toList_identifier (s : String) : (identifier s).toList = s.toList.map identifierChar := by
  rw [identifier, String.toList_ofList]

lemma identifier_of_plain {s : String} (h : Plain s) : identifier s = s := by
  have hmap : s.toList.map identifierChar = s.toList.map id :=
    List.map_congr_left fun c hc => identifierChar_of_nameCharacter (h c hc)
  rw [identifier, hmap, List.map_id, String.ofList_toList]

lemma identifier_append (s t : String) : identifier (s ++ t) = identifier s ++ identifier t := by
  apply String.toList_inj.mp
  rw [String.toList_append, toList_identifier, toList_identifier, toList_identifier,
    String.toList_append, List.map_append]

/-- The name of an index is that of the collection and that of the field, with an underscore
between. -/
lemma indexName_parts (c f : String) :
    indexName c f = "idx_documents_" ++ identifier c ++ "_" ++ identifier f := by
  -- the equation that unfolding looks for takes long to make
  delta indexName
  rfl

/-- All names begin in the same way, and go on with the collection and the field as with one text. -/
lemma indexName_eq (c f : String) :
    indexName c f = "idx_documents_" ++ identifier (c ++ "_" ++ f) := by
  rw [identifier_append, identifier_append, identifier_of_plain plain_underscore, indexName_parts]
  simp only [String.append_assoc]

/-- **The characters of names.** -/
theorem nameCharacter_of_mem_indexName {c f : String} {x : Char} (h : x ∈ (indexName c f).toList) :
    NameCharacter x := by
  have hstart : "idx_documents_".toList.map identifierChar = "idx_documents_".toList := by decide
  rw [indexName_eq, String.toList_append, List.mem_append, ← hstart, toList_identifier,
    List.mem_map, List.mem_map] at h
  rcases h with ⟨y, -, rfl⟩ | ⟨y, -, rfl⟩
  · exact nameCharacter_identifierChar y
  · exact nameCharacter_identifierChar y

/-- Two indexes have one name if their collections and fields do, joined by the underscore. -/
lemma indexName_eq_iff_identifier {c f c' f' : String} : indexName c f = indexName c' f'
    ↔ identifier (c ++ "_" ++ f) = identifier (c' ++ "_" ++ f') := by
  rw [indexName_eq, indexName_eq, ← String.toList_inj, String.toList_append, String.toList_append,
    List.append_cancel_left_eq, String.toList_inj]

/-- **Which names are the same.** -/
theorem indexName_eq_iff {c f c' f' : String} : indexName c f = indexName c' f'
    ↔ List.Forall₂ AlikeInNames (c ++ "_" ++ f).toList (c' ++ "_" ++ f').toList := by
  rw [indexName_eq_iff_identifier, ← String.toList_inj, toList_identifier, toList_identifier,
    ← List.forall₂_eq_eq_eq, List.forall₂_map_left_iff, List.forall₂_map_right_iff]
  simp only [identifierChar_eq_iff]

lemma toList_joined (c f : String) : (c ++ "_" ++ f).toList = c.toList ++ '_' :: f.toList := by
  rw [String.toList_append, String.toList_append, List.append_assoc]
  rfl

/-- One of two ways to cut a text at an underscore comes first, or they are the same. -/
lemma cut_of_append {c f c' f' : String} {rest : List Char} (hc : c'.toList = c.toList ++ rest)
    (hf : '_' :: f.toList = rest ++ '_' :: f'.toList) :
    c = c' ∧ f = f' ∨ ∃ x, c' = c ++ "_" ++ x ∧ f = x ++ "_" ++ f' := by
  rcases List.cons_eq_append_iff.mp hf with ⟨rfl, hrest⟩ | ⟨x, rfl, hrest⟩
  · rw [List.append_nil] at hc
    obtain ⟨-, hrest⟩ := List.cons.inj hrest
    exact Or.inl ⟨String.toList_inj.mp hc.symm, String.toList_inj.mp hrest.symm⟩
  · refine Or.inr ⟨String.ofList x, String.toList_inj.mp ?_, String.toList_inj.mp ?_⟩
    · rw [toList_joined, String.toList_ofList, hc]
    · rw [toList_joined, String.toList_ofList, hrest]

/-- Where a text may be cut at an underscore. -/
lemma append_underscore_eq_iff {c f c' f' : String} : c ++ "_" ++ f = c' ++ "_" ++ f'
    ↔ c = c' ∧ f = f' ∨ (∃ x, c' = c ++ "_" ++ x ∧ f = x ++ "_" ++ f')
      ∨ ∃ x, c = c' ++ "_" ++ x ∧ f' = x ++ "_" ++ f := by
  constructor
  · intro h
    rw [← String.toList_inj, toList_joined, toList_joined] at h
    rcases List.append_eq_append_iff.mp h with ⟨rest, hc, hf⟩ | ⟨rest, hc, hf⟩
    · exact (cut_of_append hc hf).imp_right Or.inl
    · rcases cut_of_append hc hf with ⟨rfl, rfl⟩ | hlater
      · exact Or.inl ⟨rfl, rfl⟩
      · exact Or.inr (Or.inr hlater)
  · rintro (⟨rfl, rfl⟩ | ⟨x, rfl, rfl⟩ | ⟨x, rfl, rfl⟩)
    · rfl
    · simp only [String.append_assoc]
    · simp only [String.append_assoc]

/-- Names in one collection are told apart if the fields are plain. -/
lemma indexName_eq_iff_of_plain_fields {c f f' : String} (hf : Plain f) (hf' : Plain f') :
    indexName c f = indexName c f' ↔ f = f' := by
  have hcancel (start : String) : start ++ f = start ++ f' ↔ f = f' := by
    rw [← String.toList_inj, String.toList_append, String.toList_append,
      List.append_cancel_left_eq, String.toList_inj]
  rw [indexName_parts, indexName_parts, identifier_of_plain hf, identifier_of_plain hf', hcancel]

/-- Names made of plain texts are told apart unless one collection goes on where the other one ends,
with an underscore, and the field of the other one makes up for it. -/
lemma indexName_eq_iff_of_plain {c f c' f' : String} (hc : Plain c) (hf : Plain f)
    (hc' : Plain c') (hf' : Plain f') : indexName c f = indexName c' f'
    ↔ c = c' ∧ f = f' ∨ (∃ x, c' = c ++ "_" ++ x ∧ f = x ++ "_" ++ f')
      ∨ ∃ x, c = c' ++ "_" ++ x ∧ f' = x ++ "_" ++ f := by
  rw [indexName_eq_iff_identifier, identifier_of_plain ((hc.append plain_underscore).append hf),
    identifier_of_plain ((hc'.append plain_underscore).append hf'), append_underscore_eq_iff]

/-! ## Statements -/

lemma isWordChar_of_nameCharacter {c : Char} (h : NameCharacter c) : Token.isWordChar c = true := by
  rw [Token.isWordChar, Bool.or_eq_true, isAlphanum_iff, beq_iff_eq, ← Char.toNat_inj]
  rw [nameCharacter_iff] at h
  have hlow : '_'.toNat = 95 := rfl
  omega

/-- A word goes on as long as there are characters for it. -/
lemma feed_word {cs : List Char} (h : ∀ c ∈ cs, Token.isWordChar c = true) (ds : List Char) :
    (Token.Mode.word ds).feed cs = some ([], .word (ds ++ cs)) := by
  induction cs generalizing ds with
  | nil =>
      rw [List.append_nil]
      rfl
  | cons c cs ih =>
      have hrest := ih (fun d hd => h d (List.mem_cons_of_mem c hd)) (ds ++ [c])
      simp [Token.Mode.feed, Token.Mode.step, Token.Mode.extend?, h c List.mem_cons_self, hrest]

/-- The text of a statement up to the field. -/
def indexOpening (c f : String) : String :=
  "CREATE INDEX IF NOT EXISTS " ++ indexName c f ++ " ON documents (collection, "

/-- What is read of that text: the name of the index is one word of it. -/
def openingTokens (c f : String) : List Token :=
  [.word "CREATE", .word "INDEX", .word "IF", .word "NOT", .word "EXISTS", .word (indexName c f),
    .word "ON", .word "documents", .mark '(', .word "collection", .mark ',']

/-- A name is read as one word. -/
lemma feed_indexOpening (c f : String) :
    Token.Mode.between.feed (indexOpening c f).toList = some (openingTokens c f, .between) := by
  have hcreate : Token.Mode.between.feed "CREATE INDEX IF NOT EXISTS ".toList
      = some ([.word "CREATE", .word "INDEX", .word "IF", .word "NOT", .word "EXISTS"], .between) := by
    decide +kernel
  have hstart : Token.Mode.between.feed "idx_documents_".toList
      = some ([], .word "idx_documents_".toList) := by
    decide +kernel
  have hrest : (Token.Mode.word "idx_documents_".toList).feed (identifier (c ++ "_" ++ f)).toList
      = some ([], .word (indexName c f).toList) := by
    rw [indexName_eq, String.toList_append]
    refine feed_word (fun x hx => isWordChar_of_nameCharacter ?_) _
    rw [toList_identifier, List.mem_map] at hx
    obtain ⟨y, -, rfl⟩ := hx
    exact nameCharacter_identifierChar y
  have hon : (Token.Mode.word (indexName c f).toList).feed " ON documents (collection, ".toList
      = some ([.word (String.ofList (indexName c f).toList), .word "ON", .word "documents", .mark '(',
        .word "collection", .mark ','], .between) := rfl
  have hname : (indexName c f).toList
      = "idx_documents_".toList ++ (identifier (c ++ "_" ++ f)).toList := by
    rw [indexName_eq, String.toList_append]
  rw [String.ofList_toList] at hon
  have hfeed := Token.Mode.feed_append hcreate
    (Token.Mode.feed_append (Token.Mode.feed_append hstart hrest) hon)
  rw [← hname, ← String.toList_append, ← String.toList_append, ← String.append_assoc] at hfeed
  exact hfeed

/-- The name of an index is one word of its statement. -/
lemma wordTokens_indexOpening (c f : String) :
    Statement.wordTokens (indexOpening c f) = openingTokens c f ++ [] :=
  Statement.wordTokens_eq (feed_indexOpening c f) Token.Mode.ready_between

/-- The opening of the statement is read by itself, whatever the collection and the field are. -/
lemma clean_indexOpening (c f : String) : Statement.Clean false false (indexOpening c f) := by
  refine ⟨nofun, ⟨_, _, _, feed_indexOpening c f, Token.Mode.ready_between, fun _ => rfl,
    wordTokens_indexOpening c f⟩, ?_⟩
  rw [wordTokens_indexOpening]
  simp [openingTokens, Statement.isPlain]

/-- **The index that a statement makes**: under the name, for the field. -/
theorem ofStatement?_indexCommand (c f : String) :
    Index.ofStatement? (indexCommand c f) = some ⟨indexName c f, f⟩ := by
  have hcommand : indexCommand c f
      = .word (indexOpening c f) :: (docField f ++ [.word ")"]) := rfl
  have hspaced : Statement.Spaced false (indexCommand c f) := by
    rw [hcommand]
    exact .word (clean_indexOpening c f) nofun
      (spaced_docField (.word clean_closing nofun .nil))
  have htokens : Statement.tokensFrom 1 (indexCommand c f) = openingTokens c f
      ++ [.mark '(', .word "doc", .sign "->", .literal f, .mark ')', .mark ')'] := by
    have hopening : Statement.wordTokens "(doc -> " = [.mark '(', .word "doc", .sign "->"] := by
      decide +kernel
    have hclosing : Statement.wordTokens ")" = [.mark ')'] := by decide +kernel
    have hpieces : Statement.tokensFrom 1 (indexCommand c f)
        = Statement.wordTokens (indexOpening c f) ++ (Statement.wordTokens "(doc -> "
          ++ .literal f :: (Statement.wordTokens ")" ++ (Statement.wordTokens ")" ++ []))) := rfl
    rw [hpieces, wordTokens_indexOpening, hopening, hclosing, List.append_nil]
    rfl
  rw [Index.ofStatement?, Statement.lex?_text hspaced, htokens]
  rfl

/-! ## One request after the other -/

namespace Indexes

/-- An index that is made has its name, unless there was one of this name. -/
lemma field?_make (k : Indexes) (i : Index) (name : String) :
    (k.make i).field? name
      = (k.field? name).or (if i.name = name then some i.field else none) := by
  rw [make]
  split
  case isTrue hthere =>
    by_cases hname : i.name = name
    · subst hname
      rw [Option.or_of_isSome hthere]
    · rw [if_neg hname, Option.or_none]
  case isFalse =>
    by_cases hname : i.name = name <;>
      simp [field?, List.find?_append, hname]

variable (keeps : String → String)

/-- The index that a request for a field of a collection asks for, with the name that is kept. -/
def ofRequest (r : String × String) : Index := ⟨keeps (indexName r.1 r.2), r.2⟩

/-- The indexes after some requests. -/
def afterRequests (rs : List (String × String)) (k : Indexes) : Indexes :=
  rs.foldl (fun k r => k.make (ofRequest keeps r)) k

/-- The field of the first request that asks for an index of a name. -/
def firstField? (rs : List (String × String)) (name : String) : Option String :=
  (rs.find? fun r => keeps (indexName r.1 r.2) == name).map (·.2)

/-- **The first request with a name is the one that counts**, if there was no index of the name. -/
theorem field?_afterRequests (rs : List (String × String)) (k : Indexes) (name : String) :
    (afterRequests keeps rs k).field? name = (k.field? name).or (firstField? keeps rs name) := by
  induction rs generalizing k with
  | nil => exact (Option.or_none ..).symm
  | cons r rest ih =>
      have hfirst : firstField? keeps (r :: rest) name
          = (if (ofRequest keeps r).name = name then some r.2 else none).or
            (firstField? keeps rest name) := by
        by_cases hname : keeps (indexName r.1 r.2) = name <;> simp [firstField?, ofRequest, hname]
      have hrest : afterRequests keeps (r :: rest) k
          = afterRequests keeps rest (k.make (ofRequest keeps r)) := rfl
      rw [hrest, ih, field?_make, hfirst, Option.or_assoc]
      rfl

/-- Every request has its index in the end exactly if requests for different fields have different
names. -/
lemma all_made_iff (rs : List (String × String)) :
    (∀ r ∈ rs, (afterRequests keeps rs []).field? (keeps (indexName r.1 r.2)) = some r.2)
      ↔ ∀ r ∈ rs, ∀ r' ∈ rs, keeps (indexName r.1 r.2) = keeps (indexName r'.1 r'.2) → r.2 = r'.2 := by
  constructor
  · intro h r hr r' hr' hname
    have hown := h r hr
    rw [hname, h r' hr'] at hown
    exact (Option.some.inj hown).symm
  · intro h r hr
    have hfound : (rs.find? fun r' => keeps (indexName r'.1 r'.2)
        == keeps (indexName r.1 r.2)).isSome := List.find?_isSome.mpr ⟨r, hr, beq_self_eq_true _⟩
    obtain ⟨first, hfirst⟩ := Option.isSome_iff_exists.mp hfound
    have hname : keeps (indexName first.1 first.2) = keeps (indexName r.1 r.2) := by
      simpa using List.find?_some hfirst
    have hfield : first.2 = r.2 := h first (List.mem_of_find?_eq_some hfirst) r hr hname
    rw [field?_afterRequests, firstField?, hfirst, Option.map_some, hfield]
    rfl

/-- Carrying out the statement makes the index that it asks for. -/
lemma run_affected (k : Indexes) (c f : String) :
    ((connection keeps).affected (indexCommand c f)).run.run k
      = (.ok 0, k.make (ofRequest keeps (c, f))) := by
  have hexecute : (connection keeps).execute (indexCommand c f)
      = do
        modify (·.make (ofRequest keeps (c, f)))
        return 0 := by
    simp only [connection, ofStatement?_indexCommand]
    rfl
  rw [Connection.affected, hexecute]
  rfl

lemma run_createIndexes (k : Indexes) (c : String) (fields : List String) :
    (Documents.createIndexes (connection keeps) c fields).run.run k
      = (.ok (), afterRequests keeps (fields.map (c, ·)) k) := by
  induction fields generalizing k with
  | nil => rfl
  | cons f rest ih =>
      rw [Documents.createIndexes] at ih ⊢
      rw [List.forM, ExceptT.run_bind, ExceptT.run_bind, StateT.run_bind, StateT.run_bind,
        run_affected]
      exact ih _

end Indexes

/-! ## Calls -/

/-- Asks a document store for indexes, call by call: each for some fields of a collection. -/
def makeIndexes {m : Type → Type} [Monad m] (store : DocumentStore m)
    (calls : List (String × List String)) : m (List (Except Error Unit)) :=
  calls.mapM fun (c, fields) => (store.createIndexes c fields).run

/-- The requests that calls consist of: a collection and a field each. -/
def requests (calls : List (String × List String)) : List (String × String) :=
  calls.flatMap fun (c, fields) => fields.map (c, ·)

/-- Calls that are answered alike are all answered so, and leave behind what one after the other
leaves. -/
lemma run_makeIndexes {σ : Type} {store : DocumentStore (StateM σ)}
    (after : String × List String → σ → σ)
    (h : ∀ c fields s, (store.createIndexes c fields).run.run s = (.ok (), after (c, fields) s))
    (calls : List (String × List String)) (s : σ) : (makeIndexes store calls).run s
      = (calls.map fun _ => .ok (), calls.foldl (fun s call => after call s) s) := by
  induction calls generalizing s with
  | nil => rfl
  | cons call rest ih =>
      rw [makeIndexes, List.mapM_cons, StateT.run_bind, h]
      -- the calls that remain start from what the first has left
      show (do
        let (answers, s) ← (makeIndexes store rest).run (after call s)
        pure (.ok () :: answers, s) : Id _) = _
      rw [ih]
      rfl

lemma mem_requests_cons {call : String × List String} {rest : List (String × List String)}
    {c f : String} : (c, f) ∈ requests (call :: rest)
      ↔ c = call.1 ∧ f ∈ call.2 ∨ (c, f) ∈ requests rest := by
  rw [requests, List.flatMap_cons, List.mem_append, List.mem_map]
  refine or_congr_left ?_
  constructor
  · rintro ⟨f, hf, ⟨⟩⟩
    exact ⟨rfl, hf⟩
  · rintro ⟨rfl, hf⟩
    exact ⟨f, hf, rfl⟩

namespace Indexes

/-- Calls one after the other do what their requests do. -/
lemma afterRequests_requests (keeps : String → String) (calls : List (String × List String))
    (k : Indexes) : calls.foldl (fun k call => afterRequests keeps (call.2.map (call.1, ·)) k) k
      = afterRequests keeps (requests calls) k := by
  rw [afterRequests, requests, List.foldl_flatMap]
  rfl

/-- Every call is answered, and the indexes are those after all requests. -/
lemma run_makeIndexes (keeps : String → String) (note : Notice → StateM Indexes Unit)
    (calls : List (String × List String)) (k : Indexes) :
    (makeIndexes (Documents.store (connection keeps) note) calls).run k
      = (calls.map fun _ => .ok (), afterRequests keeps (requests calls) k) := by
  rw [← afterRequests_requests]
  exact Sql.run_makeIndexes (fun call => afterRequests keeps (call.2.map (call.1, ·)))
    (fun c fields k => run_createIndexes keeps k c fields) calls k

end Indexes

end FleetLedger.Sql

namespace FleetLedger

/-! ## In memory -/

namespace Memory

/-- In memory a field is indexed if it was or if that is asked for. -/
lemma mem_indexedFields_createIndexes {s : Memory} {c c' f : String} {fields : List String} :
    f ∈ (s.createIndexes c fields).indexedFields c'
      ↔ f ∈ s.indexedFields c' ∨ c' = c ∧ f ∈ fields := by
  have hfields : (fields.map (·, ())).map (·.1) = fields := by
    rw [List.map_map]
    exact List.map_id _
  rw [indexedFields, indexedFields, createIndexes, Table.get?_insert]
  by_cases h : c = c'
  · subst h
    rw [if_pos rfl, Option.getD_some, ← Table.isSome_get?_iff, Table.isSome_get?_merge, hfields,
      Table.isSome_get?_iff]
    simp
  · rw [if_neg h]
    simp [Ne.symm h]

/-- In memory a field is indexed if it was, or if a call asks for it. -/
lemma mem_indexedFields_foldl {calls : List (String × List String)} {s : Memory} {c f : String} :
    f ∈ (calls.foldl (fun s call => s.createIndexes call.1 call.2) s).indexedFields c
      ↔ f ∈ s.indexedFields c ∨ (c, f) ∈ Sql.requests calls := by
  induction calls generalizing s with
  | nil => simp [Sql.requests]
  | cons call rest ih =>
      rw [List.foldl_cons, ih, mem_indexedFields_createIndexes, Sql.mem_requests_cons, or_assoc]

/-- The store in memory has an index for everything that was asked for. -/
lemma mem_indexedFields_run {calls : List (String × List String)} {s : Memory} {c f : String} :
    f ∈ ((Sql.makeIndexes Memory.store calls).run s).2.indexedFields c
      ↔ f ∈ s.indexedFields c ∨ (c, f) ∈ Sql.requests calls := by
  have hcall (c : String) (fields : List String) (s : Memory) :
      (store.createIndexes c fields).run.run s = (.ok (), s.createIndexes c fields) := rfl
  rw [Sql.run_makeIndexes (fun call s => s.createIndexes call.1 call.2) hcall]
  exact mem_indexedFields_foldl

end Memory

end FleetLedger

namespace FleetLedger.Sql

open Indexes

/-- **Indexes go by their names.**  A name is made of small letters, digits and underscores.  Two names
are the same if collection, underscore and field read alike as one text; plain texts do so only where a
collection goes on with an underscore, so within one collection plain fields have names of their own.

Calls for indexes are all answered that it is done, and the first request with a name is the one whose
field is indexed.  So every field has its index only if requests for different fields have different
names, as far as the database keeps them.  In memory every request counts. -/
theorem indexes_by_name (c f c' f' : String) (keeps : String → String)
    (note : Notice → StateM Indexes Unit) (k : Indexes) (calls : List (String × List String)) :
    (∀ x ∈ (indexName c f).toList, NameCharacter x)
    ∧ (indexName c f = indexName c' f'
      ↔ List.Forall₂ AlikeInNames (c ++ "_" ++ f).toList (c' ++ "_" ++ f').toList)
    ∧ (Plain f → Plain f' → (indexName c f = indexName c f' ↔ f = f'))
    ∧ (Plain c → Plain f → Plain c' → Plain f' →
      (indexName c f = indexName c' f' ↔ c = c' ∧ f = f'
        ∨ (∃ x, c' = c ++ "_" ++ x ∧ f = x ++ "_" ++ f')
        ∨ ∃ x, c = c' ++ "_" ++ x ∧ f' = x ++ "_" ++ f))
    ∧ (∃ k', (makeIndexes (Documents.store (connection keeps) note) calls).run k
        = (calls.map fun _ => .ok (), k')
      ∧ (∀ name, k'.field? name = (k.field? name).or (firstField? keeps (requests calls) name))
      ∧ (k = [] →
        ((∀ r ∈ requests calls, k'.field? (keeps (indexName r.1 r.2)) = some r.2)
          ↔ ∀ r ∈ requests calls, ∀ r' ∈ requests calls,
            keeps (indexName r.1 r.2) = keeps (indexName r'.1 r'.2) → r.2 = r'.2)))
    ∧ ∀ s : Memory, f ∈ ((makeIndexes Memory.store calls).run s).2.indexedFields c
      ↔ f ∈ s.indexedFields c ∨ (c, f) ∈ requests calls := by
  refine ⟨fun _ => nameCharacter_of_mem_indexName, indexName_eq_iff,
    indexName_eq_iff_of_plain_fields, indexName_eq_iff_of_plain, ?_,
    fun _ => Memory.mem_indexedFields_run⟩
  refine ⟨_, Indexes.run_makeIndexes keeps note calls k, field?_afterRequests keeps _ k, ?_⟩
  rintro rfl
  exact all_made_iff keeps (requests calls)

/-- The indexes of the ledger have names of their own. -/
example : ((requests Ledger.indexPlan).map fun r => indexName r.1 r.2).Nodup := by
  decide +kernel

/-- Two requests for different fields with one name: the second one is answered that it is done, and
its field has no index. -/
theorem index_skipped :
    ¬ (∀ c f c' f', (c, f) ≠ (c', f') → indexName c f ≠ indexName c' f')
    ∧ ¬ ∀ (note : Notice → StateM Indexes Unit) (calls : List (String × List String)),
      ∀ r ∈ requests calls,
        ((makeIndexes (Documents.store (connection id) note) calls).run []).2.field?
          (indexName r.1 r.2) = some r.2 := by
  have hname : indexName "jobwatch_job" "log_ip" = indexName "jobwatch_job_log" "ip" := by
    decide +kernel
  refine ⟨fun h => h _ _ _ _ (by decide) hname, fun h => ?_⟩
  have hall := h (fun _ => pure ()) [("jobwatch_job", ["log_ip"]), ("jobwatch_job_log", ["ip"])]
  rw [Indexes.run_makeIndexes] at hall
  have hfields := (all_made_iff id _).mp hall ("jobwatch_job", "log_ip") (by decide)
    ("jobwatch_job_log", "ip") (by decide) hname
  exact absurd hfields (by decide)

end FleetLedger.Sql
