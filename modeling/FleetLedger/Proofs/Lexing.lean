import FleetLedger.Proofs.Numerals
import FleetLedger.Sql.Token

/-!
# The tokens of a statement

A statement is put together from pieces, and a database sees only its text.  **`lex?_text`**: the tokens
of the text are those of the pieces, one after the other, if the pieces keep apart.

Reading goes from the left, so what is read of a piece depends on the mode that the pieces before it
leave behind.  Behind a literal, a placeholder or a word that may go on (`Ready`), the next piece has
to begin with a separator.  Literals and placeholders never do, and words are checked one by one
(`clean`): nothing in the proof depends on what they are.

With the tokens at hand, a statement shows its literals and placeholders at their places
(`filterMap_slot?`), its values not at all (`text_masked`), and the texts of its literals nowhere else
(`map_renamed`).
-/

namespace FleetLedger.Sql

namespace Token.Mode

/-- Reads characters one after the other: the tokens that are complete, and where one is then. -/
def feed (m : Mode) : List Char → Option (List Token × Mode)
  | [] => some ([], m)
  | c :: cs =>
    match m.step c with
    | some (tokens, next) => (next.feed cs).map fun (later, last) => (tokens ++ later, last)
    | none => none

/-- A character that is read gives its tokens, and the rest is read from where one is then. -/
lemma tokens?_cons {m next : Mode} {c : Char} {tokens : List Token}
    (hstep : m.step c = some (tokens, next)) (cs : List Char) :
    m.tokens? (c :: cs) = (next.tokens? cs).map (tokens ++ ·) := by
  rw [tokens?, hstep]

/-- **What was read stands before** what is read from there on. -/
theorem tokens?_append {m last : Mode} {cs : List Char} {tokens : List Token}
    (h : m.feed cs = some (tokens, last)) (ds : List Char) :
    m.tokens? (cs ++ ds) = (last.tokens? ds).map (tokens ++ ·) := by
  induction cs generalizing m tokens with
  | nil =>
      obtain ⟨rfl, rfl⟩ := Prod.mk.inj (Option.some.inj h)
      exact Option.map_id'.symm
  | cons c cs ih =>
      rw [feed] at h
      split at h
      case h_1 read next hstep =>
        obtain ⟨⟨later, last'⟩, hfeed, heq⟩ := Option.map_eq_some_iff.mp h
        obtain ⟨rfl, rfl⟩ := Prod.mk.inj heq
        rw [List.cons_append, tokens?_cons hstep, ih hfeed, Option.map_map]
        exact congrArg (Option.map · _) (funext fun rest => (List.append_assoc ..).symm)
      case h_2 => cases h

lemma feed_append {m next last : Mode} {cs ds : List Char} {tokens later : List Token}
    (h : m.feed cs = some (tokens, next)) (hnext : next.feed ds = some (later, last)) :
    m.feed (cs ++ ds) = some (tokens ++ later, last) := by
  induction cs generalizing m tokens with
  | nil =>
      obtain ⟨rfl, rfl⟩ := Prod.mk.inj (Option.some.inj h)
      exact hnext
  | cons c cs ih =>
      rw [feed] at h
      split at h
      case h_1 read middle hstep =>
        obtain ⟨⟨rest, end'⟩, hfeed, heq⟩ := Option.map_eq_some_iff.mp h
        obtain ⟨rfl, rfl⟩ := Prod.mk.inj heq
        rw [List.cons_append, feed, hstep]
        simp only [ih hfeed, Option.map_some, List.append_assoc]
      case h_2 => cases h

/-- A character that does not belong to the token before it is read as if it stood alone. -/
lemma tokens?_cons_of_apart {m : Mode} {c : Char} {ended : List Token}
    (hextend : m.extend? c = none) (hclash : m.clashes c = false) (hfinish : m.finish = some ended)
    (cs : List Char) :
    m.tokens? (c :: cs) = (between.tokens? (c :: cs)).map (ended ++ ·) := by
  have hstep : m.step c = (start c).map fun x => (ended ++ x.1, x.2) := by
    rw [step, hextend]
    simp only [hclash, hfinish]
    cases start c <;> rfl
  have hbetween : between.step c = start c := by
    rw [step]
    simp only [extend?, clashes, finish]
    cases start c <;> rfl
  rw [tokens?, tokens?, hbetween, hstep]
  cases start c with
  | none => rfl
  | some r =>
      simp only [Option.map_some, Option.map_map]
      exact congrArg (Option.map · _) (funext fun rest => List.append_assoc ..)

/-! ## What is read where -/

/-- The characters that may follow on any token. -/
def separators : List Char := [' ', ',', ')', ':']

/-- A token may end here, and any separator may follow. -/
structure Ready (m : Mode) (ended : List Token) : Prop where
  finish : m.finish = some ended
  extend? : ∀ c ∈ separators, m.extend? c = none
  clashes : ∀ c ∈ separators, m.clashes c = false

lemma ready_between : Ready between [] := ⟨rfl, fun _ _ => rfl, fun _ _ => rfl⟩

lemma Ready.ended_eq_nil {ended : List Token} (h : Ready between ended) : ended = [] :=
  (Option.some.inj h.finish).symm

/-- Behind the closing mark of a literal, the literal is complete. -/
lemma ready_closing (value : String) : Ready (closing value.toList) [.literal value] where
  finish := by rw [finish, String.ofList_toList]
  extend? := by simp [separators, extend?]
  clashes := fun _ _ => rfl

/-- Inside a literal all characters are read, with marks doubled. -/
lemma feed_doubled (cs ds : List Char) :
    (literal ds).feed (Statement.doubled cs) = some ([], literal (ds ++ cs)) := by
  induction cs generalizing ds with
  | nil => simp [Statement.doubled, feed]
  | cons c cs ih =>
      have hdoubled : Statement.doubled (c :: cs)
          = (if c = '\'' then ['\'', '\''] else [c]) ++ Statement.doubled cs := List.flatMap_cons
      have hrest : (literal (ds ++ [c])).feed (Statement.doubled cs)
          = some ([], literal (ds ++ c :: cs)) := by simpa using ih (ds ++ [c])
      rw [hdoubled]
      split
      · rename_i hc
        subst hc
        simp [feed, step, extend?, hrest]
      · rename_i hc
        simp [feed, step, extend?, hc, hrest]

/-- **A literal stands for its text**, whatever characters are in it. -/
theorem tokens?_quoted (value : String) (rest : List Char) :
    between.tokens? ((Statement.quoted value).toList ++ rest)
      = (closing value.toList).tokens? rest := by
  have hopened : between.feed ['\''] = some ([], literal []) := rfl
  have hinside := feed_doubled value.toList []
  have hclosed : (literal value.toList).feed ['\''] = some ([], closing value.toList) := by
    simp [feed, step, extend?]
  rw [List.nil_append] at hinside
  have hlist : (Statement.quoted value).toList ++ rest
      = ['\''] ++ (Statement.doubled value.toList ++ (['\''] ++ rest)) := by
    simp [Statement.quoted]
  rw [hlist, tokens?_append hopened, tokens?_append hinside, tokens?_append hclosed]
  simp

example : lex? "doc -> 'it''s $1' = $12"
    = some [.word "doc", .sign "->", .literal "it's $1", .sign "=", .parameter 12] := by
  decide +kernel

lemma feed_digits {cs : List Char} (h : ∀ c ∈ cs, c.isDigit = true) (ds : List Char) :
    (parameter ds).feed cs = some ([], parameter (ds ++ cs)) := by
  induction cs generalizing ds with
  | nil => simp [feed]
  | cons c cs ih =>
      have hrest := ih (fun d hd => h d (List.mem_cons_of_mem c hd)) (ds ++ [c])
      simp [feed, step, extend?, h c List.mem_cons_self, hrest]

/-- Behind the digits of a placeholder, it is complete with its number. -/
lemma ready_parameter (n : Nat) : Ready (parameter (Nat.toDigits 10 n)) [.parameter n] where
  finish := by
    have hne : (Nat.toDigits 10 n).isEmpty = false := by
      simp [Nat.toDigits_ne_nil]
    have hvalue : Nat.ofDigitChars 10 (Nat.toDigits 10 n) 0 = n := Nat.ofDigitChars_ten_toDigits
    rw [finish, hne, hvalue]
    rfl
  extend? := by simp [separators, extend?]
  clashes := by simp [separators, clashes, isWordChar]

/-- **A placeholder is read with its number.** -/
theorem tokens?_placeholder (n : Nat) (rest : List Char) :
    between.tokens? (("$" ++ toString n).toList ++ rest)
      = (parameter (Nat.toDigits 10 n)).tokens? rest := by
  have hdollar : between.feed ['$'] = some ([], parameter []) := by decide
  have hdigits : (parameter []).feed (Nat.toDigits 10 n)
      = some ([], parameter ([] ++ Nat.toDigits 10 n)) :=
    feed_digits (fun c hc => Numeral.isDigit_of_mem hc) []
  have hlist : ("$" ++ toString n).toList ++ rest
      = ['$'] ++ (Nat.toDigits 10 n ++ rest) := by
    simp [Nat.toList_repr]
  rw [hlist, tokens?_append hdollar, tokens?_append hdigits]
  simp

end Token.Mode

/-! ## Pieces that keep apart -/

namespace Statement

/-- A token of the language, and neither a literal nor a placeholder. -/
def isPlain : Token → Bool
  | .literal _ | .parameter _ => false
  | _ => true

/-- Characters that are read by themselves, to tokens of the language only.  Behind them any separator
may follow.  They begin with a separator if they are to follow on a token (`opens`), and unless they
may end within one (`holds`), anything may follow. -/
def isClean (opens holds : Bool) (cs : List Char) : Bool :=
  (!opens || cs.head?.any Token.Mode.separators.contains) &&
    match Token.Mode.between.feed cs with
    | some (tokens, m) =>
      match m.finish with
      | some ended =>
        (holds || m == .between) && (tokens ++ ended).all isPlain
          && Token.Mode.separators.all fun c => (m.extend? c).isNone && !m.clashes c
      | none => false
    | none => false

/-- The tokens of a word. -/
def wordTokens (text : String) : List Token := (Token.lex? text).getD []

/-- A word that is read by itself. -/
structure Clean (opens holds : Bool) (text : String) : Prop where
  opens : opens = true → ∃ c cs, text.toList = c :: cs ∧ c ∈ Token.Mode.separators
  reads : ∃ tokens m ended, Token.Mode.between.feed text.toList = some (tokens, m) ∧ m.Ready ended
    ∧ (holds = false → m = .between) ∧ wordTokens text = tokens ++ ended
  plain : ∀ t ∈ wordTokens text, isPlain t = true

/-- The tokens of a word are those that are complete, and the one that is open at its end. -/
lemma wordTokens_eq {text : String} {tokens ended : List Token} {m : Token.Mode}
    (hfeed : Token.Mode.between.feed text.toList = some (tokens, m)) (hready : m.Ready ended) :
    wordTokens text = tokens ++ ended := by
  have hlex : Token.lex? text = (m.tokens? []).map (tokens ++ ·) := by
    have happend := Token.Mode.tokens?_append hfeed []
    rwa [List.append_nil] at happend
  rw [wordTokens, hlex, Token.Mode.tokens?, hready.finish]
  rfl

/-- Whether a word is read by itself can be computed. -/
lemma clean {opens holds : Bool} {cs : List Char} (h : isClean opens holds cs = true) :
    Clean opens holds (String.ofList cs) := by
  rw [isClean, Bool.and_eq_true] at h
  obtain ⟨hopens, h⟩ := h
  have hhead : opens = true → ∃ c rest, cs = c :: rest ∧ c ∈ Token.Mode.separators := by
    intro ho
    cases cs with
    | nil => simp [ho] at hopens
    | cons c rest =>
        exact ⟨c, rest, rfl, List.contains_iff_mem.mp (by simpa [ho] using hopens)⟩
  split at h
  case h_1 tokens m hfeed =>
    split at h
    case h_1 ended hfinish =>
      simp only [Bool.and_eq_true, Bool.or_eq_true, beq_iff_eq, List.all_eq_true,
        Option.isNone_iff_eq_none, Bool.not_eq_true'] at h
      obtain ⟨⟨hholds, hplain⟩, hready⟩ := h
      have hready' : m.Ready ended :=
        ⟨hfinish, fun c hc => (hready c hc).1, fun c hc => (hready c hc).2⟩
      rw [← String.toList_ofList (l := cs)] at hfeed hhead
      have htokens := wordTokens_eq hfeed hready'
      exact ⟨hhead, ⟨tokens, m, ended, hfeed, hready',
        fun hnot => hholds.resolve_left (ne_true_of_eq_false hnot), htokens⟩, htokens ▸ hplain⟩
    case h_2 => cases h
  case h_2 => cases h

/-- A word may be read in two parts, if the first one ends between tokens. -/
lemma Clean.append {opens holds : Bool} {first second : String} (hfirst : Clean opens false first)
    (hsecond : Clean false holds second) : Clean opens holds (first ++ second) := by
  obtain ⟨tokens, m, ended, hfeed, hready, hm, htokens⟩ := hfirst.reads
  obtain ⟨later, last, final, hlater, hlast, hholds, hrest⟩ := hsecond.reads
  obtain rfl := hm rfl
  obtain rfl := hready.ended_eq_nil
  have hboth : Token.Mode.between.feed (first ++ second).toList
      = some (tokens ++ later, last) := by
    rw [String.toList_append]
    exact Token.Mode.feed_append hfeed hlater
  have hwords : wordTokens (first ++ second) = wordTokens first ++ wordTokens second := by
    rw [wordTokens_eq hboth hlast, htokens, hrest]
    simp
  refine ⟨fun ho => ?_, ⟨_, _, _, hboth, hlast, hholds, wordTokens_eq hboth hlast⟩, fun t ht => ?_⟩
  · obtain ⟨c, cs, htext, hc⟩ := hfirst.opens ho
    exact ⟨c, cs ++ second.toList, by rw [String.toList_append, htext, List.cons_append], hc⟩
  · rw [hwords] at ht
    exact (List.mem_append.mp ht).elim (hfirst.plain t) (hsecond.plain t)

/-- **The pieces of a statement keep apart**: behind what ends within a token stands a word that begins
with a separator. -/
inductive Spaced : Bool → Statement → Prop where
  | nil {pending : Bool} : Spaced pending []
  | word {pending opens holds : Bool} {text : String} {s : Statement} (h : Clean opens holds text)
      (hopens : pending = true → opens = true) (hs : Spaced holds s) :
      Spaced pending (.word text :: s)
  | literal {value : String} {s : Statement} (hs : Spaced true s) :
      Spaced false (.literal value :: s)
  | value {bind : Bind} {s : Statement} (hs : Spaced true s) : Spaced false (.value bind :: s)

/-- The tokens of a statement, with placeholders numbered from `number` on. -/
def tokensFrom (number : Nat) : Statement → List Token
  | [] => []
  | .word text :: s => wordTokens text ++ tokensFrom number s
  | .literal value :: s => .literal value :: tokensFrom number s
  | .value _ :: s => .parameter number :: tokensFrom (number + 1) s

/-- A word that begins with a separator is read as if it stood alone. -/
lemma tokens?_of_opens {m : Token.Mode} {ended : List Token} (hready : m.Ready ended)
    {holds : Bool} {text : String} (h : Clean true holds text) (rest : List Char) :
    m.tokens? (text.toList ++ rest)
      = (Token.Mode.between.tokens? (text.toList ++ rest)).map (ended ++ ·) := by
  obtain ⟨c, cs, htext, hc⟩ := h.opens rfl
  rw [htext]
  exact Token.Mode.tokens?_cons_of_apart (hready.extend? c hc) (hready.clashes c hc) hready.finish
    (cs ++ rest)

/-- **The tokens of the text of a statement** are those of its pieces, one after the other. -/
theorem tokens?_textsFrom {s : Statement} {pending : Bool} (hs : Spaced pending s) (number : Nat)
    {m : Token.Mode} {ended : List Token} (hready : m.Ready ended)
    (hm : pending = false → m = .between) :
    m.tokens? (String.join (textsFrom number s)).toList = some (ended ++ tokensFrom number s) := by
  induction hs generalizing number m ended with
  | nil =>
      rw [textsFrom, tokensFrom, List.append_nil]
      exact hready.finish
  | @word pending opens holds text s h hopens hs ih =>
      obtain ⟨tokens, next, last, hfeed, hnext, hholds, htokens⟩ := h.reads
      have hword : Token.Mode.between.tokens?
          (text.toList ++ (String.join (textsFrom number s)).toList)
          = some (wordTokens text ++ tokensFrom number s) := by
        rw [Token.Mode.tokens?_append hfeed, ih number hnext hholds, htokens]
        simp
      rw [textsFrom, String.join_cons, String.toList_append, tokensFrom]
      cases pending with
      | false =>
          obtain rfl := hm rfl
          rw [hready.ended_eq_nil]
          exact hword
      | true =>
          obtain rfl := hopens rfl
          exact (tokens?_of_opens hready h _).trans (congrArg _ hword)
  | @literal value s hs ih =>
      obtain rfl := hm rfl
      rw [textsFrom, String.join_cons, String.toList_append, hready.ended_eq_nil]
      exact (Token.Mode.tokens?_quoted value _).trans
        (ih number (Token.Mode.ready_closing value) Bool.noConfusion)
  | @value bind s hs ih =>
      obtain rfl := hm rfl
      rw [textsFrom, String.join_cons, String.toList_append, hready.ended_eq_nil]
      exact (Token.Mode.tokens?_placeholder number _).trans
        (ih (number + 1) (Token.Mode.ready_parameter number) Bool.noConfusion)

/-- **The text of a statement whose pieces keep apart can be read.** -/
theorem lex?_text {s : Statement} (h : Spaced false s) :
    Token.lex? s.text = some (tokensFrom 1 s) :=
  tokens?_textsFrom h 1 Token.Mode.ready_between fun _ => rfl

/-! ## Putting statements together -/

/-- What may stand behind an open token may stand anywhere. -/
lemma Spaced.of_true {s : Statement} (h : Spaced true s) (pending : Bool) : Spaced pending s := by
  cases h with
  | nil => exact .nil
  | word h hopens hs => exact .word h (fun _ => hopens rfl) hs

/-- What may follow on anything may follow on a statement. -/
lemma Spaced.append {pending : Bool} {s t : Statement} (hs : Spaced pending s)
    (ht : Spaced true t) : Spaced pending (s ++ t) := by
  induction hs with
  | nil => exact ht.of_true _
  | word h hopens _ ih => exact .word h hopens ih
  | literal _ ih => exact .literal ih
  | value _ ih => exact .value ih

/-- Parts that keep their pieces apart do so with a separator between them. -/
lemma spaced_separatedBy {separator : String} (h : Clean true false separator)
    {parts : List Statement} (hparts : ∀ s ∈ parts, Spaced false s) :
    Spaced false (separatedBy separator parts) := by
  induction parts with
  | nil => exact .nil
  | cons s rest ih =>
      have hs := hparts s List.mem_cons_self
      have hrest := ih fun t ht => hparts t (List.mem_cons_of_mem s ht)
      cases rest with
      | nil => exact hs
      | cons t rest => exact hs.append (.word h (fun _ => rfl) hrest)

/-! ## Literals and placeholders -/

/-- What a part of a statement stands for that is no word: a text in a literal, or a value. -/
inductive Place where
  | name (text : String)
  | value (bind : Bind)

/-- The place that a piece takes. -/
def place? : Piece → Option Place
  | .word _ => none
  | .literal text => some (.name text)
  | .value bind => some (.value bind)

/-- The places of a statement from the left. -/
def places (s : Statement) : List Place := s.filterMap place?

lemma places_append (s t : Statement) : (s ++ t).places = s.places ++ t.places :=
  List.filterMap_append

lemma places_separatedBy (separator : String) (parts : List Statement) :
    (separatedBy separator parts).places = parts.flatMap places := by
  induction parts with
  | nil => rfl
  | cons s rest ih =>
      cases rest with
      | nil => exact (List.append_nil _).symm
      | cons t rest =>
          have hword : places (.word separator :: separatedBy separator (t :: rest))
              = (separatedBy separator (t :: rest)).places := rfl
          rw [separatedBy, places_append, hword, ih]
          rfl

/-- The value that belongs to a place. -/
def Place.bind? : Place → Option Bind
  | .name _ => none
  | .value bind => some bind

/-- What is handed over are the values at their places. -/
lemma binds_eq (s : Statement) : s.binds = s.places.filterMap Place.bind? := by
  rw [binds, places, List.filterMap_filterMap]
  refine congrArg (List.filterMap · s) (funext fun p => ?_)
  cases p <;> rfl

/-- What a token shows that is not of the language: the text of a literal, or a number. -/
def slot? : Token → Option (String ⊕ Nat)
  | .literal text => some (.inl text)
  | .parameter number => some (.inr number)
  | _ => none

/-- Places as they show in a text, with the values numbered from `number` on. -/
def slotsFrom (number : Nat) : List Place → List (String ⊕ Nat)
  | [] => []
  | .name text :: rest => .inl text :: slotsFrom number rest
  | .value _ :: rest => .inr number :: slotsFrom (number + 1) rest

lemma slot?_of_isPlain {t : Token} (h : isPlain t = true) : slot? t = none := by
  cases t with
  | literal text => cases h
  | parameter number => cases h
  | _ => rfl

/-- **Literals and placeholders show the places of a statement**, in their order. -/
theorem filterMap_slot? {pending : Bool} {s : Statement} (h : Spaced pending s) (number : Nat) :
    (tokensFrom number s).filterMap slot? = slotsFrom number s.places := by
  induction h generalizing number with
  | nil => rfl
  | word h _ _ ih =>
      have hnone : (wordTokens _).filterMap slot? = [] :=
        List.filterMap_eq_nil_iff.mpr fun t ht => slot?_of_isPlain (h.plain t ht)
      rw [tokensFrom, List.filterMap_append, hnone, ih]
      rfl
  | @literal text s _ ih => exact congrArg (Sum.inl text :: ·) (ih number)
  | value _ ih => exact congrArg (Sum.inr number :: ·) (ih (number + 1))

/-- Placeholders are numbered without a gap. -/
lemma filterMap_number? (number : Nat) (ps : List Place) :
    (slotsFrom number ps).filterMap Sum.getRight?
      = List.range' number (ps.filterMap Place.bind?).length := by
  induction ps generalizing number with
  | nil => rfl
  | cons p ps ih =>
      cases p with
      | name text => exact ih number
      | value bind => exact congrArg (number :: ·) (ih (number + 1))

/-! ## What does not show in the text -/

/-- A piece without its value, and with another text in its literal. -/
def maskedPiece (rename : String → String) : Piece → Piece
  | .word text => .word text
  | .literal text => .literal (rename text)
  | .value _ => .value (.text "")

/-- A statement without its values, and with other texts in its literals. -/
def masked (rename : String → String) (s : Statement) : Statement := s.map (maskedPiece rename)

lemma masked_append (rename : String → String) (s t : Statement) :
    (s ++ t).masked rename = s.masked rename ++ t.masked rename := List.map_append

lemma masked_separatedBy (rename : String → String) (separator : String)
    (parts : List Statement) :
    (separatedBy separator parts).masked rename
      = separatedBy separator (parts.map (masked rename)) := by
  induction parts with
  | nil => rfl
  | cons s rest ih =>
      cases rest with
      | nil => rfl
      | cons t rest =>
          rw [separatedBy, masked_append]
          exact congrArg (fun rest => s.masked rename ++ .word separator :: rest) ih

/-- **Values do not show in the text.** -/
theorem text_masked (s : Statement) : (s.masked id).text = s.text := by
  have h (number : Nat) : textsFrom number (s.masked id) = textsFrom number s := by
    induction s generalizing number with
    | nil => rfl
    | cons p s ih =>
        cases p with
        | word text => exact congrArg (text :: ·) (ih number)
        | literal text => exact congrArg (quoted text :: ·) (ih number)
        | value bind => exact congrArg (("$" ++ toString number) :: ·) (ih (number + 1))
  rw [text, h, ← text]

/-- A token with another text in its literal. -/
def renamed (rename : String → String) : Token → Token
  | .literal text => .literal (rename text)
  | other => other

lemma renamed_of_isPlain (rename : String → String) {t : Token} (h : isPlain t = true) :
    renamed rename t = t := by
  cases t with
  | literal text => cases h
  | _ => rfl

/-- **The texts in literals do not show in other tokens.** -/
theorem map_renamed {pending : Bool} {s : Statement} (h : Spaced pending s)
    (rename : String → String) (number : Nat) :
    (tokensFrom number s).map (renamed rename) = tokensFrom number (s.masked rename) := by
  induction h generalizing number with
  | nil => rfl
  | @word pending opens holds text s h _ _ ih =>
      have hplain : (wordTokens text).map (renamed rename) = wordTokens text :=
        (List.map_congr_left fun t ht => renamed_of_isPlain rename (h.plain t ht)).trans
          (List.map_id _)
      rw [tokensFrom, List.map_append, hplain, ih]
      rfl
  | @literal text s _ ih => exact congrArg (Token.literal (rename text) :: ·) (ih number)
  | value _ ih => exact congrArg (Token.parameter number :: ·) (ih (number + 1))

end Statement

end FleetLedger.Sql
