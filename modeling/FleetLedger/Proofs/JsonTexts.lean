import Mathlib.Data.List.Forall2
import FleetLedger.Json.Parser
import FleetLedger.Json.Printer

/-!
# Texts of values are read back

What is kept as a text is written compactly and read by the strict grammar, and both agree: a text is
read as what was written (**`Reads.read?_text`**).  That is shown for values made of strings, arrays and
objects.

A string is the hard part, because it may hold any characters.  Each character is written as itself, as
an escape of two characters or as an escape of six, and each of these is read as the one code unit of
the character (`stringUnits_escape`); no character is half of a surrogate pair, so the units make up
the same characters again (`ofUnits?_toNat`).

What follows a value does not matter to it, so arrays and objects are read one part after the other
(`items_text`, `fields_text`).  Each call of a reader takes at least one character, so the length of
the text is enough fuel.
-/

namespace FleetLedger.Json.Parser

/-! ## Strings -/

lemma hexDigit?_digitChar {d : Nat} (h : d < 16) : hexDigit? (Nat.digitChar d) = some d := by
  have hall : ∀ d < 16, hexDigit? (Nat.digitChar d) = some d := by decide
  exact hall d h

/-- A control character is escaped by its number, and read back from it. -/
lemma stringUnits_control {c : Char} (h : c.toNat < 0x20) (rest : List Char) :
    stringUnits ('\\' :: 'u' :: '0' :: '0' :: Nat.digitChar (c.toNat / 16)
        :: Nat.digitChar (c.toNat % 16) :: rest)
      = (stringUnits rest).map fun (units, after) => (c.toNat :: units, after) := by
  have hzero : hexDigit? '0' = some 0 := rfl
  have hvalue : ((0 * 16 + 0) * 16 + c.toNat / 16) * 16 + c.toNat % 16 = c.toNat := by omega
  have hunit : codeUnit? '0' '0' (Nat.digitChar (c.toNat / 16)) (Nat.digitChar (c.toNat % 16))
      = some c.toNat := by
    rw [codeUnit?, hzero, hexDigit?_digitChar (by omega), hexDigit?_digitChar (by omega)]
    exact congrArg some hvalue
  rw [stringUnits, hunit]
  cases stringUnits rest <;> rfl

/-- A character with a short escape is read back from it. -/
lemma stringUnits_short {e c : Char} (hu : e ≠ 'u') (h : shortEscape? e = some c)
    (rest : List Char) :
    stringUnits ('\\' :: e :: rest)
      = (stringUnits rest).map fun (units, after) => (c.toNat :: units, after) := by
  rw [stringUnits, h]
  · cases stringUnits rest <;> rfl
  · intro _ _ _ _ _ he
    exact absurd he hu

/-- Any other character is read as it stands. -/
lemma stringUnits_plain {c : Char} (hmark : c ≠ '"') (hback : c ≠ '\\') (h : ¬ c.toNat < 0x20)
    (rest : List Char) :
    stringUnits (c :: rest)
      = (stringUnits rest).map fun (units, after) => (c.toNat :: units, after) := by
  have hplain : (c == '\\' || decide (c.toNat < 0x20)) = false := by simp [hback, h]
  rw [stringUnits, hplain]
  · cases stringUnits rest <;> rfl
  · exact hmark
  · exact fun _ _ _ _ _ he => absurd he hback
  · exact fun _ _ he => absurd he hback

/-- **Each character is read as its code unit**, in whatever way it was written. -/
theorem stringUnits_escape (c : Char) (rest : List Char) :
    stringUnits (escape c ++ rest)
      = (stringUnits rest).map fun (units, after) => (c.toNat :: units, after) := by
  rw [escape.eq_def]
  split
  case h_8 hmark hback _ _ _ _ _ =>
    split
    case isTrue h => exact stringUnits_control h rest
    case isFalse h => exact stringUnits_plain hmark hback h rest
  all_goals exact stringUnits_short (by decide) rfl rest

/-- A whole text is read up to the mark that ends it. -/
lemma stringUnits_text (cs rest : List Char) :
    stringUnits (cs.flatMap escape ++ '"' :: rest) = some (cs.map Char.toNat, rest) := by
  induction cs with
  | nil => rfl
  | cons c cs ih =>
      rw [List.flatMap_cons, List.append_assoc, stringUnits_escape, ih]
      rfl

/-- No character is half of a surrogate pair. -/
lemma toNat_not_half (c : Char) : ¬ (0xD800 ≤ c.toNat ∧ c.toNat ≤ 0xDFFF) := by
  rcases c.valid with h | ⟨h, -⟩
  · have hbelow : c.toNat < 0xD800 := h
    omega
  · have habove : 0xDFFF < c.toNat := h
    omega

/-- The code units of a text are put together to the text. -/
lemma ofUnits?_toNat (cs : List Char) : ofUnits? (cs.map Char.toNat) = some cs := by
  induction cs with
  | nil => rfl
  | cons c cs ih =>
      have hhalf := toNat_not_half c
      have hhigh : ¬ (0xD800 ≤ c.toNat ∧ c.toNat ≤ 0xDBFF) := by omega
      have hlow : ¬ (0xDC00 ≤ c.toNat ∧ c.toNat ≤ 0xDFFF) := by omega
      cases cs with
      | nil => rw [List.map_cons, List.map_nil, ofUnits?, if_neg hhalf, Char.ofNat_toNat]
      | cons d cs =>
          rw [List.map_cons, List.map_cons, ofUnits?, if_neg hhigh, if_neg hlow, ← List.map_cons, ih,
            Char.ofNat_toNat]
          rfl

/-- **A string is read back**, whatever characters are in it and whatever follows. -/
theorem stringBody_text (s : String) (rest : List Char) :
    stringBody (s.toList.flatMap escape ++ '"' :: rest) = some (some s, rest) := by
  rw [stringBody, stringUnits_text]
  refine congrArg (fun text => some (text, rest)) ?_
  rw [ofUnits?_toNat, Option.map_some, String.ofList_toList]

/-! ## Values -/

/-- A value is read from its text as it was written, whatever follows.  The text begins with a mark,
so that a reader of blanks leaves it alone. -/
structure Reads (j : Json) (w : Written) : Prop where
  opens : ∃ c cs, chars j = c :: cs ∧ c ∈ ['"', '[', '\x7b']
  value : ∀ fuel rest, (chars j).length ≤ fuel → value fuel (chars j ++ rest) = some (w, rest)

/-- The name and the value of a field are read as they were written. -/
def ReadsField (field : String × Json) (written : Option String × Written) : Prop :=
  written.1 = some field.1 ∧ Reads field.2 written.2

variable {j : Json} {w : Written}

/-- There is fuel left as long as there is text left. -/
lemma Reads.exists_fuel (h : Reads j w) {fuel : Nat} (hfuel : (chars j).length ≤ fuel) :
    ∃ n, fuel = n + 1 := by
  obtain ⟨c, cs, hchars, -⟩ := h.opens
  rw [hchars, List.length_cons] at hfuel
  exact ⟨fuel - 1, by omega⟩

/-- No value begins with a blank. -/
lemma Reads.skipBlanks (h : Reads j w) (rest : List Char) :
    skipBlanks (chars j ++ rest) = chars j ++ rest := by
  obtain ⟨c, cs, hchars, hc⟩ := h.opens
  rw [hchars]
  simp only [List.mem_cons, List.not_mem_nil, or_false] at hc
  rcases hc with rfl | rfl | rfl <;> rfl

lemma reads_string (s : String) : Reads (.string s) (.string (some s)) where
  opens := ⟨'"', _, rfl, by decide⟩
  value fuel rest hfuel := by
    obtain ⟨fuel, rfl⟩ : ∃ n, fuel = n + 1 := ⟨fuel - 1, by simp [chars, stringText] at hfuel; omega⟩
    have htext : chars (.string s) ++ rest = '"' :: (s.toList.flatMap escape ++ '"' :: rest) := by
      simp [chars, stringText]
    have hmark : ∀ cs, Parser.skipBlanks ('"' :: cs) = '"' :: cs := fun _ => rfl
    rw [htext, Parser.value, hmark]
    simp only [stringBody_text]
    rfl

/-! ### Arrays -/

/-- **Items are read one after the other.** -/
theorem items_text {js : List Json} {ws : List Written} (h : Reads j w)
    (hmore : List.Forall₂ Reads js ws) (fuel : Nat) (rest : List Char)
    (hfuel : (chars j ++ restItems js).length ≤ fuel) :
    items fuel (chars j ++ restItems js ++ rest) = some (w :: ws, rest) := by
  induction hmore generalizing j w fuel with
  | nil =>
      rw [List.length_append] at hfuel
      obtain ⟨fuel, rfl⟩ := h.exists_fuel (Nat.le_of_add_right_le hfuel)
      rw [restItems, List.length_singleton] at hfuel
      rw [items, List.append_assoc, h.value fuel _ (by omega)]
      rfl
  | @cons k v js ws hnext hmore ih =>
      rw [List.length_append] at hfuel
      obtain ⟨fuel, rfl⟩ := h.exists_fuel (Nat.le_of_add_right_le hfuel)
      rw [restItems, List.length_append, List.length_cons] at hfuel
      have hlater := ih hnext fuel (by rw [List.length_append]; omega)
      have htext : chars j ++ restItems (k :: js) ++ rest
          = chars j ++ ',' :: (chars k ++ restItems js ++ rest) := by simp [restItems]
      have hcomma : ∀ cs, Parser.skipBlanks (',' :: cs) = ',' :: cs := fun _ => rfl
      rw [items, htext, h.value fuel _ (by omega)]
      simp only [Option.bind_eq_bind, Option.bind_some, hcomma, hlater]
      rfl

lemma value_array {fuel : Nat} {cs rest : List Char} {ws : List Written}
    (hskip : Parser.skipBlanks cs = cs) (hopen : ∀ ds, cs ≠ ']' :: ds)
    (h : items fuel cs = some (ws, rest)) : value (fuel + 1) ('[' :: cs) = some (.array ws, rest) := by
  have hmark : Parser.skipBlanks ('[' :: cs) = '[' :: cs := rfl
  rw [value, hmark]
  simp only [hskip, h]
  rfl

/-- An array is read back if its items are. -/
lemma reads_array {js : List Json} {ws : List Written} (h : List.Forall₂ Reads js ws) :
    Reads (.array js) (.array ws) where
  opens := by cases js <;> exact ⟨'[', _, rfl, by decide⟩
  value fuel rest hfuel := by
    cases h with
    | nil =>
        obtain ⟨fuel, rfl⟩ : ∃ n, fuel = n + 1 := ⟨fuel - 1, by simp [chars] at hfuel; omega⟩
        rw [Parser.value, chars]
        rfl
    | @cons j w js ws h hmore =>
        obtain ⟨fuel, rfl⟩ : ∃ n, fuel = n + 1 := ⟨fuel - 1, by simp [chars] at hfuel; omega⟩
        have htext : chars (.array (j :: js)) ++ rest = '[' :: (chars j ++ restItems js ++ rest) := by
          simp [chars]
        rw [htext]
        refine value_array ?_ ?_ (items_text h hmore fuel rest ?_)
        · rw [List.append_assoc]
          exact h.skipBlanks _
        · obtain ⟨c, cs, hchars, hc⟩ := h.opens
          rw [hchars]
          intro ds he
          rw [(List.cons.inj he).1] at hc
          exact absurd hc (by decide)
        · simp only [chars, List.cons_append, List.length_cons] at hfuel
          omega

/-! ### Objects -/

/-- **Fields are read one after the other.** -/
theorem fields_text {k : String} {fs : List (String × Json)} {ws : List (Option String × Written)}
    (h : Reads j w) (hmore : List.Forall₂ ReadsField fs ws) (fuel : Nat) (rest : List Char)
    (hfuel : (stringText k ++ ':' :: chars j ++ restFields fs).length ≤ fuel) :
    fields fuel (stringText k ++ ':' :: chars j ++ restFields fs ++ rest)
      = some ((some k, w) :: ws, rest) := by
  have hcolon : ∀ cs, Parser.skipBlanks (':' :: cs) = ':' :: cs := fun _ => rfl
  have hmark : ∀ cs, Parser.skipBlanks ('"' :: cs) = '"' :: cs := fun _ => rfl
  have hcomma : ∀ cs, Parser.skipBlanks (',' :: cs) = ',' :: cs := fun _ => rfl
  induction hmore generalizing k j w fuel with
  | nil =>
      obtain ⟨fuel, rfl⟩ : ∃ n, fuel = n + 1 := ⟨fuel - 1, by simp [stringText] at hfuel; omega⟩
      have htext : stringText k ++ ':' :: chars j ++ restFields [] ++ rest
          = '"' :: (k.toList.flatMap escape
            ++ '"' :: ':' :: (chars j ++ restFields [] ++ rest)) := by simp [stringText]
      rw [htext, fields, hmark]
      simp only [stringBody_text, Option.bind_eq_bind, Option.bind_some, hcolon]
      rw [List.append_assoc, h.value fuel _ (by simp [stringText] at hfuel; omega)]
      rfl
  | @cons f v fs ws hfield hmore ih =>
      obtain ⟨k', j'⟩ := f
      obtain ⟨name, w'⟩ := v
      obtain ⟨hname, h'⟩ := hfield
      obtain rfl : name = some k' := hname
      obtain ⟨fuel, rfl⟩ : ∃ n, fuel = n + 1 := ⟨fuel - 1, by simp [stringText] at hfuel; omega⟩
      have htext : stringText k ++ ':' :: chars j ++ restFields ((k', j') :: fs) ++ rest
          = '"' :: (k.toList.flatMap escape ++ '"' :: ':' :: (chars j
            ++ ',' :: (stringText k' ++ ':' :: chars j' ++ restFields fs ++ rest))) := by
        simp [stringText, restFields]
      have hlater := ih h' (k := k') fuel (by simp [restFields, stringText] at hfuel ⊢; omega)
      rw [htext, fields, hmark]
      simp only [stringBody_text, Option.bind_eq_bind, Option.bind_some, hcolon]
      rw [h.value fuel _ (by simp [stringText] at hfuel; omega)]
      simp only [Option.bind_some, hcomma, hlater]
      rfl

lemma value_object {fuel : Nat} {cs rest : List Char} {fs : List (Option String × Written)}
    (h : fields fuel ('"' :: cs) = some (fs, rest)) :
    value (fuel + 1) ('\x7b' :: '"' :: cs) = some (.object fs, rest) := by
  have hopen : Parser.skipBlanks ('\x7b' :: '"' :: cs) = '\x7b' :: '"' :: cs := rfl
  have hmark : Parser.skipBlanks ('"' :: cs) = '"' :: cs := rfl
  rw [value, hopen]
  simp [hmark, h]

/-- An object is read back if its fields are. -/
lemma reads_object {fs : List (String × Json)} {ws : List (Option String × Written)}
    (h : List.Forall₂ ReadsField fs ws) : Reads (.object fs) (.object ws) where
  opens := by cases fs <;> exact ⟨'\x7b', _, rfl, by decide⟩
  value fuel rest hfuel := by
    cases h with
    | nil =>
        obtain ⟨fuel, rfl⟩ : ∃ n, fuel = n + 1 := ⟨fuel - 1, by simp [chars] at hfuel; omega⟩
        rw [Parser.value, chars]
        rfl
    | @cons f v fs ws hfield hmore =>
        obtain ⟨k, j⟩ := f
        obtain ⟨name, w⟩ := v
        obtain ⟨hname, h⟩ := hfield
        obtain rfl : name = some k := hname
        obtain ⟨fuel, rfl⟩ : ∃ n, fuel = n + 1 := ⟨fuel - 1, by simp [chars] at hfuel; omega⟩
        have htext : chars (.object ((k, j) :: fs)) ++ rest
            = '\x7b' :: (stringText k ++ ':' :: chars j ++ restFields fs ++ rest) := by simp [chars]
        rw [htext]
        refine value_object (fields_text h hmore fuel rest ?_)
        simp only [chars, List.cons_append, List.length_cons] at hfuel
        simp at hfuel ⊢
        omega

/-- **What was written is read back.** -/
theorem Reads.read?_text (h : Reads j w) : Written.read? j.text = some w := by
  have hchars : j.text.toList = chars j := String.toList_ofList
  have hvalue := h.value (2 * (chars j).length + 2) [] (by omega)
  rw [List.append_nil] at hvalue
  simp only [Written.read?, hchars, hvalue]
  rfl

end FleetLedger.Json.Parser
