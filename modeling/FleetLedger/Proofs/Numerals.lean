import FleetLedger.Proofs.Trimming
import FleetLedger.Text.Numeral

/-!
# Numerals

A number that was printed reads as itself, within any bounds that admit it (**`read_toString`**), for
digits are accumulated to the number they are the digits of (`accumulate_eq`).  It has no blanks, so
trimming leaves it alone (`trim_toString`).

Not only what was printed is read: a numeral may begin with a plus sign and with zeros.  What a text
spells is said by `Spells`, without bounds.  Within bounds the same numbers are read
(`readNat_of_spells`), and of a text that spells none the fault depends on which comes first, too many
digits or something else than a digit (`readNat_of_exceeds`, `readNat_of_not_spells`).
-/

namespace FleetLedger

namespace Numeral

/-- A number does not shrink when digits are put behind it. -/
lemma le_ofDigitChars (cs : List Char) (n : Nat) : n ≤ Nat.ofDigitChars 10 cs n := by
  induction cs generalizing n with
  | nil => exact Nat.le_of_eq Nat.ofDigitChars_nil.symm
  | cons c cs ih =>
      rw [Nat.ofDigitChars_cons]
      exact Nat.le_trans (by omega) (ih _)

lemma ofDigitChars_cons_digit (c : Char) (cs : List Char) (n : Nat) :
    Nat.ofDigitChars 10 (c :: cs) n = Nat.ofDigitChars 10 cs (n * 10 + digit c) := by
  rw [Nat.ofDigitChars_cons, digit, Nat.mul_comm]

/-- Digits are accumulated to their value, if that is within the limit. -/
lemma accumulate_eq {limit : Nat} (excess : Fault) {cs : List Char} {n : Nat}
    (hdigits : ∀ c ∈ cs, c.isDigit = true) (hlimit : Nat.ofDigitChars 10 cs n ≤ limit) :
    accumulate limit excess n cs = .ok (Nat.ofDigitChars 10 cs n) := by
  induction cs generalizing n with
  | nil => rw [accumulate, Nat.ofDigitChars_nil]
  | cons c cs ih =>
      rw [ofDigitChars_cons_digit] at hlimit ⊢
      have hle : n * 10 + digit c ≤ limit := Nat.le_trans (le_ofDigitChars cs _) hlimit
      have hrest := ih (fun d hd => hdigits d (List.mem_cons_of_mem c hd)) hlimit
      simp only [accumulate, hdigits c List.mem_cons_self, if_true, hle, hrest]

/-! ## Digits -/

lemma isDigit_bounds {c : Char} (h : c.isDigit = true) : 48 ≤ c.toNat ∧ c.toNat ≤ 57 := by
  simpa [Char.isDigit, UInt32.le_iff_toNat_le] using h

lemma isDigit_of_mem {n : Nat} {c : Char} (h : c ∈ Nat.toDigits 10 n) : c.isDigit = true :=
  Nat.isDigit_of_mem_toDigits (by omega) (by omega) h

/-- The digits of a number that the limit admits are read back as this number. -/
lemma accumulate_toDigits {limit n : Nat} (excess : Fault) (h : n ≤ limit) :
    accumulate limit excess 0 (Nat.toDigits 10 n) = .ok n := by
  have hvalue : Nat.ofDigitChars 10 (Nat.toDigits 10 n) 0 = n := Nat.ofDigitChars_ten_toDigits
  rw [accumulate_eq excess (fun c hc => isDigit_of_mem hc) (hvalue.symm ▸ h), hvalue]

lemma toList_toString_natCast (n : Nat) : (toString (n : Int)).toList = Nat.toDigits 10 n :=
  Nat.toList_repr

lemma toList_toString_negSucc (n : Nat) :
    (toString (Int.negSucc n)).toList = '-' :: Nat.toDigits 10 (n + 1) := by
  have happend : toString (Int.negSucc n) = "-" ++ Nat.repr (n + 1) := rfl
  rw [happend, String.toList_append, Nat.toList_repr]
  rfl

/-- Digits are read as a number without a sign. -/
lemma read_of_digits (low high : Int) {s : String} (hs : s.toList ≠ [])
    (hdigits : ∀ c ∈ s.toList, c.isDigit = true) :
    read low high s = (Int.ofNat ·) <$> accumulate high.toNat .tooLarge 0 s.toList := by
  have hplus : '+' ∉ s.toList := fun h => Bool.noConfusion (hdigits '+' h)
  have hminus : '-' ∉ s.toList := fun h => Bool.noConfusion (hdigits '-' h)
  unfold read
  split
  case h_1 h => exact absurd h hs
  case h_2 h => exact absurd (h ▸ List.mem_cons_self) hplus
  case h_3 h => exact absurd (h ▸ List.mem_cons_self) hminus
  case h_4 h => exact absurd (h ▸ List.mem_cons_self) hplus
  case h_5 h => exact absurd (h ▸ List.mem_cons_self) hminus
  case h_6 => rfl

/-- **A number that was printed reads as itself.** -/
theorem read_toString {low high n : Int} (hlow : low ≤ n) (hhigh : n ≤ high) :
    read low high (toString n) = .ok n := by
  cases n with
  | ofNat m =>
      have hlist : (toString (Int.ofNat m)).toList = Nat.toDigits 10 m := toList_toString_natCast m
      have hle : m ≤ high.toNat := by
        have : (m : Int) ≤ high := hhigh
        omega
      rw [read_of_digits low high (hlist ▸ Nat.toDigits_ne_nil)
        (fun c hc => isDigit_of_mem (hlist ▸ hc)), hlist, accumulate_toDigits _ hle]
      rfl
  | negSucc m =>
      have hlist := toList_toString_negSucc m
      have hle : m + 1 ≤ (-low).toNat := by omega
      have hneg : low < 0 := by omega
      have hdigits := accumulate_toDigits .tooSmall hle
      unfold read
      rw [hlist]
      split
      case h_1 h => cases h
      case h_2 h => cases h
      case h_3 h => exact absurd (List.cons.inj h).2 Nat.toDigits_ne_nil
      case h_4 h => cases h
      case h_5 ds h =>
        rw [← (List.cons.inj h).2, if_pos hneg, hdigits]
        rfl
      case h_6 h => exact absurd rfl (h _)

/-! ## What is spelled -/

/-- The characters of a numeral behind the plus sign it may begin with. -/
def unsigned (s : String) : List Char :=
  match s.toList with
  | '+' :: ds => ds
  | ds => ds

/-- A text is the numeral of a number: at least one digit, nothing else, and a plus sign at most. -/
structure Spells (s : String) (n : Nat) : Prop where
  nonempty : unsigned s ≠ []
  digits : ∀ c ∈ unsigned s, c.isDigit = true
  value : Nat.ofDigitChars 10 (unsigned s) 0 = n

/-- The digits that characters begin with continue a value beyond a limit. -/
def Overflows (limit n : Nat) (cs : List Char) : Prop :=
  ∃ ds rest, cs = ds ++ rest ∧ (∀ c ∈ ds, c.isDigit = true) ∧ limit < Nat.ofDigitChars 10 ds n

/-- The digits that a text begins with are too large a number already. -/
def Exceeds (high : Nat) (s : String) : Prop := Overflows high 0 (unsigned s)

section Overflows

variable {limit n : Nat} {c : Char} {cs : List Char}

lemma not_overflows_nil (hn : n ≤ limit) : ¬ Overflows limit n [] := by
  rintro ⟨ds, rest, happend, -, hlt⟩
  obtain ⟨rfl, -⟩ := List.append_eq_nil_iff.mp happend.symm
  rw [Nat.ofDigitChars_nil] at hlt
  omega

/-- An overflow comes with the first digit or after it. -/
lemma overflows_cons (hn : n ≤ limit) : Overflows limit n (c :: cs)
    ↔ c.isDigit = true ∧ (limit < n * 10 + digit c ∨ Overflows limit (n * 10 + digit c) cs) := by
  constructor
  · rintro ⟨ds, rest, happend, hdigits, hlt⟩
    cases ds with
    | nil =>
        rw [Nat.ofDigitChars_nil] at hlt
        omega
    | cons d ds =>
        obtain ⟨rfl, hrest⟩ := List.cons.inj happend
        rw [ofDigitChars_cons_digit] at hlt
        exact ⟨hdigits _ List.mem_cons_self,
          Or.inr ⟨ds, rest, hrest, fun d hd => hdigits d (List.mem_cons_of_mem _ hd), hlt⟩⟩
  · rintro ⟨hc, hlt | ⟨ds, rest, rfl, hdigits, hlt⟩⟩
    · exact ⟨[c], cs, rfl, by simpa using hc, by rwa [ofDigitChars_cons_digit, Nat.ofDigitChars_nil]⟩
    · exact ⟨c :: ds, rest, rfl, by simpa [hc] using hdigits, by rwa [ofDigitChars_cons_digit]⟩

/-- Digits that overflow are found out when they do, whatever comes after them. -/
lemma accumulate_of_overflows (excess : Fault) (hn : n ≤ limit) (h : Overflows limit n cs) :
    accumulate limit excess n cs = .error excess := by
  induction cs generalizing n with
  | nil => exact absurd h (not_overflows_nil hn)
  | cons c cs ih =>
      obtain ⟨hc, h⟩ := (overflows_cons hn).mp h
      simp only [accumulate, hc, if_true]
      split
      case isTrue hle => exact ih hle (h.resolve_left (Nat.not_lt.mpr hle))
      case isFalse => rfl

/-- A character that is no digit is found out if nothing overflows before it. -/
lemma accumulate_of_not_digits (excess : Fault) (hn : n ≤ limit) (h : ¬ Overflows limit n cs)
    (hdigits : ¬ ∀ c ∈ cs, c.isDigit = true) : accumulate limit excess n cs = .error .badDigit := by
  induction cs generalizing n with
  | nil => exact absurd (List.forall_mem_nil _) hdigits
  | cons c cs ih =>
      by_cases hc : c.isDigit = true
      · rw [overflows_cons hn, not_and, not_or] at h
        obtain ⟨hle, h⟩ := h hc
        have hrest := ih (Nat.not_lt.mp hle) h fun hcs => hdigits (List.forall_mem_cons.mpr ⟨hc, hcs⟩)
        simp only [accumulate, hc, if_true, Nat.not_lt.mp hle, hrest]
      · simp only [accumulate, hc, Bool.false_eq_true, if_false]

end Overflows

lemma unsigned_of_plus {s : String} {ds : List Char} (h : s.toList = '+' :: ds) :
    unsigned s = ds := by
  simp only [unsigned, h]

lemma unsigned_of_no_plus {s : String} (h : ∀ ds, s.toList ≠ '+' :: ds) :
    unsigned s = s.toList := by
  unfold unsigned
  split
  case h_1 ds hplus => exact absurd hplus (h ds)
  case h_2 => rfl

/-- Of a text that is not empty, what stands behind the plus sign is read. -/
lemma readNat_eq {high : Nat} {s : String} (hs : s ≠ "") : readNat high s
    = if unsigned s = [] then .error .badDigit else accumulate high .tooLarge 0 (unsigned s) := by
  have hmap (x : Except Fault Nat) : (·.toNat) <$> (Int.ofNat ·) <$> x = x := by
    cases x <;> rfl
  have hminus {ds : List Char} (h : s.toList = '-' :: ds) : unsigned s = '-' :: ds := by
    rw [unsigned_of_no_plus (by simp [h]), h]
  unfold readNat read
  split
  case h_1 h => exact absurd (String.toList_eq_nil_iff.mp h) hs
  case h_2 h =>
      rw [unsigned_of_plus h]
      rfl
  case h_3 h =>
      rw [hminus h]
      rfl
  case h_4 hne h => rw [hmap, unsigned_of_plus h, if_neg hne, Int.toNat_natCast]
  case h_5 h =>
      rw [hminus h]
      rfl
  case h_6 hne _ _ hplus _ =>
      rw [hmap, unsigned_of_no_plus hplus, if_neg hne, Int.toNat_natCast]

variable {high n : Nat} {s : String}

/-- A number that is spelled without exceeding the limit is within it. -/
lemma Spells.le (h : Spells s n) (hhigh : ¬ Exceeds high s) : n ≤ high := by
  refine Nat.le_of_not_lt fun hlt => hhigh ?_
  exact ⟨unsigned s, [], (List.append_nil _).symm, h.digits, h.value.symm ▸ hlt⟩

lemma Spells.ne_empty (h : Spells s n) : s ≠ "" := by
  rintro rfl
  exact h.nonempty rfl

/-- A numeral within the limit is read. -/
lemma readNat_of_spells (h : Spells s n) (hle : n ≤ high) : readNat high s = .ok n := by
  have hvalue : Nat.ofDigitChars 10 (unsigned s) 0 ≤ high := h.value.symm ▸ hle
  rw [readNat_eq h.ne_empty, if_neg h.nonempty, accumulate_eq _ h.digits hvalue, h.value]

lemma not_exceeds_empty : ¬ Exceeds high "" := not_overflows_nil (Nat.zero_le _)

/-- A numeral beyond the limit is refused as too large. -/
lemma readNat_of_exceeds (h : Exceeds high s) : readNat high s = .error .tooLarge := by
  have hs : s ≠ "" := by
    rintro rfl
    exact not_exceeds_empty h
  have hnonempty : unsigned s ≠ [] := by
    intro hnil
    rw [Exceeds, hnil] at h
    exact not_overflows_nil (Nat.zero_le _) h
  rw [readNat_eq hs, if_neg hnonempty, accumulate_of_overflows _ (Nat.zero_le _) h]

/-- A text that neither spells a number nor exceeds the limit is refused for a character. -/
lemma readNat_of_not_spells (hs : s ≠ "") (hexceeds : ¬ Exceeds high s) (h : ∀ n, ¬ Spells s n) :
    readNat high s = .error .badDigit := by
  rw [readNat_eq hs]
  split
  case isTrue => rfl
  case isFalse hne =>
    exact accumulate_of_not_digits _ (Nat.zero_le _) hexceeds fun hdigits => h _ ⟨hne, hdigits, rfl⟩

/-- **What is read is what is spelled, within the bound.** -/
theorem readNat_eq_ok_iff : readNat high s = .ok n ↔ Spells s n ∧ n ≤ high := by
  constructor
  · intro h
    have hs : s ≠ "" := by
      rintro rfl
      cases h
    have hexceeds : ¬ Exceeds high s := by
      intro hover
      rw [readNat_of_exceeds hover] at h
      cases h
    by_cases hspells : ∃ m, Spells s m
    · obtain ⟨m, hm⟩ := hspells
      rw [readNat_of_spells hm (hm.le hexceeds)] at h
      cases h
      exact ⟨hm, hm.le hexceeds⟩
    · rw [readNat_of_not_spells hs hexceeds fun m hm => hspells ⟨m, hm⟩] at h
      cases h
  · rintro ⟨hspells, hle⟩
    exact readNat_of_spells hspells hle

/-! ## Trimming -/

lemma isBlank_of_isDigit {c : Char} (h : c.isDigit = true) : Blank.isBlank c = false := by
  have hbounds := isDigit_bounds h
  simp only [Blank.isBlank, Blank.ranges, List.any_cons, List.any_nil, Bool.or_false,
    Bool.or_eq_false_iff, Bool.and_eq_false_iff, decide_eq_false_iff_not]
  omega

/-- There is no blank in a printed number, so nothing to trim. -/
lemma isBlank_of_mem_toString {n : Int} {c : Char} (h : c ∈ (toString n).toList) :
    Blank.isBlank c = false := by
  cases n with
  | ofNat m => exact isBlank_of_isDigit (isDigit_of_mem (toList_toString_natCast m ▸ h))
  | negSucc m =>
      rw [toList_toString_negSucc] at h
      rcases List.mem_cons.mp h with rfl | h
      · decide
      · exact isBlank_of_isDigit (isDigit_of_mem h)

lemma trim_toString (n : Int) : Blank.trim (toString n) = toString n :=
  Blank.trim_eq_self (fun _ hc => isBlank_of_mem_toString (List.mem_of_mem_head? hc))
    (fun _ hc => isBlank_of_mem_toString (List.mem_of_mem_getLast? hc))

end Numeral

end FleetLedger
