/-!
# Blank characters and trimming

A character is *blank* when the character database calls it white space.  Values that people type
(addresses, counts, keywords) are read with the blanks at both ends removed; a value of blanks
alone counts as no value.
-/

namespace FleetLedger.Blank

/-- The stretches of white-space characters: tabs and line breaks, the space, and the wide, thin
and unbreakable spaces of other scripts. -/
def ranges : List (Nat × Nat) :=
  [(0x09, 0x0D), (0x20, 0x20), (0x85, 0x85), (0xA0, 0xA0), (0x1680, 0x1680), (0x2000, 0x200A),
   (0x2028, 0x2029), (0x202F, 0x202F), (0x205F, 0x205F), (0x3000, 0x3000)]

/-- White space of any script. -/
def isBlank (c : Char) : Bool :=
  ranges.any fun (low, high) => low ≤ c.toNat && c.toNat ≤ high

/-- The characters between the blanks at both ends. -/
def trimChars (cs : List Char) : List Char :=
  ((cs.dropWhile isBlank).reverse.dropWhile isBlank).reverse

/-- A text without the blanks at its ends. -/
def trim (s : String) : String := String.ofList (trimChars s.toList)

/-- The trimmed text, unless nothing is left of it. -/
def trimmed? (s : String) : Option String :=
  let t := trim s
  if t.isEmpty then none else some t

/-! ## What trimming leaves -/

/-- Nothing but blanks stands at the front exactly when there is nothing but blanks at all. -/
theorem dropWhile_isBlank_eq_nil_iff {cs : List Char} :
    cs.dropWhile isBlank = [] ↔ ∀ c ∈ cs, isBlank c = true := by
  induction cs with
  | nil => simp
  | cons c cs ih => by_cases hc : isBlank c = true <;> simp [hc, ih]

/-- Trimming leaves nothing exactly of a text of blanks alone. -/
theorem trimChars_eq_nil_iff {cs : List Char} :
    trimChars cs = [] ↔ ∀ c ∈ cs, isBlank c = true := by
  rw [trimChars, List.reverse_eq_nil_iff, dropWhile_isBlank_eq_nil_iff]
  constructor
  · intro h
    refine dropWhile_isBlank_eq_nil_iff.1 ?_
    rcases hd : cs.dropWhile isBlank with _ | ⟨c, rest⟩
    · rfl
    · have hstop := List.head_dropWhile_not isBlank (l := cs) (by simp [hd])
      have hblank : isBlank c = true := h c (by simp [hd])
      simp [hd, hblank] at hstop
  · intro h c hc
    exact h c ((List.dropWhile_sublist isBlank).subset (List.mem_reverse.1 hc))

/-- A value of blanks alone is no value, and any other is one. -/
theorem trimmed?_eq_none_iff {s : String} :
    trimmed? s = none ↔ ∀ c ∈ s.toList, isBlank c = true := by
  rw [← trimChars_eq_nil_iff, trimmed?]
  simp [trim]

theorem trimmed?_eq_some_iff {s t : String} : trimmed? s = some t ↔ trim s = t ∧ trim s ≠ "" := by
  by_cases h : trim s = "" <;> simp [trimmed?, h]

end FleetLedger.Blank
