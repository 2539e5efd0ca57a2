import FleetLedger.Proofs.Documents
import FleetLedger.Proofs.Increments
import FleetLedger.Proofs.Rounding

/-!
# The order of integers

Integers are stored in 64 bits, signed or unsigned.  Two of the signed range are compared as what they
are.  As soon as one of the two is beyond that range both are compared as floats, and a float has 53
bits: neighbours whose nearest float is one and the same then count as equal, `Blurred`, although they
are two numbers.

What that does to the order is bounded here.  No two integers change places; those that are blurred are
at most 2048 apart and not below 2⁶³ - 512; all others are ordered exactly, in filters and when sorting
too.  Being smaller stays transitive.  Being equal does not (`large_neighbours_equal`): 2⁶³ equals both
of its predecessors, which are of the signed range and therefore told apart.
-/

namespace FleetLedger.Json

open Binary64 (nearestInt nearestInt_mono)

/-- An integer of 64 bits, signed or unsigned. -/
def Stored (n : Int) : Prop := leastInt ≤ n ∧ n ≤ greatestInt

instance (n : Int) : Decidable (Stored n) := inferInstanceAs (Decidable (_ ∧ _))

/-- Two integers that are compared as floats and have the same nearest float. -/
def Blurred (a b : Int) : Prop := a ≠ b ∧ ¬(Signed a ∧ Signed b) ∧ nearestInt a = nearestInt b

instance (a b : Int) : Decidable (Blurred a b) := inferInstanceAs (Decidable (_ ∧ _))

/-- The order of two integers, as far as comparing them shows it. -/
def seenOrder (a b : Int) : Ordering := if Blurred a b then .eq else compare a b

variable {a b c : Int}

/-! ## Which integers are blurred -/

lemma Blurred.symm (h : Blurred a b) : Blurred b a :=
  ⟨h.1.symm, fun hsigned => h.2.1 hsigned.symm, h.2.2.symm⟩

lemma Stored.natAbs_lt (h : Stored a) : a.natAbs < 2 ^ 64 := by
  simp only [Stored, leastInt, greatestInt] at h
  omega

/-- What is stored beyond the signed range is larger than all in it. -/
lemma Stored.not_signed (h : Stored a) (hsigned : ¬Signed a) : 2 ^ 63 ≤ a := by
  simp only [Stored, leastInt, greatestInt] at h
  simp only [Signed, leastInt, greatestSigned] at hsigned
  omega

/-- **Blurred integers are large.** -/
theorem Blurred.large (h : Blurred a b) (ha : Stored a) (hb : Stored b) : 2 ^ 63 - 512 ≤ a := by
  by_contra hsmall
  have hsigned : Signed a := by
    simp only [Stored, leastInt, greatestInt] at ha
    simp only [Signed, leastInt, greatestSigned]
    omega
  have hbeyond : 2 ^ 63 ≤ b := hb.not_signed fun hother => h.2.1 ⟨hsigned, hother⟩
  -- the float 2 ^ 63 lies between them
  have hfloat : nearestInt (2 ^ 63 - 513) < nearestInt (2 ^ 63) := by decide +kernel
  have hbelow : nearestInt a ≤ nearestInt (2 ^ 63 - 513) := nearestInt_mono (by omega)
  have habove : nearestInt (2 ^ 63) ≤ nearestInt b := nearestInt_mono hbeyond
  have hsame := h.2.2
  omega

/-- **Blurred integers are close.** -/
theorem Blurred.close (h : Blurred a b) (ha : Stored a) (hb : Stored b) :
    (a - b).natAbs ≤ 2048 := by
  have hdista := Binary64.dist_nearestInt ha.natAbs_lt
  have hdistb := Binary64.dist_nearestInt hb.natAbs_lt
  have hsame := h.2.2
  omega

/-- Where the ends are blurred, a number between them is blurred with one of them. -/
lemma Blurred.between (h : Blurred a c) (hab : a < b) (hbc : b < c) :
    Blurred a b ∨ Blurred b c := by
  have hlow : nearestInt a ≤ nearestInt b := nearestInt_mono hab.le
  have hhigh : nearestInt b ≤ nearestInt c := nearestInt_mono hbc.le
  have hsame := h.2.2
  by_cases hsigned : Signed a ∧ Signed b
  · exact Or.inr ⟨hbc.ne, fun hothers => h.2.1 ⟨hsigned.1, hothers.2⟩, by omega⟩
  · exact Or.inl ⟨hab.ne, hsigned, by omega⟩

/-! ## The order that is seen -/

lemma seenOrder_eq_lt : seenOrder a b = .lt ↔ a < b ∧ ¬Blurred a b := by
  rw [seenOrder]
  split
  case isTrue h => simp [h]
  case isFalse h => simp [h, Int.compare_eq_lt]

lemma seenOrder_eq_gt : seenOrder a b = .gt ↔ b < a ∧ ¬Blurred a b := by
  rw [seenOrder]
  split
  case isTrue h => simp [h]
  case isFalse h => simp [h, Int.compare_eq_gt]

/-- Only blurred integers are seen in another order than theirs. -/
lemma seenOrder_eq_compare : seenOrder a b = compare a b ↔ ¬Blurred a b := by
  rw [seenOrder]
  split
  case isTrue h =>
    have hne : compare a b ≠ .eq := fun heq => h.1 (Int.compare_eq_eq.mp heq)
    simp [h, hne.symm]
  case isFalse h => simp [h]

lemma seenOrder_swap : (seenOrder a b).swap = seenOrder b a := by
  rw [seenOrder, seenOrder]
  by_cases h : Blurred a b
  · rw [if_pos h, if_pos h.symm, Ordering.swap_eq]
  · rw [if_neg h, if_neg (mt Blurred.symm h)]
    exact Int.compare_swap a b

/-- **Being seen as smaller is transitive.** -/
theorem seenOrder_trans (hab : seenOrder a b = .lt) (hbc : seenOrder b c = .lt) :
    seenOrder a c = .lt := by
  obtain ⟨hlt, hclear⟩ := seenOrder_eq_lt.mp hab
  obtain ⟨hlt', hclear'⟩ := seenOrder_eq_lt.mp hbc
  refine seenOrder_eq_lt.mpr ⟨hlt.trans hlt', fun h => ?_⟩
  rcases h.between hlt hlt' with hblurred | hblurred
  · exact hclear hblurred
  · exact hclear' hblurred

/-! ## Comparing -/

/-- Out of the signed range, integers are compared as floats. -/
lemma order?_float (h : ¬(Signed a ∧ Signed b)) :
    (int a).order? (int b) = some ((Binary64.ofInt a).order (Binary64.ofInt b)) := by
  have hsigned : ∀ n, (int n).signed? = if Signed n then some n else none := fun _ => rfl
  simp only [order?, hsigned]
  by_cases ha : Signed a
  · rw [if_pos ha, if_neg fun hb => h ⟨ha, hb⟩]
    rfl
  · rw [if_neg ha]
    rfl

/-- **What comparing two integers answers.** -/
theorem order?_stored (ha : Stored a) (hb : Stored b) :
    (int a).order? (int b) = some (seenOrder a b) := by
  by_cases hsigned : Signed a ∧ Signed b
  · have hclear : ¬Blurred a b := fun h => h.2.1 hsigned
    rw [order?_int hsigned.1 hsigned.2, seenOrder, if_neg hclear]
  · rw [order?_float hsigned, Binary64.order_ofInt ha.natAbs_lt hb.natAbs_lt, seenOrder]
    by_cases hsame : nearestInt a = nearestInt b
    · -- one float: blurred, unless they are one number
      rw [hsame, Int.compare_eq_eq.mpr rfl]
      by_cases heq : a = b
      · rw [heq, Int.compare_eq_eq.mpr rfl, ite_self]
      · rw [if_pos ⟨heq, hsigned, hsame⟩]
    · have hclear : ¬Blurred a b := fun h => hsame h.2.2
      rw [if_neg hclear]
      congr 1
      -- rounding is monotone, so different floats are in the order of the numbers
      rcases Int.lt_trichotomy a b with hlt | rfl | hgt
      · have hmono := nearestInt_mono hlt.le
        rw [Int.compare_eq_lt.mpr hlt, Int.compare_eq_lt.mpr (by omega)]
      · exact absurd rfl hsame
      · have hmono := nearestInt_mono hgt.le
        rw [Int.compare_eq_gt.mpr hgt, Int.compare_eq_gt.mpr (by omega)]

lemma sortOrder_stored (ha : Stored a) (hb : Stored b) :
    (int a).sortOrder (int b) = seenOrder a b := by
  have horder := order?_stored ha hb
  simp only [sortOrder, horder, Option.getD_some]

lemma within_stored {d : Document} {field : String} (hfield : d.get? field = some (.int a))
    (ha : Stored a) (hb : Stored b) (allowed : Ordering → Bool) :
    Filter.within d field (.int b) allowed = allowed (seenOrder a b) := by
  rw [Filter.within, hfield]
  simp only [order?_stored ha hb, Option.map_some, Option.getD_some]

/-- **The order of stored integers**: it is that of the numbers, but for blurred ones, which are equal.
It is the same in filters and when sorting; backwards it is turned round, and being smaller is
transitive. -/
theorem integers_ordered (ha : Stored a) (hb : Stored b) :
    (int a).order? (int b) = some (seenOrder a b)
      ∧ (int a).sortOrder (int b) = seenOrder a b
      ∧ (int b).order? (int a) = some (seenOrder a b).swap
      ∧ (seenOrder a b = compare a b ↔ ¬Blurred a b)
      ∧ (Blurred a b → 2 ^ 63 - 512 ≤ a ∧ 2 ^ 63 - 512 ≤ b ∧ (a - b).natAbs ≤ 2048)
      ∧ (∀ c, Stored c → (int a).order? (int b) = some .lt → (int b).order? (int c) = some .lt →
          (int a).order? (int c) = some .lt)
      ∧ ∀ (d : Document) (field : String), d.get? field = some (.int a) →
          ((Filter.lt field (.int b)).holds d = true ↔ a < b ∧ ¬Blurred a b)
            ∧ ((Filter.lte field (.int b)).holds d = true ↔ a ≤ b ∨ Blurred a b)
            ∧ ((Filter.gte field (.int b)).holds d = !(Filter.lt field (.int b)).holds d) := by
  have horder := order?_stored ha hb
  refine ⟨horder, sortOrder_stored ha hb, ?_, seenOrder_eq_compare, fun h => ?_, fun c hc => ?_,
    fun d field hfield => ⟨?_, ?_, ?_⟩⟩
  · rw [order?_stored hb ha, seenOrder_swap]
  · exact ⟨h.large ha hb, h.symm.large hb ha, h.close ha hb⟩
  · intro hab hbc
    rw [horder] at hab
    rw [order?_stored hb hc] at hbc
    rw [order?_stored ha hc, seenOrder_trans (Option.some.inj hab) (Option.some.inj hbc)]
  · rw [Filter.holds, within_stored hfield ha hb, beq_iff_eq, seenOrder_eq_lt]
  · rw [Filter.holds, within_stored hfield ha hb, bne_iff_ne, ne_eq, seenOrder_eq_gt]
    by_cases h : Blurred a b <;> simp [h]
  · rw [Filter.holds, Filter.holds, within_stored hfield ha hb, within_stored hfield ha hb]
    rfl

/-- The largest integer of the signed range that is told apart from the first one beyond it: its
nearest float is the last below 2⁶³. -/
theorem integers_ordered_straddling :
    (int 9223372036854775295).order? (int 9223372036854775808) = some .lt
      ∧ (int 9223372036854775808).order? (int 9223372036854775295) = some .gt
      ∧ (Filter.lt "n" (.int 9223372036854775808)).holds [("n", .int 9223372036854775295)] = true
      ∧ (Filter.gte "n" (.int 9223372036854775808)).holds [("n", .int 9223372036854775295)]
        = false := by
  have hsmaller : Stored 9223372036854775295 := by decide
  have hlarger : Stored 9223372036854775808 := by decide
  have hclear : ¬Blurred 9223372036854775295 9223372036854775808 := by decide +kernel
  obtain ⟨horder, -, hback, -, -, -, hfilters⟩ := integers_ordered hsmaller hlarger
  obtain ⟨hlt, -, hgte⟩ := hfilters [("n", .int 9223372036854775295)] "n" rfl
  have hseen : seenOrder 9223372036854775295 9223372036854775808 = .lt :=
    seenOrder_eq_lt.mpr ⟨by decide, hclear⟩
  have hholds := hlt.mpr ⟨by decide, hclear⟩
  rw [hseen] at horder hback
  refine ⟨horder, hback, hholds, ?_⟩
  rw [hgte, hholds]
  rfl

/-- **Large neighbours count as equal**, and equality is not transitive: 2⁶³ equals both of its
predecessors, which do not equal each other. -/
theorem large_neighbours_equal :
    ¬(∀ a b, Stored a → Stored b → (int a).order? (int b) = some (compare a b))
      ∧ (int 9223372036854775808).order? (int 9223372036854775809) = some .eq
      ∧ (int 9223372036854775806).order? (int 9223372036854775808) = some .eq
      ∧ (int 9223372036854775808).order? (int 9223372036854775807) = some .eq
      ∧ (int 9223372036854775806).order? (int 9223372036854775807) = some .lt := by
  have hequal : (int 9223372036854775808).order? (int 9223372036854775809) = some .eq := by
    decide +kernel
  refine ⟨fun hexact => ?_, hequal, by decide +kernel, by decide +kernel, by decide +kernel⟩
  have hless := hexact 9223372036854775808 9223372036854775809 (by decide) (by decide)
  rw [hequal] at hless
  exact absurd hless (by decide)

end FleetLedger.Json
