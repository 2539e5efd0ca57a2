import Mathlib.Tactic.Ring
import FleetLedger.Number.Binary64

/-!
# Floats nearest to whole numbers

What becomes of a whole number that is read as a float.  Its leading 53 bits are kept; the rest, a
remainder below the `spacing` of floats there, is rounded to none or all of it.  So `nearest`, the float as
a whole number again, is a rounded quotient, and its laws are those of rounding one:

* `nearest_mono` — a larger number has no smaller float;
* `dist_nearest` — the float is off by half of the spacing at most.

Both are carried over to the integers of 64 bits, where floats are spaced by 2048 at most.  With the
order of floats as it is, by their size in units of the smallest one, **`order_ofInt`** says what
comparing two such integers as floats comes to: comparing the nearest floats.

The smallest float is the unit halved 1074 times.  Where that power of two would be computed rather
than calculated with, it is written 2 ^ `p` with `p = 1074`.
-/

namespace FleetLedger.Binary64

/-! ## Rounding a quotient -/

/-- Rounding goes down, or up by one, whichever is not farther. -/
lemma roundDiv_cases (n d : Nat) :
    (roundDiv n d = n / d ∧ 2 * (n % d) ≤ d) ∨ (roundDiv n d = n / d + 1 ∧ d ≤ 2 * (n % d)) := by
  unfold roundDiv
  dsimp only
  split
  · exact Or.inl ⟨rfl, by omega⟩
  · split
    · exact Or.inr ⟨rfl, by omega⟩
    · rcases Nat.mod_two_eq_zero_or_one (n / d) with h | h
      · exact Or.inl ⟨by omega, by omega⟩
      · exact Or.inr ⟨by omega, by omega⟩

lemma roundDiv_one (n : Nat) : roundDiv n 1 = n := by
  rcases roundDiv_cases n 1 with ⟨h, -⟩ | ⟨-, h⟩
  · rw [h, Nat.div_one]
  · omega

/-- **Rounding keeps the order.** -/
theorem roundDiv_mono {m n : Nat} (h : m ≤ n) (d : Nat) : roundDiv m d ≤ roundDiv n d := by
  have hquotient : m / d ≤ n / d := Nat.div_le_div_right h
  rcases Nat.lt_or_ge (m / d) (n / d) with hlt | hge
  · rcases roundDiv_cases m d with ⟨hm, -⟩ | ⟨hm, -⟩ <;>
      rcases roundDiv_cases n d with ⟨hn, -⟩ | ⟨hn, -⟩ <;> omega
  · -- between the same neighbours the remainder decides
    have hsame : m / d = n / d := by omega
    have hrest : m % d ≤ n % d := by
      have hm := Nat.div_add_mod m d
      have hn := Nat.div_add_mod n d
      rw [hsame] at hm
      omega
    unfold roundDiv
    dsimp only
    rw [hsame]
    split <;> split <;> (try split) <;> (try split) <;> omega

/-- The rounded quotient is off by half at most. -/
lemma dist_roundDiv (n : Nat) {d : Nat} (hd : 0 < d) :
    2 * n ≤ 2 * (roundDiv n d * d) + d ∧ 2 * (roundDiv n d * d) ≤ 2 * n + d := by
  have hn := Nat.div_add_mod n d
  rcases roundDiv_cases n d with ⟨h, hrest⟩ | ⟨h, hrest⟩
  · have hvalue : roundDiv n d * d = d * (n / d) := by rw [h, Nat.mul_comm]
    omega
  · have hvalue : roundDiv n d * d = d * (n / d) + d := by rw [h, Nat.succ_mul, Nat.mul_comm]
    have hlt := Nat.mod_lt n hd
    omega

/-! ## The nearest float -/

/-- How far apart floats are at a whole number, if that is not less than one. -/
def spacing (n : Nat) : Nat := 2 ^ (n.log2 - 52)

lemma spacing_pos (n : Nat) : 0 < spacing n := Nat.two_pow_pos _

/-- The float nearest to a whole number, as a whole number. -/
def nearest (n : Nat) : Nat := roundDiv n (spacing n) * spacing n

/-- A number of at most 53 bits is not rounded. -/
lemma nearest_of_lt {n : Nat} (h : n.log2 < 53) : nearest n = n := by
  have hspacing : spacing n = 1 := by
    rw [spacing, Nat.sub_eq_zero_of_le (by omega), Nat.pow_zero]
  rw [nearest, hspacing, roundDiv_one, Nat.mul_one]

/-- The spacing at a number of 53 bits or more, against the powers of two around it. -/
lemma pow_mul_spacing {n : Nat} (h : 52 ≤ n.log2) :
    2 ^ 52 * spacing n = 2 ^ n.log2 ∧ 2 ^ 53 * spacing n = 2 ^ (n.log2 + 1) := by
  rw [spacing, ← Nat.pow_add, ← Nat.pow_add, Nat.add_sub_cancel' h]
  exact ⟨rfl, congrArg _ (by omega)⟩

lemma ne_zero_of_log2 {n k : Nat} (h : k < n.log2) : n ≠ 0 := by
  rintro rfl
  simp at h

/-- Rounded, a number of 53 bits or more still has 53 bits, or one more. -/
lemma roundDiv_spacing {n : Nat} (h : 52 ≤ n.log2) :
    2 ^ 52 ≤ n / spacing n ∧ 2 ^ 52 ≤ roundDiv n (spacing n) ∧ roundDiv n (spacing n) ≤ 2 ^ 53 := by
  obtain ⟨hlow, hhigh⟩ := pow_mul_spacing h
  have hself := Nat.log2_self_le (ne_zero_of_log2 (k := 51) h)
  have hleast : 2 ^ 52 ≤ n / spacing n :=
    (Nat.le_div_iff_mul_le (spacing_pos n)).mpr (hlow ▸ hself)
  have hmost : n / spacing n < 2 ^ 53 :=
    (Nat.div_lt_iff_lt_mul (spacing_pos n)).mpr (hhigh ▸ Nat.lt_log2_self)
  rcases roundDiv_cases n (spacing n) with ⟨hround, -⟩ | ⟨hround, -⟩ <;> omega

/-- A number lies between two powers of two, and so does the float nearest to it. -/
lemma nearest_bounds {n : Nat} (h : n ≠ 0) :
    2 ^ n.log2 ≤ nearest n ∧ nearest n ≤ 2 ^ (n.log2 + 1) := by
  rcases Nat.lt_or_ge n.log2 53 with hsmall | hlarge
  · rw [nearest_of_lt hsmall]
    exact ⟨Nat.log2_self_le h, Nat.le_of_lt Nat.lt_log2_self⟩
  · have hlong : 52 ≤ n.log2 := by omega
    obtain ⟨-, hlow, hhigh⟩ := roundDiv_spacing hlong
    rw [← (pow_mul_spacing hlong).1, ← (pow_mul_spacing hlong).2]
    exact ⟨Nat.mul_le_mul_right _ hlow, Nat.mul_le_mul_right _ hhigh⟩

/-- **A larger number has no smaller float.** -/
theorem nearest_mono {m n : Nat} (h : m ≤ n) : nearest m ≤ nearest n := by
  rcases Nat.eq_zero_or_pos m with rfl | hm
  · rw [nearest_of_lt (by decide)]
    exact Nat.zero_le _
  · have hlog : m.log2 ≤ n.log2 := by
      by_contra hlt
      have hpow : 2 ^ (n.log2 + 1) ≤ 2 ^ m.log2 := Nat.pow_le_pow_right (by decide) (by omega)
      have hself := Nat.log2_self_le (by omega : m ≠ 0)
      have hbelow := @Nat.lt_log2_self n
      omega
    rcases Nat.lt_or_ge m.log2 n.log2 with hless | hmore
    · -- a power of two lies between the numbers
      have hpow : 2 ^ (m.log2 + 1) ≤ 2 ^ n.log2 := Nat.pow_le_pow_right (by decide) hless
      exact (nearest_bounds (by omega)).2.trans (hpow.trans (nearest_bounds (by omega)).1)
    · have hsame : spacing m = spacing n := by rw [spacing, spacing, show m.log2 = n.log2 by omega]
      rw [nearest, nearest, hsame]
      exact Nat.mul_le_mul_right _ (roundDiv_mono h _)

/-- **The nearest float is off by half of the spacing at most.** -/
theorem dist_nearest (n : Nat) :
    2 * n ≤ 2 * nearest n + spacing n ∧ 2 * nearest n ≤ 2 * n + spacing n :=
  dist_roundDiv n (spacing_pos n)

lemma log2_le {n : Nat} (h : n < 2 ^ 64) : n.log2 ≤ 63 := by
  by_contra hlt
  have hpow : 2 ^ 64 ≤ 2 ^ n.log2 := Nat.pow_le_pow_right (by decide) (by omega)
  have hself := Nat.log2_self_le (ne_zero_of_log2 (Nat.lt_of_not_le hlt))
  omega

/-- Below `2 ^ 64` neighbours are at most 2048 apart. -/
lemma spacing_le {n : Nat} (h : n < 2 ^ 64) : spacing n ≤ 2048 := by
  have hlog := log2_le h
  have hpow : 2 ^ (n.log2 - 52) ≤ 2 ^ 11 := Nat.pow_le_pow_right (by decide) (by omega)
  exact hpow

/-! ## Reading a whole number -/

/-- A whole number counted in the spacing of floats. -/
lemma scaled_of_le {n : Nat} (h : 52 ≤ n.log2) :
    scaled n 1 ((n.log2 : Int) - 52) = (n, spacing n) := by
  have hexponent : ((n.log2 : Int) - 52).toNat = n.log2 - 52 := by omega
  rw [scaled, if_pos (by omega), hexponent, Nat.one_mul, Nat.pow_eq, spacing]

/-- A small number is scaled up to 53 bits. -/
lemma scaled_of_lt {n : Nat} (h : n.log2 < 52) :
    scaled n 1 ((n.log2 : Int) - 52) = (n * 2 ^ (52 - n.log2), 1) := by
  have hexponent : (-((n.log2 : Int) - 52)).toNat = 52 - n.log2 := by omega
  rw [scaled, if_neg (by omega), hexponent, Nat.pow_eq]

/-- Counted so and rounded, a whole number fills 53 bits, or carries one more; in units of the smallest
float it is the nearest float. -/
lemma scaled_bounds {n p : Nat} (h : n ≠ 0) (hp : p = 1074) :
    let fraction := scaled n 1 ((n.log2 : Int) - 52)
    2 ^ 52 ≤ fraction.1 / fraction.2
      ∧ 2 ^ 52 ≤ roundDiv fraction.1 fraction.2 ∧ roundDiv fraction.1 fraction.2 ≤ 2 ^ 53
      ∧ roundDiv fraction.1 fraction.2 * 2 ^ ((n.log2 : Int) - 52 + 1074).toNat
        = nearest n * 2 ^ p := by
  have hlow := Nat.log2_self_le h
  have hhigh := @Nat.lt_log2_self n
  rcases Nat.lt_or_ge n.log2 52 with hsmall | hlarge
  · have hleast : 2 ^ 52 ≤ n * 2 ^ (52 - n.log2) := by
      calc 2 ^ 52 = 2 ^ n.log2 * 2 ^ (52 - n.log2) := by
            rw [← Nat.pow_add, Nat.add_sub_cancel' (by omega)]
        _ ≤ n * 2 ^ (52 - n.log2) := Nat.mul_le_mul_right _ hlow
    have hmost : n * 2 ^ (52 - n.log2) < 2 ^ 53 := by
      calc n * 2 ^ (52 - n.log2) < 2 ^ (n.log2 + 1) * 2 ^ (52 - n.log2) :=
            Nat.mul_lt_mul_of_pos_right hhigh (Nat.two_pow_pos _)
        _ = 2 ^ 53 := by rw [← Nat.pow_add, show n.log2 + 1 + (52 - n.log2) = 53 by omega]
    have hexponent : ((n.log2 : Int) - 52 + 1074).toNat = p - (52 - n.log2) := by omega
    rw [scaled_of_lt hsmall]
    dsimp only
    rw [Nat.div_one, roundDiv_one, hexponent, nearest_of_lt (by omega), Nat.mul_assoc, ← Nat.pow_add,
      Nat.add_sub_cancel' (by omega)]
    exact ⟨hleast, hleast, hmost.le, rfl⟩
  · obtain ⟨hquotient, hleast, hmost⟩ := roundDiv_spacing hlarge
    have hexponent : ((n.log2 : Int) - 52 + 1074).toNat = n.log2 - 52 + p := by omega
    rw [scaled_of_le hlarge]
    dsimp only
    rw [hexponent, Nat.pow_add, ← Nat.mul_assoc, ← spacing, ← nearest]
    exact ⟨hquotient, hleast, hmost, rfl⟩

/-- The exponent of a whole number is given by its length. -/
lemma exponentFor_one {n : Nat} (h : n ≠ 0) : exponentFor n 1 = (n.log2 : Int) - 52 := by
  obtain ⟨hquotient, -⟩ := scaled_bounds h rfl
  have hone : (Nat.log2 1 : Int) = 0 := rfl
  rw [exponentFor, hone, Int.sub_zero]
  dsimp only at hquotient ⊢
  rw [if_neg (by rw [Nat.pow_eq]; omega)]
  omega

/-- **A whole number becomes the nearest float.** -/
theorem units_ofNat? {n p : Nat} (h : n < 2 ^ 64) (hp : p = 1074) :
    ∃ x, ofNat? n = some x ∧ x.units = (nearest n * 2 ^ p : Nat) := by
  rcases Nat.eq_zero_or_pos n with rfl | hpos
  · refine ⟨zero, by decide +kernel, ?_⟩
    rw [nearest_of_lt (by decide), Nat.zero_mul]
    decide +kernel
  · have hn : n ≠ 0 := by omega
    have hlog := log2_le h
    obtain ⟨-, hleast, hmost, hvalue⟩ := scaled_bounds hn hp
    rw [ofNat?, ofRatio?, if_neg hn, exponentFor_one hn]
    generalize scaled n 1 ((n.log2 : Int) - 52) = fraction at hleast hmost hvalue
    obtain ⟨a, d⟩ := fraction
    dsimp only at hleast hmost hvalue ⊢
    generalize roundDiv a d = m at hleast hmost hvalue
    generalize hcarried : (if m = Nat.pow 2 53 then (Nat.pow 2 52, (n.log2 : Int) - 52 + 1)
      else (m, (n.log2 : Int) - 52)) = carried
    obtain ⟨m', e⟩ := carried
    -- whether or not a bit is carried, the parts are those of the same number
    obtain ⟨hm, hsize, he, hsame⟩ : m' < Nat.pow 2 53 ∧ Nat.pow 2 52 ≤ m' ∧ (-52 ≤ e ∧ e ≤ 12)
        ∧ m' * 2 ^ (e + 1074).toNat = nearest n * 2 ^ p := by
      simp only [Nat.pow_eq] at hcarried ⊢
      split at hcarried
      · rename_i hcarry
        obtain ⟨rfl, rfl⟩ := Prod.mk.inj hcarried
        refine ⟨by decide, le_rfl, by omega, ?_⟩
        rw [← hvalue, hcarry, show ((n.log2 : Int) - 52 + 1 + 1074).toNat
          = ((n.log2 : Int) - 52 + 1074).toNat + 1 by omega, Nat.pow_succ]
        ring
      · obtain ⟨rfl, rfl⟩ := Prod.mk.inj hcarried
        exact ⟨by omega, hleast, by omega, hvalue⟩
    rw [dif_pos ⟨hm, by omega, by omega, Or.inl hsize⟩]
    refine ⟨_, rfl, ?_⟩
    rw [units, ← hsame]
    rfl

/-! ## Integers -/

/-- The float nearest to an integer, as an integer. -/
def nearestInt (n : Int) : Int := if n < 0 then -nearest n.natAbs else nearest n.natAbs

/-- Rounding keeps the order. -/
lemma nearestInt_mono {a b : Int} (h : a ≤ b) : nearestInt a ≤ nearestInt b := by
  rw [nearestInt, nearestInt]
  split <;> split
  · have hmono := nearest_mono (show b.natAbs ≤ a.natAbs by omega)
    omega
  · omega
  · omega
  · have hmono := nearest_mono (show a.natAbs ≤ b.natAbs by omega)
    omega

/-- Integers of 64 bits are rounded by 1024 at most. -/
lemma dist_nearestInt {n : Int} (h : n.natAbs < 2 ^ 64) :
    n ≤ nearestInt n + 1024 ∧ nearestInt n ≤ n + 1024 := by
  have hdist := dist_nearest n.natAbs
  have hspacing := spacing_le h
  rw [nearestInt]
  split <;> omega

lemma units_neg (x : Binary64) : x.neg.units = -x.units := by
  obtain ⟨negative, mantissa, exponent, normal⟩ := x
  cases negative
  · rfl
  · exact (Int.neg_neg _).symm

/-- A fraction made of an integer has the units of the nearest one. -/
lemma units_ofInt {n : Int} {p : Nat} (h : n.natAbs < 2 ^ 64) (hp : p = 1074) :
    (ofInt n).units = nearestInt n * (2 ^ p : Nat) := by
  obtain ⟨x, hx, hunits⟩ := units_ofNat? h hp
  simp only [ofInt, hx, nearestInt]
  split
  · rw [units_neg, hunits, Nat.cast_mul, Int.neg_mul]
  · rw [hunits, Nat.cast_mul]

/-- **As floats, integers have the order of their nearest floats.** -/
theorem order_ofInt {a b : Int} (ha : a.natAbs < 2 ^ 64) (hb : b.natAbs < 2 ^ 64) :
    (ofInt a).order (ofInt b) = compare (nearestInt a) (nearestInt b) := by
  obtain ⟨p, hp⟩ : ∃ p, p = 1074 := ⟨_, rfl⟩
  have hpos : (0 : Int) < (2 ^ p : Nat) := by exact_mod_cast Nat.two_pow_pos p
  rw [order, units_ofInt ha hp, units_ofInt hb hp]
  rcases Int.lt_trichotomy (nearestInt a) (nearestInt b) with h | h | h
  · rw [Int.compare_eq_lt.mpr h, Int.compare_eq_lt.mpr (Int.mul_lt_mul_of_pos_right h hpos)]
  · rw [h, Int.compare_eq_eq.mpr rfl, Int.compare_eq_eq.mpr rfl]
  · rw [Int.compare_eq_gt.mpr h, Int.compare_eq_gt.mpr (Int.mul_lt_mul_of_pos_right h hpos)]

end FleetLedger.Binary64
