import Mathlib.Data.List.Chain
import FleetLedger.Pattern.CharSet

/-!
# Case variants are the characters with the same folding

`variants` reads the table of case folding backwards, one run after the other.  What makes this right
are three facts about the table, each of them checked run by run: all code points of the runs and their
images are those of characters (`Run.isValid`), runs do not overlap (`ascending_runs`), and an image is
on no run, so that it is not folded again (`Run.avoids`).

With them a character is a variant of another one exactly if both are folded to the same
(**`mem_variants_iff`**), and a set with one character holds its variants (`CharSet.holds_char_iff`).
-/

namespace FleetLedger.CaseFold

/-! ## The table -/

namespace Run

/-- The code point that a run sends a code point to. -/
def image (r : Run) (n : Nat) : Nat := ((n : Int) + r.shift).toNat

/-- A stretch of code points of characters: they are not surrogates, and not too large. -/
def isScalar (low high : Nat) : Bool :=
  high < 0xD800 || 0xDFFF < low && high < 0x110000

/-- The run and its images consist of code points of characters. -/
def isValid (r : Run) : Bool :=
  0 < r.low && isScalar r.low r.high && 0 ≤ (r.low : Int) + r.shift
    && isScalar (r.image r.low) (r.image r.high)

/-- The images of a run are not on another run: they lie before it, behind it, or in its gaps.  The
comparisons are those that a kernel computes with, as there are many pairs of runs. -/
def avoids (r other : Run) : Bool :=
  Nat.blt (r.image r.high) other.low || Nat.blt other.high (r.image r.low)
    || Nat.beq other.stride 2 && (Nat.beq r.stride 2 || Nat.beq r.low r.high)
      && Nat.beq ((r.image r.low + other.low) % 2) 1

/-- A run lies behind another one, and is not empty. -/
def Follows (r' r : Run) : Prop := r.high < r'.low ∧ r'.low ≤ r'.high

instance : DecidableRel fun r r' : Run => r'.Follows r :=
  fun _ _ => inferInstanceAs (Decidable (_ ∧ _))

end Run

lemma valid_runs : (runs.all Run.isValid) = true := by decide +kernel

lemma chain_runs : runs.IsChain fun r r' => r'.Follows r := by decide +kernel

/-- No image of a run is in a run, so what was folded stays as it is. -/
lemma avoiding_runs : (runs.all fun r => runs.all r.avoids) = true := by decide +kernel

/-! ## Runs as functions -/

lemma toNat_ofNat {n : Nat} (h : n < 0xD800 ∨ 0xDFFF < n ∧ n < 0x110000) :
    (Char.ofNat n).toNat = n := by
  rw [Char.ofNat, dif_pos h]
  rfl

namespace Run

/-- A run has every so many numbers between its bounds. -/
lemma holds_iff {r : Run} {n : Nat} :
    r.holds n = true ↔ r.low ≤ n ∧ n ≤ r.high ∧ (n - r.low) % r.stride = 0 := by
  simp [holds, and_assoc]

section Table

variable {r : Run} {n : Nat} (hr : r ∈ runs) (hn : r.holds n = true)
include hr hn

/-- What lies on a run and where it is sent to. -/
lemma image_spec : (0 < n ∧ (n < 0xD800 ∨ 0xDFFF < n ∧ n < 0x110000))
    ∧ (r.image n : Int) = n + r.shift
    ∧ (r.image n < 0xD800 ∨ 0xDFFF < r.image n ∧ r.image n < 0x110000) := by
  have hvalid := List.all_eq_true.mp valid_runs r hr
  obtain ⟨hlow, hhigh, -⟩ := holds_iff.mp hn
  simp only [isValid, isScalar, Bool.and_eq_true, Bool.or_eq_true, decide_eq_true_eq] at hvalid
  simp only [image] at hvalid ⊢
  omega

/-- Images are on no run. -/
lemma not_holds_image {other : Run} (hother : other ∈ runs) : other.holds (r.image n) = false := by
  have havoids := List.all_eq_true.mp (List.all_eq_true.mp avoiding_runs r hr) other hother
  have hvalid := List.all_eq_true.mp valid_runs r hr
  obtain ⟨hlow, hhigh, hstride⟩ := holds_iff.mp hn
  refine Bool.eq_false_iff.mpr fun hholds => ?_
  obtain ⟨holow, hohigh, hostride⟩ := holds_iff.mp hholds
  simp only [isValid, Bool.and_eq_true, decide_eq_true_eq] at hvalid
  simp only [avoids, Bool.and_eq_true, Bool.or_eq_true, Nat.blt_eq, Nat.beq_eq]
    at havoids
  simp only [image] at havoids holow hohigh hostride
  rcases havoids with (hbefore | hbehind) | ⟨⟨hgaps, hstep⟩, hodd⟩
  · omega
  · omega
  · rw [hgaps] at hostride
    rcases hstep with hstep | hpoint
    · rw [hstep] at hstride
      omega
    · omega

end Table

end Run

/-- No number is in two runs. -/
lemma eq_of_holds {r r' : Run} (hr : r ∈ runs) (hr' : r' ∈ runs) {n : Nat}
    (hn : r.holds n = true) (hn' : r'.holds n = true) : r = r' := by
  by_contra hne
  have hsymm : Std.Symm fun a b : Run => b.Follows a ∨ a.Follows b := ⟨fun _ _ h => h.symm⟩
  have htrans : ∀ {a b c : Run}, b.Follows a → c.Follows b → c.Follows a :=
    fun hab hbc => ⟨Nat.lt_trans hab.1 (Nat.lt_of_le_of_lt hab.2 hbc.1), hbc.2⟩
  have hpairs : runs.Pairwise fun a b => b.Follows a ∨ a.Follows b := by
    have : Trans (fun a b : Run => b.Follows a) (fun a b : Run => b.Follows a)
        fun a b => b.Follows a := ⟨htrans⟩
    exact (List.isChain_iff_pairwise.mp chain_runs).imp Or.inl
  rw [Run.holds_iff] at hn hn'
  rcases hpairs.forall hr hr' hne with h | h
  · have hlt := h.1
    omega
  · have hlt := h.1
    omega

/-- A character in a run is folded to its image there. -/
lemma fold_of_holds {r : Run} (hr : r ∈ runs) {c : Char} (h : r.holds c.toNat = true) :
    fold c = Char.ofNat (r.image c.toNat) := by
  rw [fold]
  cases hfound : runs.find? (·.holds c.toNat) with
  | none => exact absurd h (by simpa using List.find?_eq_none.mp hfound r hr)
  | some r' =>
      have hholds : r'.holds c.toNat = true := by simpa using List.find?_some hfound
      rw [eq_of_holds hr (List.mem_of_find?_eq_some hfound) h hholds]
      rfl

lemma fold_of_not_holds {c : Char} (h : ∀ r ∈ runs, r.holds c.toNat = false) : fold c = c := by
  have hfound : runs.find? (·.holds c.toNat) = none := by
    rw [List.find?_eq_none]
    intro r hr
    simp [h r hr]
  rw [fold, hfound]

/-- A character lies on no run, or on one. -/
lemma holds_cases (c : Char) : (∀ r ∈ runs, r.holds c.toNat = false)
    ∨ ∃ r ∈ runs, r.holds c.toNat = true := by
  by_cases h : ∃ r ∈ runs, r.holds c.toNat = true
  · exact Or.inr h
  · refine Or.inl fun r hr => Bool.eq_false_iff.mpr fun hholds => h ⟨r, hr, hholds⟩

/-- What was folded is not folded again. -/
lemma not_holds_fold (c : Char) {r : Run} (hr : r ∈ runs) : r.holds (fold c).toNat = false := by
  rcases holds_cases c with hnone | ⟨r', hr', hholds⟩
  · rw [fold_of_not_holds hnone]
    exact hnone r hr
  · rw [fold_of_holds hr' hholds, toNat_ofNat (Run.image_spec hr' hholds).2.2]
    exact Run.not_holds_image hr' hholds hr

@[simp] lemma fold_fold (c : Char) : fold (fold c) = fold c :=
  fold_of_not_holds fun _ hr => not_holds_fold c hr

/-! ## Variants -/

/-- **The variants of a character are the characters with its folding.** -/
theorem mem_variants_iff {c x : Char} : c ∈ variants x ↔ fold c = fold x := by
  simp only [variants, List.mem_cons, List.mem_filterMap]
  constructor
  · rintro (rfl | ⟨r, hr, hsource⟩)
    · exact fold_fold x
    · -- a run leads from here to the folded character
      split at hsource
      case isFalse => cases hsource
      case isTrue hholds =>
          obtain ⟨⟨hpositive, hscalar⟩, himage, -⟩ := Run.image_spec hr hholds
          have hnat := toNat_ofNat hscalar
          rw [← Option.some.inj hsource, fold_of_holds hr (by rw [hnat]; exact hholds), hnat]
          have htarget : r.image ((fold x).toNat - r.shift : Int).toNat = (fold x).toNat := by
            omega
          rw [htarget, Char.ofNat_toNat]
  · intro hsame
    rcases holds_cases c with hnone | ⟨r, hr, hholds⟩
    · exact Or.inl ((fold_of_not_holds hnone).symm.trans hsame)
    · refine Or.inr ⟨r, hr, ?_⟩
      obtain ⟨-, himage, hscalar⟩ := Run.image_spec hr hholds
      have hfold : (fold x).toNat = r.image c.toNat := by
        rw [← hsame, fold_of_holds hr hholds, toNat_ofNat hscalar]
      have hsource : ((fold x).toNat - r.shift : Int).toNat = c.toNat := by omega
      rw [hsource, if_pos hholds, Char.ofNat_toNat]

end FleetLedger.CaseFold

namespace FleetLedger.CharSet

/-- A set with one character holds its variants, which are the characters with the same folding. -/
lemma holds_char_iff {c x : Char} :
    (char c).holds x = true ↔ CaseFold.fold c = CaseFold.fold x := by
  rw [← CaseFold.mem_variants_iff]
  simp only [char, holds, Bool.bne_false, List.any_eq_true, List.any_cons, List.any_nil, Bool.or_false,
    Bool.and_eq_true, decide_eq_true_eq]
  constructor
  · rintro ⟨v, hv, hlow, hhigh⟩
    rwa [Char.le_antisymm hlow hhigh]
  · intro hv
    exact ⟨c, hv, Char.le_refl c, Char.le_refl c⟩

end FleetLedger.CharSet
