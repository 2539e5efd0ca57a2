import Mathlib.Algebra.Group.Nat.Defs
import FleetLedger.Calendar.Timestamp

/-!
# The text of a date names one date

Tallies by day are kept under the text of their day, so two days with one text would share a tally.
**`Date.text_injective`** rules that out for the whole calendar, years before 0 and after 9999
included.

A number comes back from its digits, whatever zeros stand before them (`ofDigitChars_padded`).
Month and day always take two characters (`length_month`, `length_day`), so a text is cut into its
three parts from the right; what is left is the year, whose sign tells the three forms of it apart.
-/

namespace FleetLedger

namespace Date

/-! ## Padded numbers -/

/-- A padded number is zeros and then its digits. -/
lemma toList_padded (width n : Nat) : (padded width n).toList
    = List.replicate (width - (Nat.toDigits 10 n).length) '0' ++ Nat.toDigits 10 n := by
  simp [padded]

lemma ofDigitChars_padded (width n : Nat) :
    Nat.ofDigitChars 10 (padded width n).toList 0 = n := by
  rw [toList_padded, Nat.ofDigitChars_append, Nat.ofDigitChars_replicate_zero, Nat.mul_zero,
    Nat.ofDigitChars_ten_toDigits]

/-- Numbers that are padded to one text are the same, whatever the widths. -/
lemma padded_injective {width width' m n : Nat}
    (h : (padded width m).toList = (padded width' n).toList) : m = n := by
  rw [← ofDigitChars_padded width m, h, ofDigitChars_padded]

lemma isDigit_of_mem_padded {width n : Nat} {c : Char} (h : c ∈ (padded width n).toList) :
    c.isDigit = true := by
  rw [toList_padded] at h
  rcases List.mem_append.mp h with h | h
  · rw [List.eq_of_mem_replicate h]
    rfl
  · exact Nat.isDigit_of_mem_toDigits (by omega) (by omega) h

lemma length_padded {width n : Nat} (hpos : 0 < width) (h : n < 10 ^ width) :
    (padded width n).toList.length = width := by
  have hle : (Nat.toDigits 10 n).length ≤ width :=
    (Nat.length_toDigits_le_iff (by omega) hpos).mpr h
  rw [toList_padded, List.length_append, List.length_replicate]
  omega

/-! ## Years -/

/-- A sign is no digit, so no padded number starts with one. -/
lemma sign_append_ne_padded {sign : Char} (hsign : sign.isDigit = false) (rest : List Char)
    (width n : Nat) : sign :: rest ≠ (padded width n).toList := by
  intro h
  have hmem : sign ∈ (padded width n).toList := h ▸ List.mem_cons_self
  rw [isDigit_of_mem_padded hmem] at hsign
  exact Bool.noConfusion hsign

/-- The three forms of a year: a sign or none, and its digits. -/
lemma toList_yearText (y : Int) :
    y < 0 ∧ (yearText y).toList = '-' :: (padded 4 y.natAbs).toList
      ∨ 9999 < y ∧ (yearText y).toList = '+' :: (padded 5 y.natAbs).toList
      ∨ 0 ≤ y ∧ (yearText y).toList = (padded 4 y.natAbs).toList := by
  simp only [yearText]
  split
  case isTrue hneg => exact Or.inl ⟨hneg, by simp⟩
  case isFalse hneg =>
    split
    case isTrue hlong => exact Or.inr (Or.inl ⟨hlong, by simp⟩)
    case isFalse => exact Or.inr (Or.inr ⟨by omega, rfl⟩)

/-- No two years have one text. -/
lemma yearText_injective {y z : Int} (h : (yearText y).toList = (yearText z).toList) : y = z := by
  have hminus : ('-' : Char).isDigit = false := rfl
  have hplus : ('+' : Char).isDigit = false := rfl
  rcases toList_yearText y with ⟨hy, ey⟩ | ⟨hy, ey⟩ | ⟨hy, ey⟩ <;>
    rcases toList_yearText z with ⟨hz, ez⟩ | ⟨hz, ez⟩ | ⟨hz, ez⟩ <;> rw [ey, ez] at h
  · have := padded_injective (List.cons.inj h).2
    omega
  · exact absurd (List.cons.inj h).1 (by decide)
  · exact absurd h (sign_append_ne_padded hminus _ _ _)
  · exact absurd (List.cons.inj h).1 (by decide)
  · have := padded_injective (List.cons.inj h).2
    omega
  · exact absurd h (sign_append_ne_padded hplus _ _ _)
  · exact absurd h.symm (sign_append_ne_padded hminus _ _ _)
  · exact absurd h.symm (sign_append_ne_padded hplus _ _ _)
  · have := padded_injective h
    omega

end Date

/-! ## Months and days -/

/-- The civil form has a month of the year and a day of a month. -/
lemma Civil.ofDayCount_bounds (n : Int) : (1 ≤ (ofDayCount n).month ∧ (ofDayCount n).month ≤ 12)
    ∧ 1 ≤ (ofDayCount n).day ∧ (ofDayCount n).day ≤ 31 := by
  have hd : 0 ≤ n + 719468 - (n + 719468) / 146097 * 146097
      ∧ n + 719468 - (n + 719468) / 146097 * 146097 < 146097 := by omega
  generalize hc : (n + 719468) / 146097 = cycle at hd
  generalize hday : n + 719468 - cycle * 146097 = d at hd
  have ht := dayOfYear_bounds hd
  generalize hyear : d - daysBefore (yearOfCycle d) = t at ht
  have hm : 0 ≤ monthOfYear t ∧ monthOfYear t < 12 := by simp only [monthOfYear]; omega
  have hdays : 1 ≤ t - daysBeforeMonth (monthOfYear t) + 1
      ∧ t - daysBeforeMonth (monthOfYear t) + 1 ≤ 31 := by
    simp only [daysBeforeMonth, monthOfYear]
    omega
  simp only [ofDayCount, hc, hday, hyear, ofMarch]
  split
  · exact ⟨⟨by show 1 ≤ monthOfYear t + 3; omega, by show monthOfYear t + 3 ≤ 12; omega⟩, hdays⟩
  · exact ⟨⟨by show 1 ≤ monthOfYear t - 9; omega, by show monthOfYear t - 9 ≤ 12; omega⟩, hdays⟩

namespace Date

/-- A date is written as its year, month and day, with a dash between. -/
lemma toList_text (d : Date) : d.text.toList
    = (yearText d.civil.year).toList ++ '-' :: (padded 2 d.civil.month.natAbs).toList
      ++ '-' :: (padded 2 d.civil.day.natAbs).toList := by
  simp [text]

lemma length_month (d : Date) : (padded 2 d.civil.month.natAbs).toList.length = 2 := by
  obtain ⟨⟨hm, hm12⟩, -⟩ := Civil.ofDayCount_bounds d.count
  exact length_padded (by omega) (by simp only [civil]; omega)

lemma length_day (d : Date) : (padded 2 d.civil.day.natAbs).toList.length = 2 := by
  obtain ⟨-, hd, hd31⟩ := Civil.ofDayCount_bounds d.count
  exact length_padded (by omega) (by simp only [civil]; omega)

lemma count_inj {d d' : Date} : d.count = d'.count ↔ d = d' := by
  cases d
  cases d'
  simp

/-- No two days have one date in the calendar. -/
lemma civil_injective {d d' : Date} (h : d.civil = d'.civil) : d = d' := by
  rw [← count_inj, ← Civil.dayCount_ofDayCount d.count, ← Civil.dayCount_ofDayCount d'.count]
  exact congrArg Civil.dayCount h

/-- **A date is known from its text.** -/
theorem text_injective {d d' : Date} (h : d.text = d'.text) : d = d' := by
  have hlist := congrArg String.toList h
  obtain ⟨⟨hm, hm12⟩, hd, hd31⟩ := Civil.ofDayCount_bounds d.count
  obtain ⟨⟨hm', hm12'⟩, hd', hd31'⟩ := Civil.ofDayCount_bounds d'.count
  have hmonths : (padded 2 d.civil.month.natAbs).toList.length
      = (padded 2 d'.civil.month.natAbs).toList.length := by rw [length_month, length_month]
  have hdays : (padded 2 d.civil.day.natAbs).toList.length
      = (padded 2 d'.civil.day.natAbs).toList.length := by rw [length_day, length_day]
  rw [toList_text, toList_text] at hlist
  -- cut from the right: first the day, then the month
  obtain ⟨hfront, hday⟩ := List.append_inj' hlist (by simpa using hdays)
  obtain ⟨hyear, hmonth⟩ := List.append_inj' hfront (by simpa using hmonths)
  have heq : d.civil.year = d'.civil.year := yearText_injective hyear
  have hmeq := padded_injective (List.cons.inj hmonth).2
  have hdeq := padded_injective (List.cons.inj hday).2
  refine civil_injective ?_
  simp only [civil] at heq hmeq hdeq ⊢
  rw [Civil.mk.injEq]
  exact ⟨heq, by omega, by omega⟩

end Date

/-- Two instants have one day key exactly when they lie on one day. -/
lemma Timestamp.dayKey_eq_text_iff {t : Timestamp} {d : Date} : t.dayKey = d.text ↔ t.day = d :=
  ⟨fun h => Date.text_injective h, fun h => h ▸ rfl⟩

end FleetLedger
