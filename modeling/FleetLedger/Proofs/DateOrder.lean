import FleetLedger.Proofs.CivilCalendar
import FleetLedger.Proofs.DayRanges
import FleetLedger.Proofs.Numerals

/-!
# Dates in their order

Three orders of dates are compared here: by day counts, as ranges of days go; by year, month and day, as
the calendar goes; and by the characters of their texts, as tallies are sorted by day.  The first two are
the same order on all dates (`Date.civil_before_iff`).

Texts follow it where they have one form, which is in the years from 0 to 9999.  Numbers that are padded to
one width are in order of size (`padded_lt_iff`), and texts that are put together of parts of fixed width
compare part by part (`append_lt_append_iff`), the year first: **`Date.text_lt_iff`**.  A year before or
after has a sign, and there the characters say nothing about time.
-/

namespace FleetLedger

/-! ## Parts of fixed width -/

/-- Among texts with beginnings of one length, the beginnings decide, and where they are equal the
rest. -/
lemma append_lt_append_iff {l l' m m' : List Char} (h : l.length = l'.length) :
    l ++ m < l' ++ m' ↔ l < l' ∨ l = l' ∧ m < m' := by
  induction l generalizing l' with
  | nil =>
      obtain rfl := List.eq_nil_of_length_eq_zero h.symm
      simp
  | cons c l ih =>
      cases l' with
      | nil => exact absurd h (by simp)
      | cons c' l' =>
          have hrest : l ++ m < l' ++ m' ↔ l < l' ∨ l = l' ∧ m < m' := ih (by simpa using h)
          simp only [List.cons_append, List.cons_lt_cons_iff, hrest, List.cons.injEq]
          grind

/-! ## Numbers of fixed width -/

lemma ofDigitChars_cons_zero (c : Char) (l : List Char) :
    Nat.ofDigitChars 10 (c :: l) 0 = 10 ^ l.length * (c.toNat - 48) + Nat.ofDigitChars 10 l 0 := by
  rw [Nat.ofDigitChars_cons, Nat.ofDigitChars_eq_ofDigitChars_zero, Nat.mul_zero, Nat.zero_add]
  rfl

lemma ofDigitChars_lt {l : List Char} (h : ∀ c ∈ l, c.isDigit = true) :
    Nat.ofDigitChars 10 l 0 < 10 ^ l.length := by
  induction l with
  | nil => simp
  | cons c l ih =>
      obtain ⟨hc, hl⟩ := List.forall_mem_cons.mp h
      have hrest := ih hl
      have hdigit := Numeral.isDigit_bounds hc
      have hplace : 10 ^ l.length * (c.toNat - 48) ≤ 10 ^ l.length * 9 :=
        Nat.mul_le_mul_left _ (by omega)
      rw [ofDigitChars_cons_zero, List.length_cons, Nat.pow_succ]
      omega

/-- Digits are in order of the number that they are read as. -/
lemma digits_lt_iff {l l' : List Char} (hlength : l.length = l'.length)
    (h : ∀ c ∈ l, c.isDigit = true) (h' : ∀ c ∈ l', c.isDigit = true) :
    l < l' ↔ Nat.ofDigitChars 10 l 0 < Nat.ofDigitChars 10 l' 0 := by
  induction l generalizing l' with
  | nil =>
      obtain rfl := List.eq_nil_of_length_eq_zero hlength.symm
      simp
  | cons c l ih =>
      cases l' with
      | nil => exact absurd hlength (by simp)
      | cons c' l' =>
          obtain ⟨hc, hl⟩ := List.forall_mem_cons.mp h
          obtain ⟨hc', hl'⟩ := List.forall_mem_cons.mp h'
          have hsame : l.length = l'.length := by simpa using hlength
          have hrest := ofDigitChars_lt hl
          have hrest' := ofDigitChars_lt hl'
          have hdigit := Numeral.isDigit_bounds hc
          have hdigit' := Numeral.isDigit_bounds hc'
          rw [List.cons_lt_cons_iff, ih hsame hl hl', ofDigitChars_cons_zero, ofDigitChars_cons_zero,
            hsame]
          rw [hsame] at hrest
          rcases Nat.lt_trichotomy c.toNat c'.toNat with hlt | heq | hgt
          · have hplace : 10 ^ l'.length * (c.toNat - 48 + 1) ≤ 10 ^ l'.length * (c'.toNat - 48) :=
              Nat.mul_le_mul_left _ (by omega)
            refine iff_of_true (Or.inl hlt) ?_
            rw [Nat.mul_succ] at hplace
            omega
          · obtain rfl : c = c' := Char.toNat_inj.mp heq
            simp
          · have hplace : 10 ^ l'.length * (c'.toNat - 48 + 1) ≤ 10 ^ l'.length * (c.toNat - 48) :=
              Nat.mul_le_mul_left _ (by omega)
            refine iff_of_false ?_ ?_
            · rintro (hlt | ⟨rfl, -⟩)
              · exact Nat.lt_asymm hgt hlt
              · exact Nat.lt_irrefl _ hgt
            · rw [Nat.mul_succ] at hplace
              omega

namespace Date

/-- Numbers of one width are ordered as texts as they are as numbers. -/
lemma padded_lt_iff {width n n' : Nat} (hpos : 0 < width) (h : n < 10 ^ width)
    (h' : n' < 10 ^ width) : (padded width n).toList < (padded width n').toList ↔ n < n' := by
  have hlength : (padded width n).toList.length = (padded width n').toList.length := by
    rw [length_padded hpos h, length_padded hpos h']
  rw [digits_lt_iff hlength (fun c hc => isDigit_of_mem_padded hc)
    (fun c hc => isDigit_of_mem_padded hc), ofDigitChars_padded, ofDigitChars_padded]

/-! ## Dates -/

/-- A date is before another if it has the smaller count of days. -/
lemma civil_before_iff {d d' : Date} : d.civil.Before d'.civil ↔ d.count < d'.count :=
  Civil.ofDayCount_before_iff

/-- One day later is the next date of the calendar. -/
lemma civil_of_count_succ {d d' : Date} (h : d'.count = d.count + 1) :
    d'.civil = d.civil.next := by
  rw [civil, civil, h, Civil.ofDayCount_add_one]

/-- A year of at most four digits is written without a sign. -/
lemma toList_yearText_of_le {y : Int} (h : 0 ≤ y ∧ y ≤ 9999) :
    (yearText y).toList = (padded 4 y.natAbs).toList := by
  rcases toList_yearText y with ⟨hy, -⟩ | ⟨hy, -⟩ | ⟨-, hy⟩
  · omega
  · omega
  · exact hy

lemma natAbs_padded_lt_iff {width : Nat} {a b : Int} (hpos : 0 < width)
    (ha : 0 ≤ a ∧ a.natAbs < 10 ^ width) (hb : 0 ≤ b ∧ b.natAbs < 10 ^ width) :
    (padded width a.natAbs).toList < (padded width b.natAbs).toList ↔ a < b := by
  rw [padded_lt_iff hpos ha.2 hb.2]
  omega

lemma natAbs_padded_inj {width : Nat} {a b : Int} (ha : 0 ≤ a) (hb : 0 ≤ b) :
    (padded width a.natAbs).toList = (padded width b.natAbs).toList ↔ a = b := by
  refine ⟨fun h => ?_, fun h => h ▸ rfl⟩
  have := padded_injective h
  omega

/-- **Texts are in order of time** in the years that have four digits and no sign. -/
theorem text_lt_iff {d d' : Date} (h : 0 ≤ d.civil.year ∧ d.civil.year ≤ 9999)
    (h' : 0 ≤ d'.civil.year ∧ d'.civil.year ≤ 9999) : d.text < d'.text ↔ d.count < d'.count := by
  have hbounds : (1 ≤ d.civil.month ∧ d.civil.month ≤ 12) ∧ 1 ≤ d.civil.day ∧ d.civil.day ≤ 31 :=
    Civil.ofDayCount_bounds d.count
  have hbounds' : (1 ≤ d'.civil.month ∧ d'.civil.month ≤ 12)
      ∧ 1 ≤ d'.civil.day ∧ d'.civil.day ≤ 31 := Civil.ofDayCount_bounds d'.count
  have hyears : (padded 4 d.civil.year.natAbs).toList.length
      = (padded 4 d'.civil.year.natAbs).toList.length := by
    rw [length_padded (by omega) (by omega), length_padded (by omega) (by omega)]
  have hmonths : (padded 2 d.civil.month.natAbs).toList.length
      = (padded 2 d'.civil.month.natAbs).toList.length := by rw [length_month, length_month]
  have hchars : d.text < d'.text ↔ d.text.toList < d'.text.toList := Iff.rfl
  -- the year comes first, then the month, and the hyphens are the same
  rw [hchars, toList_text, toList_text, toList_yearText_of_le h, toList_yearText_of_le h',
    List.append_assoc, List.append_assoc, append_lt_append_iff hyears]
  simp only [List.cons_append, List.cons_lt_cons_iff, Char.lt_irrefl, false_or, true_and,
    append_lt_append_iff hmonths]
  simp (disch := omega) only [natAbs_padded_lt_iff, natAbs_padded_inj]
  exact civil_before_iff

end Date

/-! ## Ranges of days -/

/-- **Ranges have all their days, and the texts of days tell them apart.**  A range that does not end
before it begins lists each day from its first to its last once, in order, also where the calendar ends
with it; what follows a day in the list is the next day of the calendar.  Any other range is refused.
The order of dates is that of the calendar, no two dates have one text, and in the years from 0 to 9999
the texts are in order of time, too. -/
theorem days_listed_in_order :
    (∀ first last : Date, first.count ≤ last.count → ∃ days, Date.through first last = .ok days
      ∧ (days.length : Int) = last.count - first.count + 1
      ∧ (days.Pairwise fun d d' => d.count < d'.count)
      ∧ (∀ d, d ∈ days ↔ first.count ≤ d.count ∧ d.count ≤ last.count)
      ∧ days.IsChain fun d d' => d'.civil = d.civil.next)
      ∧ (∀ first last : Date, last.count < first.count → Date.through first last
        = .error (.validation ("End date " ++ last.text ++ " is before begin date " ++ first.text)))
      ∧ (∀ d d' : Date, d.civil.Before d'.civil ↔ d.count < d'.count)
      ∧ (∀ d d' : Date, d.text = d'.text → d = d')
      ∧ ∀ d d' : Date, 0 ≤ d.civil.year ∧ d.civil.year ≤ 9999 →
        0 ≤ d'.civil.year ∧ d'.civil.year ≤ 9999 → (d.text < d'.text ↔ d.count < d'.count) := by
  refine ⟨?_, ?_, ?_, ?_, ?_⟩
  · intro first last hle
    obtain ⟨days, hdays, hordered, hmem⟩ := Date.through_spec hle
    refine ⟨days, hdays, Date.length_through hdays, hordered, hmem, ?_⟩
    refine List.isChain_iff_getElem.mpr fun i hi => Date.civil_of_count_succ ?_
    rw [Date.count_getElem_through hdays, Date.count_getElem_through hdays]
    omega
  · intro first last hlt
    exact if_pos hlt
  · intro d d'
    exact Date.civil_before_iff
  · intro d d' h
    exact Date.text_injective h
  · intro d d' h h'
    exact Date.text_lt_iff h h'

end FleetLedger
