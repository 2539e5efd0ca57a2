import Mathlib.Data.List.Basic
import FleetLedger.Calendar.Days

/-!
# The days of a range

A range of days that does not end before it begins has each of its days once, in order.
-/

namespace FleetLedger.Date

/-- A count of days is that of a date if and only if the calendar reaches so far. -/
lemma ofCount?_eq_some_iff {n : Int} {d : Date} : ofCount? n = some d ↔ d.count = n := by
  have hfirst := d.first_le
  have hlast := d.le_last
  simp only [ofCount?]
  constructor
  · intro h
    split at h
    · rw [← Option.some.inj h]
    · exact absurd h (by simp)
  · rintro rfl
    rw [dif_pos ⟨hfirst, hlast⟩]

/-- The days from a date on are those whose count is in the range, as far as the calendar goes. -/
lemma mem_upFrom_iff {first d : Date} {n : Nat} :
    d ∈ first.upFrom n ↔ first.count ≤ d.count ∧ d.count < first.count + n := by
  simp only [upFrom, List.mem_filterMap, List.mem_range, ofCount?_eq_some_iff]
  constructor
  · rintro ⟨i, hi, hd⟩
    omega
  · rintro ⟨hle, hlt⟩
    exact ⟨(d.count - first.count).toNat, by omega, by omega⟩

lemma pairwise_upFrom (first : Date) (n : Nat) :
    (first.upFrom n).Pairwise fun d d' => d.count < d'.count := by
  rw [upFrom, List.pairwise_filterMap]
  refine List.pairwise_lt_range.imp fun {i j} hij d hd d' hd' => ?_
  rw [ofCount?_eq_some_iff] at hd hd'
  omega

/-- Within the calendar no day is left out. -/
lemma map_count_upFrom {first : Date} {n : Nat} (h : first.count + n ≤ lastCount + 1) :
    (first.upFrom n).map Date.count = (List.range n).map fun (i : Nat) => first.count + i := by
  have hfirst := first.first_le
  rw [upFrom, List.map_filterMap, ← List.filterMap_eq_map]
  refine List.filterMap_congr fun i hi => ?_
  rw [List.mem_range] at hi
  have hin : -96465292 ≤ first.count + i ∧ first.count + i ≤ 95026236 := by
    simp only [lastCount] at h
    omega
  simp only [ofCount?, dif_pos hin, Option.map_some, Function.comp_apply]

/-- There are as many days as asked for, unless the calendar ends before. -/
lemma length_upFrom {first : Date} {n : Nat} (h : first.count + n ≤ lastCount + 1) :
    (first.upFrom n).length = n := by
  have hlengths := congrArg List.length (map_count_upFrom h)
  simpa using hlengths

lemma count_getElem_upFrom {first : Date} {n i : Nat} (h : first.count + n ≤ lastCount + 1)
    (hi : i < (first.upFrom n).length) : (first.upFrom n)[i].count = first.count + i := by
  have hlt : i < n := length_upFrom h ▸ hi
  have hplace := congrArg (fun counts => counts[i]?) (map_count_upFrom h)
  simpa [hlt, hi] using hplace

/-! ## Ranges -/

/-- There are days from one date through another if the first is not later. -/
lemma through_eq_ok_iff {first last : Date} {days : List Date} : through first last = .ok days
    ↔ first.count ≤ last.count ∧ days = first.upFrom ((last.count - first.count).toNat + 1) := by
  rw [through]
  split
  case isTrue hlt => exact iff_of_false (by simp) (by omega)
  case isFalse hle =>
    rw [Except.ok.injEq, eq_comm, and_iff_right (Int.not_lt.mp hle)]

section Through

variable {first last : Date} {days : List Date} (hdays : through first last = .ok days)
include hdays

lemma pairwise_through : days.Pairwise fun d d' => d.count < d'.count := by
  obtain ⟨-, rfl⟩ := through_eq_ok_iff.mp hdays
  exact pairwise_upFrom ..

/-- The days from one date through another are all that are not before it and not after the other.
-/
lemma mem_through_iff {d : Date} : d ∈ days ↔ first.count ≤ d.count ∧ d.count ≤ last.count := by
  obtain ⟨hle, rfl⟩ := through_eq_ok_iff.mp hdays
  rw [mem_upFrom_iff]
  omega

/-- A range stays within the calendar, also where it has its last day. -/
lemma through_fits :
    first.count + ((last.count - first.count).toNat + 1 : Nat) ≤ lastCount + 1 := by
  obtain ⟨hle, -⟩ := through_eq_ok_iff.mp hdays
  have hlast := last.le_last
  simp only [lastCount]
  omega

lemma length_through : (days.length : Int) = last.count - first.count + 1 := by
  have hfits := through_fits hdays
  obtain ⟨hle, rfl⟩ := through_eq_ok_iff.mp hdays
  rw [length_upFrom hfits]
  omega

/-- The day at a place is so many days after the first. -/
lemma count_getElem_through {i : Nat} (hi : i < days.length) :
    days[i].count = first.count + i := by
  have hfits := through_fits hdays
  obtain ⟨-, rfl⟩ := through_eq_ok_iff.mp hdays
  exact count_getElem_upFrom hfits hi

end Through

/-- **The days of a range** are all that lie between its ends, in order. -/
theorem through_spec {first last : Date} (h : first.count ≤ last.count) :
    ∃ days, through first last = .ok days
      ∧ (days.Pairwise fun d d' => d.count < d'.count)
      ∧ ∀ d, d ∈ days ↔ first.count ≤ d.count ∧ d.count ≤ last.count := by
  have hdays := through_eq_ok_iff.mpr ⟨h, rfl⟩
  exact ⟨_, hdays, pairwise_through hdays, fun d => mem_through_iff hdays⟩

end FleetLedger.Date
