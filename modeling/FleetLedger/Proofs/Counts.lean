import Mathlib.Algebra.Group.Nat.Defs
import FleetLedger.Proofs.Documents
import FleetLedger.Ledger

/-!
# The documents of tallies

All tallies share one collection: the one for all time and those of single days, told apart by their
names, and the latter by their dates.  `Count` is what such a document stands for, `Count.Shown` how
it stands for it.

A document that a filter pins shows a count of nothing (`shown_pinned`), and what recording an
execution adds to a document that shows a count makes it show the next one (`Shown.increments`).  So
it makes no difference who finds a tally missing and who finds it there.

Counters are integers of 63 bits, and adding to one that left that range starts anew.  `ticked` is
what a counter says after so many additions, whatever their number; up to `2 ^ 63` it is that number
(`ticked_eq`), and a count below `2 ^ 63` is read as it is (`Shown.decode`).
-/

namespace FleetLedger

open Ledger

/-! ## Counters -/

/-- What a counter says after `n` additions of one. -/
def ticked : Nat → Int
  | 0 => 0
  | n + 1 => ((Json.int (ticked n)).signed?).getD 0 + 1

lemma ticked_eq {n : Nat} (h : n ≤ 2 ^ 63) : ticked n = n := by
  induction n with
  | zero => rfl
  | succ n ih =>
      have hn : ticked n = n := ih (by omega)
      have hrange : Json.leastInt ≤ (n : Int) ∧ (n : Int) ≤ Json.greatestSigned := by
        simp only [Json.leastInt, Json.greatestSigned]
        omega
      rw [ticked, hn, Json.signed?, if_pos hrange]
      simp

/-- The field of a counter, which is missing until something is added. -/
def counterField (n : Nat) : Option Json := if n = 0 then none else some (.int (ticked n))

lemma counterField_add_one (n : Nat) :
    some (.int (((counterField n).bind Json.signed?).getD 0 + 1)) = counterField (n + 1) := by
  cases n with
  | zero => rfl
  | succ n => rfl

/-- A counter within the range is read as it is. -/
lemma run_counterField {d : Document} {name : String} {n : Nat}
    (h : d.get? name = counterField n) (hn : n < 2 ^ 63) :
    (Decoding.withDefault name 0 Decoding.int64).run d = .ok (n : Int) := by
  refine Decoding.run_withDefault ?_
  rw [h, counterField]
  split
  case isTrue hzero => exact Or.inl ⟨rfl, by omega⟩
  case isFalse =>
    have hrange : Json.leastInt ≤ (n : Int) ∧ (n : Int) ≤ Json.greatestSigned := by
      simp only [Json.leastInt, Json.greatestSigned]
      omega
    refine Or.inr ⟨_, rfl, ?_⟩
    rw [ticked_eq (by omega), Decoding.int64, Decoding.integer, if_pos hrange]

/-! ## Periods and counts -/

/-- What a tally counts: all executions, or those recorded on a day, which goes by its key. -/
inductive Period where
  | allTime
  | day (key : String)
  deriving DecidableEq

namespace Period

/-- The name of the tallies of a period: one for all time, and one that all days share. -/
def name : Period → String
  | allTime => Ledger.allTime
  | day _ => Ledger.daily

/-- The day of a period, which tells tallies of days apart. -/
def date? : Period → Option String
  | allTime => none
  | day key => some key

/-- Holds of the document of a period. -/
def filter : Period → Filter
  | allTime => .eqString "name" Ledger.allTime
  | day key => .and [.eqString "name" Ledger.daily, .eqString "date" key]

end Period

/-- How many executions were recorded in a period, by how they ended. -/
structure Count where
  period : Period
  succeeded : Nat := 0
  failed : Nat := 0

namespace Count

/-- One more execution, which succeeded or failed. -/
def add (c : Count) (success : Bool) : Count :=
  if success then { c with succeeded := c.succeeded + 1 } else { c with failed := c.failed + 1 }

@[simp] lemma period_add (c : Count) (success : Bool) : (c.add success).period = c.period := by
  cases success <;> rfl

/-- The tally that a count amounts to. -/
def tally (c : Count) : Tally where
  total := (c.succeeded + c.failed : Nat)
  succeeded := c.succeeded
  failed := c.failed
  date := c.period.date?

/-- **A document shows a count.** -/
structure Shown (c : Count) (d : Document) : Prop where
  name : d.get? "name" = some (.string c.period.name)
  date : d.get? "date" = c.period.date?.map .string
  total : d.get? "total" = counterField (c.succeeded + c.failed)
  succeeded : d.get? "successed" = counterField c.succeeded
  failed : d.get? "failed" = counterField c.failed

/-- What a filter pins shows that nothing was counted yet. -/
lemma shown_pinned (p : Period) : Shown { period := p } p.filter.pinned := by
  cases p <;> constructor <;>
    simp [Period.filter, Filter.pinned, Filter.equalities, Filter.equalitiesOf, Filter.eqString,
      Table.ofList, Table.merge, Table.get?_insert, Period.name, Period.date?, counterField]

/-- **Counting an execution** makes a document show one more. -/
theorem Shown.increments {c : Count} {d : Document} (h : Shown c d) (e : Execution) :
    Shown (c.add e.success) ((increments e).apply d) := by
  have htotal := counterField_add_one (c.succeeded + c.failed)
  cases hs : e.success with
  | true =>
      have hsucceeded := counterField_add_one c.succeeded
      constructor <;>
        simp [Ledger.increments, hs, Update.apply, Update.get?_add, add, h.name, h.date, h.total,
          h.succeeded, h.failed, htotal, hsucceeded, Nat.add_right_comm]
  | false =>
      have hfailed := counterField_add_one c.failed
      constructor <;>
        simp [Ledger.increments, hs, Update.apply, Update.get?_add, add, h.name, h.date, h.total,
          h.succeeded, h.failed, htotal, hfailed, Nat.add_assoc]

/-- The filter of a period holds of the documents of that period only. -/
lemma Shown.holds_filter {c : Count} {d : Document} (h : Shown c d) (p : Period) :
    p.filter.holds d = true ↔ c.period = p := by
  cases p with
  | allTime =>
      rw [Period.filter, Filter.holds_eqString, h.name]
      cases c.period <;> simp [Period.name, Ledger.allTime, Ledger.daily]
  | day key =>
      simp only [Period.filter, Filter.holds_and, List.all_cons, List.all_nil, Bool.and_true,
        Bool.and_eq_true, Filter.holds_eqString, h.name, h.date]
      cases c.period <;> simp [Period.name, Period.date?, Ledger.allTime, Ledger.daily]

/-- **A count below `2 ^ 63` is read as it is.** -/
theorem Shown.decode {c : Count} {d : Document} (h : Shown c d)
    (hfit : c.succeeded + c.failed < 2 ^ 63) : Tally.decoder.run d = .ok c.tally := by
  have hdate : (Decoding.optional "date" Decoding.string).run d = .ok c.period.date? := by
    have hshown := h.date
    cases hp : c.period.date? with
    | none => exact Decoding.run_optional_none (Or.inl (by rw [hshown, hp]; rfl))
    | some key =>
        rw [hp] at hshown
        exact Decoding.run_optional_some hshown (by simp) rfl
  open Decoding Decoder in
  have hfields := run_seq (run_seq (run_seq (run_map (f := Tally.mk)
    (run_counterField h.total hfit))
    (run_counterField h.succeeded (by omega)))
    (run_counterField h.failed (by omega)))
    hdate
  exact hfields

end Count

end FleetLedger
