import Mathlib.Tactic.Lemma
import FleetLedger.Rehearsal.Keys

/-!
# Calls in a rehearsal

What a call of the key-value store comes to (`run_keyCall`), and how calls follow each other: a call
that is answered hands its answer and the rehearsal to what comes after it (**`run_bind`**).
-/

namespace FleetLedger.Rehearsal

variable {α β : Type}

/-- A call that is out fails, and changes nothing. -/
lemma run_keyCall (call : KeyCall) (f : Rehearsal → Rehearsal × β) (s : Rehearsal) :
    (keyCall call f).run.run.run s
      = if s.keysOut call then (some (.error .refused), s) else (some (.ok (f s).2), (f s).1) := by
  have hanswer : (keyCall call f).run.run.run s
      = (fun x : Except Error β × Rehearsal => (some x.1, x.2))
        (if s.keysOut call then (.error .refused, s) else (.ok (f s).2, (f s).1)) := rfl
  rw [hanswer]
  split <;> rfl

lemma run_keyCall_ok {call : KeyCall} (f : Rehearsal → Rehearsal × β) {s : Rehearsal}
    (h : s.keysOut call = false) :
    (keyCall call f).run.run.run s = (some (.ok (f s).2), (f s).1) :=
  (run_keyCall call f s).trans (if_neg (ne_true_of_eq_false h))

lemma keysOut_of_gone {s : Rehearsal} (h : s.keysGone = true) (call : KeyCall) :
    s.keysOut call = true := by
  rw [keysOut, h, Bool.true_or]

/-- **One call after the other.** -/
theorem run_bind {x : ExceptT Error Action α} {s s' : Rehearsal} {a : α}
    (h : x.run.run.run s = (some (.ok a), s')) (f : α → ExceptT Error Action β) :
    (x >>= f).run.run.run s = (f a).run.run.run s' := by
  simp only [ExceptT.run_bind, OptionT.run_bind, Option.elimM, StateT.run_bind, h]
  rfl

/-- Nothing comes after what fails. -/
lemma run_bind_error {x : ExceptT Error Action α} {s s' : Rehearsal} {e : Error}
    (h : x.run.run.run s = (some (.error e), s')) (f : α → ExceptT Error Action β) :
    (x >>= f).run.run.run s = (some (.error e), s') := by
  simp only [ExceptT.run_bind, OptionT.run_bind, Option.elimM, StateT.run_bind, h]
  rfl

/-- **What is left by a call and by what comes after it**: a call that is out changes nothing, and
nothing comes after it. -/
theorem state_bind {P : Rehearsal → Prop} {call : KeyCall} {x : ExceptT Error Action α}
    {g : Rehearsal → Rehearsal × α} (hx : x = keyCall call g) {f : α → ExceptT Error Action β}
    {s : Rehearsal} (hout : s.keysOut call = true → P s)
    (hanswered : s.keysOut call = false → P ((f (g s).2).run.run.run (g s).1).2) :
    P ((x >>= f).run.run.run s).2 := by
  subst hx
  cases h : s.keysOut call with
  | false =>
      rw [run_bind (run_keyCall_ok g h) f]
      exact hanswered h
  | true =>
      rw [run_bind_error ((run_keyCall call g s).trans (if_pos h)) f]
      exact hout h

/-- One thing after the other, where neither is a call. -/
lemma run_andThen {x : Action α} {s s' : Rehearsal} {a : α} (h : x.run.run s = (some a, s'))
    (f : α → Action β) : (x >>= f).run.run s = (f a).run.run s' := by
  simp only [OptionT.run_bind, Option.elimM, StateT.run_bind, h]
  rfl

/-- What is broken off has nothing after it. -/
lemma run_brokenOff {x : Action α} {s s' : Rehearsal} (h : x.run.run s = (none, s'))
    (f : α → Action β) : (x >>= f).run.run s = (none, s') := by
  simp only [OptionT.run_bind, Option.elimM, StateT.run_bind, h]
  rfl

/-- What cannot fail. -/
lemma run_lift {x : Action α} {s s' : Rehearsal} {a : α} (h : x.run.run s = (some a, s')) :
    (liftM x : ExceptT Error Action α).run.run.run s = (some (.ok a), s') := by
  simp only [ExceptT.run_liftM, OptionT.run_map, StateT.run_map, h]
  rfl

end FleetLedger.Rehearsal
