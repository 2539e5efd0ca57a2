import Mathlib.Data.List.Infix
import Mathlib.Data.List.Induction
import FleetLedger.Coordination.Delivery

/-!
# What a watcher is given

A delivery meets with four things, in any order: items arrive, the forwarder acts, the watcher takes
an event, and the source ends.  A `Course` follows a delivery through such a list of occasions and
keeps what was taken.

What was taken or waits to be taken never changes but at its end, and only when the forwarder
delivers.  So it is at any time what the items stand for that the forwarder has passed
(`Accounted`, **`accounted`**): a first part of the items that arrived, with nothing left out.  A last
event comes after it only if the forwarder found, at one of its looks, that it was overrun, or that
nothing was left to look at and the source had ended (`Breaks`).  **`taken_eq`** says what this means
for the watcher.

`settle` and `drain`, by which deliveries are run, consist of such occasions themselves
(`exists_settle`, `exists_drain`).  So nothing is withheld for good: a watcher who goes on taking is
given everything, unless the forwarder has ended (**`exists_complete`**).  It does not matter at what
pace: as each turn lowers the load, nothing is left to do at some time if forwarder and watcher have
their turns again and again (**`exists_idle`**).
-/

namespace FleetLedger.Delivery

variable {α : Type}

/-- What a delivery meets with. -/
inductive Occasion (α : Type) where
  | arrive (item : α)
  | forward
  | take
  | endSource (reason : String)

/-- The item that arrives. -/
def Occasion.item? : Occasion α → Option α
  | arrive item => some item
  | _ => none

/-- The items that arrive, in order. -/
def arrivals (occasions : List (Occasion α)) : List α := occasions.filterMap Occasion.item?

/-- A delivery, with what was taken by then. -/
structure Course (α : Type) where
  delivery : Delivery α := {}
  taken : List Event := []

namespace Course

/-- What becomes of a delivery on an occasion; where the forwarder has to wait, or nothing is there to
take, it stays as it is. -/
def meet (r : Rules α) (c : Course α) : Occasion α → Course α
  | .arrive item => { c with delivery := c.delivery.push [item] }
  | .forward =>
    match c.delivery.step? r with
    | some (delivery, _) => { c with delivery }
    | none => c
  | .take =>
    match c.delivery.take? with
    | some (e, delivery) => { delivery, taken := c.taken ++ [e] }
    | none => c
  | .endSource reason => { c with delivery := { c.delivery with sourceEnd := some reason } }

/-- What becomes of a delivery on several occasions. -/
def after (r : Rules α) (c : Course α) (occasions : List (Occasion α)) : Course α :=
  occasions.foldl (meet r) c

/-- What the forwarder has delivered so far. -/
def sent (c : Course α) : List Event := c.taken ++ c.delivery.delivered

variable (r : Rules α) (c : Course α)

lemma after_append (os os' : List (Occasion α)) :
    c.after r (os ++ os') = (c.after r os).after r os' := List.foldl_append

lemma after_concat (os : List (Occasion α)) (o : Occasion α) :
    c.after r (os ++ [o]) = (c.after r os).meet r o := List.foldl_append

/-- What was taken was sent before, in the same order. -/
lemma taken_prefix_sent : c.taken <+: c.sent := List.prefix_append ..

/-- Taking is no delivering. -/
lemma sent_meet_take : (c.meet r .take).sent = c.sent := by
  obtain ⟨d, taken⟩ := c
  cases h : d.delivered with
  | nil => simp [meet, take?, sent, h]
  | cons e es => simp [meet, take?, sent, h]

lemma phase_meet_take : (c.meet r .take).delivery.phase = c.delivery.phase := by
  simp only [meet, take?]
  cases c.delivery.delivered <;> rfl

lemma waiting_meet_take : (c.meet r .take).delivery.waiting = c.delivery.waiting := by
  simp only [meet, take?]
  cases c.delivery.delivered <;> rfl

end Course

/-- Items were missed if more of them wait than may wait. -/
lemma length_of_skipped? {r : Rules α} {d : Delivery α} {limit n : Nat} (hlimit : r.limit = some limit)
    (h : d.skipped? r = some n) : d.waiting.length = limit + n ∧ 0 < n := by
  rw [skipped?, hlimit, Option.bind_some] at h
  split at h
  · have hn : d.waiting.length - limit = n := Option.some.inj h
    omega
  · cases h

/-! ## The account -/

/-- A look at which the forwarder has passed the items `passed` of those that arrived, and ends for a
reason: more items wait than may wait, or none waits and the source has ended. -/
structure Breaks (r : Rules α) (c : Course α) (arrived passed : List α) (reason : String) : Prop where
  looking : c.delivery.phase = .looking
  arrived : arrived = passed ++ c.delivery.waiting
  cause : (∃ n, c.delivery.skipped? r = some n ∧ reason = behindReason n)
    ∨ (c.delivery.waiting = [] ∧ c.delivery.sourceEnd = some reason)

/-- On one of the occasions the forwarder ended. -/
def BrokeOff (r : Rules α) (occasions : List (Occasion α)) (passed : List α) (reason : String) : Prop :=
  ∃ sooner, sooner <+: occasions ∧ Breaks r (Course.after r {} sooner) (arrivals sooner) passed reason

/-- What was broken off stays so when more arrives. -/
lemma BrokeOff.mono {r : Rules α} {os os' : List (Occasion α)} {passed : List α} {reason : String}
    (h : BrokeOff r os passed reason) (hos : os <+: os') : BrokeOff r os' passed reason := by
  obtain ⟨sooner, hsooner, hbreaks⟩ := h
  exact ⟨sooner, hsooner.trans hos, hbreaks⟩

/-- What was passed before it broke off had arrived. -/
lemma BrokeOff.passed_prefix {r : Rules α} {os : List (Occasion α)} {passed : List α}
    {reason : String} (h : BrokeOff r os passed reason) : passed <+: arrivals os := by
  obtain ⟨sooner, hsooner, hbreaks⟩ := h
  have hpassed : passed <+: arrivals sooner := hbreaks.arrived ▸ List.prefix_append ..
  exact hpassed.trans (hsooner.filterMap _)

/-- What a forwarder in some phase has delivered, and what waits for it, given what it has met with. -/
def AccountedIn (r : Rules α) (occasions : List (Occasion α)) (sent : List Event) (waiting : List α) :
    Phase → Prop
  | .looking => ∃ passed, arrivals occasions = passed ++ waiting ∧ sent = passed.filterMap r.pick
  | .holding e =>
    ∃ passed, arrivals occasions = passed ++ waiting ∧ sent ++ [e] = passed.filterMap r.pick
  | .closing reason =>
    ∃ passed, sent = passed.filterMap r.pick ∧ BrokeOff r occasions passed reason
  | .ended =>
    ∃ passed reason, sent = passed.filterMap r.pick ++ [.closed reason]
      ∧ BrokeOff r occasions passed reason

/-- The delivery is what it has to be after some occasions. -/
def Accounted (r : Rules α) (occasions : List (Occasion α)) (c : Course α) : Prop :=
  AccountedIn r occasions c.sent c.delivery.waiting c.delivery.phase

/-- On an occasion on which the forwarder does not act, what arrives waits behind the rest. -/
lemma AccountedIn.concat {r : Rules α} {os : List (Occasion α)} {sent : List Event}
    {waiting : List α} {phase : Phase} (h : AccountedIn r os sent waiting phase) (o : Occasion α) :
    AccountedIn r (os ++ [o]) sent (waiting ++ o.item?.toList) phase := by
  have harrivals : arrivals (os ++ [o]) = arrivals os ++ o.item?.toList := by
    rw [arrivals, List.filterMap_append]
    cases ho : o.item? <;> simp [arrivals, ho]
  cases phase with
  | looking =>
      obtain ⟨passed, harrived, hsent⟩ := h
      exact ⟨passed, by rw [harrivals, harrived, List.append_assoc], hsent⟩
  | holding e =>
      obtain ⟨passed, harrived, hsent⟩ := h
      exact ⟨passed, by rw [harrivals, harrived, List.append_assoc], hsent⟩
  | closing reason =>
      obtain ⟨passed, hsent, hbroke⟩ := h
      exact ⟨passed, hsent, hbroke.mono (List.prefix_append ..)⟩
  | ended =>
      obtain ⟨passed, reason, hsent, hbroke⟩ := h
      exact ⟨passed, reason, hsent, hbroke.mono (List.prefix_append ..)⟩

lemma AccountedIn.concat_none {r : Rules α} {os : List (Occasion α)} {sent : List Event}
    {waiting : List α} {phase : Phase} (h : AccountedIn r os sent waiting phase) {o : Occasion α}
    (ho : o.item? = none) : AccountedIn r (os ++ [o]) sent waiting phase := by
  have hconcat := h.concat o
  rwa [ho, Option.toList_none, List.append_nil] at hconcat

/-! ### The forwarder -/

/-- What an action of the forwarder does. -/
inductive Acted (r : Rules α) (d : Delivery α) : Delivery α → Prop where
  | overrun {n : Nat} (hphase : d.phase = .looking) (hskipped : d.skipped? r = some n) :
    Acted r d { d with waiting := [], phase := .closing (behindReason n) }
  | pass {item : α} {rest : List α} (hphase : d.phase = .looking)
      (hwaiting : d.waiting = item :: rest) :
    Acted r d { d with waiting := rest, phase := phaseAfter r item }
  | exhaust {reason : String} (hphase : d.phase = .looking) (hwaiting : d.waiting = [])
      (hend : d.sourceEnd = some reason) : Acted r d { d with phase := .closing reason }
  | deliver {e : Event} (hphase : d.phase = .holding e) :
    Acted r d { d with phase := .looking, delivered := d.delivered ++ [e] }
  | close {reason : String} (hphase : d.phase = .closing reason) :
    Acted r d { d with phase := .ended, delivered := d.delivered ++ [.closed reason] }

lemma acted_of_step? {r : Rules α} {d d' : Delivery α} {n : Option Nat}
    (h : d.step? r = some (d', n)) : Acted r d d' := by
  cases hphase : d.phase with
  | looking =>
      simp only [step?, hphase, look?] at h
      cases hskipped : d.skipped? r with
      | some k =>
          simp only [hskipped, Option.some.injEq, Prod.mk.injEq] at h
          exact h.1 ▸ .overrun hphase hskipped
      | none =>
          simp only [hskipped] at h
          cases hwaiting : d.waiting with
          | cons item rest =>
              simp only [hwaiting, Option.some.injEq, Prod.mk.injEq] at h
              exact h.1 ▸ .pass hphase hwaiting
          | nil =>
              cases hend : d.sourceEnd with
              | none => simp [hwaiting, hend] at h
              | some reason =>
                  have hexhaust := Acted.exhaust (r := r) hphase hwaiting hend
                  simp only [hwaiting, hend, Option.some.injEq, Prod.mk.injEq] at h hexhaust
                  exact h.1 ▸ hexhaust
  | holding e =>
      simp only [step?, hphase, deliver?] at h
      split at h
      · simp only [Option.map_some, Option.some.injEq, Prod.mk.injEq] at h
        exact h.1 ▸ .deliver hphase
      · cases h
  | closing reason =>
      simp only [step?, hphase, deliver?] at h
      split at h
      · simp only [Option.map_some, Option.some.injEq, Prod.mk.injEq] at h
        exact h.1 ▸ .close hphase
      · cases h
  | ended => simp [step?, hphase] at h

/-- An item that is looked at is passed, and held if it stands for an event. -/
lemma AccountedIn.pass {r : Rules α} {os : List (Occasion α)} {sent : List Event} {item : α}
    {passed rest : List α} (harrived : arrivals os = passed ++ item :: rest)
    (hsent : sent = passed.filterMap r.pick) : AccountedIn r os sent rest (phaseAfter r item) := by
  have hmoved : arrivals os = (passed ++ [item]) ++ rest := by
    rw [harrived, List.append_assoc, List.singleton_append]
  cases hpick : r.pick item with
  | none =>
      rw [phaseAfter, hpick]
      exact ⟨passed ++ [item], hmoved, by simp [hsent, hpick]⟩
  | some e =>
      rw [phaseAfter, hpick]
      exact ⟨passed ++ [item], hmoved, by simp [hsent, hpick]⟩

/-- **Whatever the forwarder does, the account stays right.** -/
theorem Accounted.forward {r : Rules α} {os : List (Occasion α)}
    (h : Accounted r os (Course.after r {} os)) :
    Accounted r (os ++ [.forward]) ((Course.after r {} os).meet r .forward) := by
  generalize hc : Course.after r {} os = c at h
  have hforward : AccountedIn r (os ++ [.forward]) c.sent c.delivery.waiting c.delivery.phase :=
    h.concat_none rfl
  -- a look that ends the delivery is the one that the account names
  have hbroke : ∀ {passed : List α} {reason : String},
      Breaks r c (arrivals os) passed reason → BrokeOff r (os ++ [.forward]) passed reason :=
    fun hbreaks => ⟨os, List.prefix_append .., hc.symm ▸ hbreaks⟩
  cases hstep : c.delivery.step? r with
  | none =>
      rw [Course.meet, hstep]
      exact hforward
  | some found =>
      obtain ⟨d, n⟩ := found
      rw [Course.meet, hstep]
      rw [Accounted] at h
      cases acted_of_step? hstep with
      | overrun hphase hskipped =>
          rw [hphase] at h
          obtain ⟨passed, harrived, hsent⟩ := h
          exact ⟨passed, hsent, hbroke ⟨hphase, harrived, Or.inl ⟨_, hskipped, rfl⟩⟩⟩
      | pass hphase hwaiting =>
          rw [hphase, hwaiting] at hforward
          obtain ⟨passed, harrived, hsent⟩ := hforward
          exact AccountedIn.pass harrived hsent
      | exhaust hphase hwaiting hend =>
          rw [hphase] at h
          obtain ⟨passed, harrived, hsent⟩ := h
          exact ⟨passed, hsent, hbroke ⟨hphase, harrived, Or.inr ⟨hwaiting, hend⟩⟩⟩
      | deliver hphase =>
          rw [hphase] at hforward
          obtain ⟨passed, harrived, hsent⟩ := hforward
          exact ⟨passed, harrived, (List.append_assoc ..).symm.trans hsent⟩
      | close hphase =>
          rw [hphase] at hforward
          obtain ⟨passed, hsent, hbroken⟩ := hforward
          exact ⟨passed, _, (List.append_assoc ..).symm.trans (congrArg (· ++ _) hsent), hbroken⟩

/-- **What was delivered is what the items stand for that were passed**, whatever a delivery has met
with. -/
theorem accounted (r : Rules α) (os : List (Occasion α)) : Accounted r os (Course.after r {} os) := by
  induction os using List.reverseRecOn with
  | nil => exact ⟨[], rfl, rfl⟩
  | append_singleton os o ih =>
      rw [Course.after_concat]
      cases o with
      | arrive item => exact AccountedIn.concat ih (.arrive item)
      | forward => exact ih.forward
      | take =>
          rw [Accounted, Course.sent_meet_take, Course.phase_meet_take, Course.waiting_meet_take]
          exact AccountedIn.concat_none ih rfl
      | endSource reason => exact AccountedIn.concat_none ih rfl

/-! ## What was taken -/

/-- What was delivered: what the items stand for that were passed, and if the forwarder has ended, why
it has. -/
lemma sent_eq (r : Rules α) (os : List (Occasion α)) :
    ∃ passed, passed <+: arrivals os
      ∧ ((Course.after r {} os).sent <+: passed.filterMap r.pick
        ∨ ∃ reason, (Course.after r {} os).sent = passed.filterMap r.pick ++ [.closed reason]
          ∧ BrokeOff r os passed reason) := by
  have haccounted := accounted r os
  cases hphase : (Course.after r {} os).delivery.phase with
  | looking =>
      rw [Accounted, hphase] at haccounted
      obtain ⟨passed, harrived, hsent⟩ := haccounted
      exact ⟨passed, harrived ▸ List.prefix_append .., Or.inl (hsent ▸ List.prefix_refl _)⟩
  | holding e =>
      rw [Accounted, hphase] at haccounted
      obtain ⟨passed, harrived, hsent⟩ := haccounted
      exact ⟨passed, harrived ▸ List.prefix_append .., Or.inl (hsent ▸ List.prefix_append ..)⟩
  | closing reason =>
      rw [Accounted, hphase] at haccounted
      obtain ⟨passed, hsent, hbroke⟩ := haccounted
      exact ⟨passed, hbroke.passed_prefix, Or.inl (hsent ▸ List.prefix_refl _)⟩
  | ended =>
      rw [Accounted, hphase] at haccounted
      obtain ⟨passed, reason, hsent, hbroke⟩ := haccounted
      exact ⟨passed, hbroke.passed_prefix, Or.inr ⟨reason, hsent, hbroke⟩⟩

/-- **What the watcher has taken** is a first part of what the items stand for that arrived, with
nothing left out and nothing moved.  A last event comes after it only when the forwarder broke off,
and then the watcher has taken what all the items stand for that the forwarder had passed. -/
theorem taken_eq (r : Rules α) (os : List (Occasion α)) :
    (Course.after r {} os).taken <+: (arrivals os).filterMap r.pick
      ∨ ∃ passed reason, (Course.after r {} os).taken = passed.filterMap r.pick ++ [.closed reason]
        ∧ BrokeOff r os passed reason := by
  obtain ⟨passed, hpassed, hsent | ⟨reason, hsent, hbroke⟩⟩ := sent_eq r os
  -- a first part of what was sent has the last event only if it is all of it
  · have htaken := (Course.taken_prefix_sent (Course.after r {} os)).trans hsent
    exact Or.inl (htaken.trans (hpassed.filterMap _))
  · have htaken := hsent ▸ Course.taken_prefix_sent (Course.after r {} os)
    rcases List.prefix_concat_iff.mp htaken with heq | hfirst
    · exact Or.inr ⟨passed, reason, heq, hbroke⟩
    · exact Or.inl (hfirst.trans (hpassed.filterMap _))

/-! ## Turns -/

/-- Who has turns to act. -/
inductive Party where
  | forwarder
  | watcher
  deriving DecidableEq

/-- A turn is an occasion on which the party acts, if it can. -/
def Party.occasion : Party → Occasion α
  | forwarder => .forward
  | watcher => .take

lemma Party.item?_occasion (t : Party) : (t.occasion : Occasion α).item? = none := by cases t <;> rfl

lemma arrivals_turns (turns : List Party) :
    arrivals (turns.map (Party.occasion : Party → Occasion α)) = [] := by
  refine List.filterMap_eq_nil_iff.mpr fun o ho => ?_
  obtain ⟨t, -, rfl⟩ := List.mem_map.mp ho
  exact t.item?_occasion

lemma exists_turns {os : List (Occasion α)} (h : ∀ o ∈ os, o = .forward ∨ o = .take) :
    ∃ turns : List Party, os = turns.map Party.occasion := by
  induction os with
  | nil => exact ⟨[], rfl⟩
  | cons o os ih =>
      obtain ⟨turns, rfl⟩ := ih fun o' ho' => h o' (List.mem_cons_of_mem o ho')
      rcases h o List.mem_cons_self with rfl | rfl
      · exact ⟨.forwarder :: turns, rfl⟩
      · exact ⟨.watcher :: turns, rfl⟩

/-- A schedule by which everyone has a turn again and again. -/
def Fair (schedule : ℕ → Party) : Prop := ∀ t n, ∃ m ≥ n, schedule m = t

/-! ## The source -/

/-- A step of the forwarder is no end of the source. -/
lemma sourceEnd_step? {r : Rules α} {d d' : Delivery α} {n : Option Nat}
    (h : d.step? r = some (d', n)) : d'.sourceEnd = d.sourceEnd := by
  cases acted_of_step? h <;> rfl

/-- Nobody who has a turn ends the source. -/
lemma sourceEnd_meet (r : Rules α) (c : Course α) (t : Party) :
    (c.meet r t.occasion).delivery.sourceEnd = c.delivery.sourceEnd := by
  cases t with
  | forwarder =>
      cases hstep : c.delivery.step? r with
      | none => simp only [Party.occasion, Course.meet, hstep]
      | some next =>
          simp only [Party.occasion, Course.meet, hstep]
          exact sourceEnd_step? hstep
  | watcher =>
      simp only [Party.occasion, Course.meet, take?]
      cases c.delivery.delivered <;> rfl

/-- A source that has ended ended on one of the occasions. -/
lemma mem_of_sourceEnd {r : Rules α} {os : List (Occasion α)} {reason : String}
    (h : (Course.after r {} os).delivery.sourceEnd = some reason) : .endSource reason ∈ os := by
  induction os using List.reverseRecOn with
  | nil => cases h
  | append_singleton os o ih =>
      rw [Course.after_concat] at h
      cases o with
      | arrive item => exact List.mem_append_left _ (ih h)
      | forward =>
          exact List.mem_append_left _ (ih ((sourceEnd_meet r _ .forwarder).symm.trans h))
      | take =>
          exact List.mem_append_left _ (ih ((sourceEnd_meet r _ .watcher).symm.trans h))
      | endSource other =>
          have hreason : other = reason := Option.some.inj h
          simp [hreason]

/-! ## Running -/

/-- **Settling is acting of the forwarder**, a number of times. -/
theorem exists_settle (r : Rules α) (d : Delivery α) (taken : List Event) :
    ∃ k, Course.after r ⟨d, taken⟩ (List.replicate k .forward) = ⟨(d.settle r).1, taken⟩ := by
  fun_induction settle r d with
  | case1 d h => exact ⟨0, rfl⟩
  | case2 d next missed h last more heq ih =>
      obtain ⟨k, hk⟩ := ih
      refine ⟨k + 1, ?_⟩
      have hfirst : Course.meet r ⟨d, taken⟩ .forward = ⟨next, taken⟩ := by
        simp only [Course.meet, h]
      rw [List.replicate_succ, Course.after, List.foldl_cons, hfirst]
      exact hk.trans (by rw [heq])

/-- Taking one event after the other empties what was delivered. -/
lemma after_takes (r : Rules α) (d : Delivery α) (taken : List Event) :
    Course.after r ⟨d, taken⟩ (List.replicate d.delivered.length .take)
      = ⟨{ d with delivered := [] }, taken ++ d.delivered⟩ := by
  obtain ⟨waiting, phase, delivered, sourceEnd⟩ := d
  induction delivered generalizing taken with
  | nil => simp [Course.after]
  | cons e es ih =>
      rw [List.length_cons, List.replicate_succ, Course.after, List.foldl_cons]
      refine (ih (taken ++ [e])).trans ?_
      rw [List.append_assoc, List.singleton_append]

/-- **Draining is acting of the forwarder and taking**, in turns. -/
theorem exists_drain (r : Rules α) (d : Delivery α) (taken : List Event) :
    ∃ os : List (Occasion α), (∀ o ∈ os, o = .forward ∨ o = .take)
      ∧ Course.after r ⟨d, taken⟩ os = ⟨(d.drain r).2.1, taken ++ (d.drain r).1⟩ := by
  fun_induction drain r d generalizing taken with
  | case1 d settled missed hsettle hempty =>
      obtain ⟨k, hk⟩ := exists_settle r d taken
      refine ⟨List.replicate k .forward, fun o ho => Or.inl (List.eq_of_mem_replicate ho), ?_⟩
      rw [hk, hsettle, List.append_nil]
  | case2 d settled missed hsettle e es hdelivered later last more heq ih =>
      obtain ⟨k, hk⟩ := exists_settle r d taken
      obtain ⟨os, hos, hlater⟩ := ih (taken ++ settled.delivered)
      refine ⟨List.replicate k .forward ++ List.replicate settled.delivered.length .take ++ os,
        ?_, ?_⟩
      · intro o ho
        rcases List.mem_append.mp ho with ho | ho
        · rcases List.mem_append.mp ho with ho | ho
          · exact Or.inl (List.eq_of_mem_replicate ho)
          · exact Or.inr (List.eq_of_mem_replicate ho)
        · exact hos o ho
      · rw [Course.after_append, Course.after_append, hk, hsettle, after_takes, hlater, heq,
          hdelivered, List.append_assoc]

/-! ## Nothing is withheld -/

/-- A forwarder that has settled has nothing to do. -/
lemma step?_settle (r : Rules α) (d : Delivery α) : (d.settle r).1.step? r = none := by
  fun_induction settle r d with
  | case1 d h => exact h
  | case2 d next missed h last more heq ih =>
      rw [heq] at ih
      exact ih

/-- After draining there is nothing to do and nothing to take. -/
lemma drained (r : Rules α) (d : Delivery α) :
    (d.drain r).2.1.step? r = none ∧ (d.drain r).2.1.delivered = [] := by
  fun_induction drain r d with
  | case1 d settled missed hsettle hempty =>
      have hstep := step?_settle r d
      rw [hsettle] at hstep
      exact ⟨hstep, hempty⟩
  | case2 d settled missed hsettle e es hdelivered later last more heq ih =>
      rw [heq] at ih
      exact ih

/-- Nothing is left to do for a forwarder and a watcher. -/
structure Idle (r : Rules α) (d : Delivery α) : Prop where
  step? : d.step? r = none
  delivered : d.delivered = []

/-- A forwarder that has room and yet does not act has looked at everything, or has ended. -/
lemma idle_cases {r : Rules α} {d : Delivery α} (h : d.step? r = none) (hd : d.delivered = []) :
    (d.phase = .looking ∧ d.waiting = []) ∨ d.phase = .ended := by
  have hroom : d.delivered.length < room := by
    rw [hd]
    decide
  cases hphase : d.phase with
  | looking =>
      simp only [step?, hphase, look?] at h
      split at h
      · cases h
      · split at h
        · cases h
        · cases h
        · rename_i hwaiting _
          exact Or.inl ⟨rfl, hwaiting⟩
  | holding e => simp [step?, hphase, deliver?, hroom] at h
  | closing reason => simp [step?, hphase, deliver?, hroom] at h
  | ended => exact Or.inr rfl

lemma arrivals_of_forall {os : List (Occasion α)} (h : ∀ o ∈ os, o = .forward ∨ o = .take) :
    arrivals os = [] := by
  refine List.filterMap_eq_nil_iff.mpr fun o ho => ?_
  rcases h o ho with rfl | rfl <;> rfl

/-- **When nothing is left to do, everything that has arrived was taken**, or the last event was. -/
theorem taken_of_idle {r : Rules α} {os : List (Occasion α)}
    (h : Idle r (Course.after r {} os).delivery) :
    (Course.after r {} os).taken = (arrivals os).filterMap r.pick
      ∨ ∃ passed reason, (Course.after r {} os).taken = passed.filterMap r.pick ++ [.closed reason]
        ∧ BrokeOff r os passed reason := by
  have hsent : (Course.after r {} os).sent = (Course.after r {} os).taken := by
    rw [Course.sent, h.delivered, List.append_nil]
  have haccounted := accounted r os
  -- all that was sent is taken, so the account of the idle forwarder says what was taken
  rw [← hsent]
  rcases idle_cases h.step? h.delivered with ⟨hphase, hwaiting⟩ | hphase
  · rw [Accounted, hphase, hwaiting] at haccounted
    obtain ⟨passed, harrived, heq⟩ := haccounted
    rw [List.append_nil] at harrived
    exact Or.inl (harrived ▸ heq)
  · rw [Accounted, hphase] at haccounted
    obtain ⟨passed, reason, heq, hbroke⟩ := haccounted
    exact Or.inr ⟨passed, reason, heq, hbroke⟩

/-- **A watcher who goes on taking is given everything that has arrived**, or the last event. -/
theorem exists_complete (r : Rules α) (os : List (Occasion α)) :
    ∃ os' : List (Occasion α), (∀ o ∈ os', o = .forward ∨ o = .take)
      ∧ ((Course.after r {} (os ++ os')).taken = (arrivals os).filterMap r.pick
        ∨ ∃ passed reason, (Course.after r {} (os ++ os')).taken
            = passed.filterMap r.pick ++ [.closed reason]
          ∧ BrokeOff r (os ++ os') passed reason) := by
  obtain ⟨os', hos', hdrain⟩ := exists_drain r (Course.after r {} os).delivery
    (Course.after r {} os).taken
  obtain ⟨hstep, hempty⟩ := drained r (Course.after r {} os).delivery
  have hlast : Course.after r {} (os ++ os') = _ := (Course.after_append r {} os os').trans hdrain
  have hidle : Idle r (Course.after r {} (os ++ os')).delivery := by
    rw [hlast]
    exact ⟨hstep, hempty⟩
  have harrivals : arrivals (os ++ os') = arrivals os := by
    rw [arrivals, List.filterMap_append, ← arrivals, ← arrivals, arrivals_of_forall hos',
      List.append_nil]
  have htaken := taken_of_idle hidle
  rw [harrivals] at htaken
  exact ⟨os', hos', htaken⟩

/-! ## At any pace -/

section Pace

variable {r : Rules α} {c : Course α}

/-- Where nothing is to do, turns change nothing. -/
lemma Idle.meet (h : Idle r c.delivery) (t : Party) : c.meet r t.occasion = c := by
  cases t with
  | forwarder => simp only [Party.occasion, Course.meet, h.step?]
  | watcher => simp only [Party.occasion, Course.meet, take?, h.delivered]

/-- A turn in which anything is done lowers the load. -/
lemma load_meet (r : Rules α) (c : Course α) (t : Party) :
    c.meet r t.occasion = c ∨ (c.meet r t.occasion).delivery.load < c.delivery.load := by
  cases t with
  | forwarder =>
      cases hstep : c.delivery.step? r with
      | none => exact Or.inl (by simp only [Party.occasion, Course.meet, hstep])
      | some next =>
          refine Or.inr ?_
          simp only [Party.occasion, Course.meet, hstep]
          exact load_of_step? hstep
  | watcher =>
      cases hdelivered : c.delivery.delivered with
      | nil => exact Or.inl (by simp only [Party.occasion, Course.meet, take?, hdelivered])
      | cons e es =>
          refine Or.inr ?_
          simp only [Party.occasion, Course.meet, take?, hdelivered, load, List.length_cons]
          omega

/-- Where something is left to do, it is done when the right one has a turn. -/
lemma exists_load_meet (h : ¬ Idle r c.delivery) :
    ∃ t : Party, (c.meet r t.occasion).delivery.load < c.delivery.load := by
  cases hstep : c.delivery.step? r with
  | some next =>
      refine ⟨.forwarder, ?_⟩
      simp only [Party.occasion, Course.meet, hstep]
      exact load_of_step? hstep
  | none =>
      cases hdelivered : c.delivery.delivered with
      | nil => exact absurd ⟨hstep, hdelivered⟩ h
      | cons e es =>
          refine ⟨.watcher, ?_⟩
          simp only [Party.occasion, Course.meet, take?, hdelivered, load, List.length_cons]
          omega

variable {f : ℕ → Course α} {schedule : ℕ → Party}

/-- The load only becomes less, unless nothing happens. -/
lemma load_le_of_turns (h : ∀ n, f (n + 1) = (f n).meet r (schedule n).occasion)
    {n m : ℕ} (hnm : n ≤ m) :
    f m = f n ∨ (f m).delivery.load < (f n).delivery.load := by
  induction m, hnm using Nat.le_induction with
  | base => exact Or.inl rfl
  | succ m hnm ih =>
      rw [h]
      rcases load_meet r (f m) (schedule m) with hsame | hless
      · rw [hsame]
        exact ih
      · rcases ih with hsame | hlower
        · exact Or.inr (hsame ▸ hless)
        · exact Or.inr (hless.trans hlower)

/-- **At any pace nothing is left to do at some time**, and then nothing happens any more. -/
theorem exists_idle (h : ∀ n, f (n + 1) = (f n).meet r (schedule n).occasion)
    (hfair : Fair schedule) :
    ∃ n, Idle r (f n).delivery ∧ ∀ m ≥ n, f m = f n := by
  have hidle : ∀ load n, (f n).delivery.load = load → ∃ m, Idle r (f m).delivery := by
    intro load
    induction load using Nat.strongRecOn with
    | ind load ih =>
        intro n hload
        by_cases hn : Idle r (f n).delivery
        · exact ⟨n, hn⟩
        · -- whoever can lower the load has a turn, unless the load is lowered before
          obtain ⟨t, hless⟩ := exists_load_meet hn
          obtain ⟨m, hnm, hm⟩ := hfair t n
          rcases load_le_of_turns h hnm with hsame | hlower
          · refine ih _ ?_ (m + 1) rfl
            rw [h, hm, hsame, ← hload]
            exact hless
          · exact ih _ (hload ▸ hlower) m rfl
  obtain ⟨n, hn⟩ := hidle _ 0 rfl
  refine ⟨n, hn, fun m hm => ?_⟩
  induction m, hm using Nat.le_induction with
  | base => rfl
  | succ m hnm ih => rw [h, ih, hn.meet]

end Pace

end FleetLedger.Delivery
