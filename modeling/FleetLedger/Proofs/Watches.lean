import FleetLedger.Proofs.Changes

/-!
# Watches

A watch that is open meets with four things: a change is shown to it, its forwarder acts, its watcher
takes an event, the store is gone.  All else that happens at the store does not reach it.  So what is
taken from its stream is what a delivery by itself would give on these `occasions`
(**`follows`**), and what was proved of deliveries is true of it.

**`received_eq`** says this in terms of the acts.  A watcher who goes on taking is given everything
(**`exists_received_all`**).  The ways in which rehearsals let watches act, settling them and taking
everything, are runs of such acts (`exists_settleWatch`, `exists_takeAll`).  A watch that is opened
has a number of its own, under which nothing has happened yet (**`watch?_opened`**).
-/

namespace FleetLedger

open Delivery (Occasion Course)

namespace Rehearsal

/-! ## One watch among others -/

section Effects

variable (s : Rehearsal) (n : Nat)

lemma watch?_map (f : Watch → Watch) :
    ({ s with watches := s.watches.map fun (k, w) => (k, f w) } : Rehearsal).watch? n
      = (s.watch? n).map f := by
  simp only [watch?, List.find?_map, Option.map_map]
  rfl

/-- A change is shown to each watch. -/
lemma watch?_changedBy (e : Event) : (s.changedBy e).watch? n = (s.watch? n).map (·.push [e]) :=
  watch?_map { s with entries := s.entries.after e } n fun w => w.push [e]

/-- Each watch learns of the loss of the store. -/
lemma watch?_loseKeys : s.loseKeys.watch? n = (s.watch? n).map Watch.lose :=
  watch?_map { s with keysGone := true } n _

lemma watch?_report (notices : List Notice) : (s.report notices).watch? n = s.watch? n := rfl

lemma watch?_setWatch (m : Nat) (w : Watch) :
    (s.setWatch m w).watch? n = if m = n then (s.watch? n).map fun _ => w else s.watch? n := by
  simp only [watch?, setWatch, List.find?_map, Option.map_map]
  have hsame : ((fun x : Nat × Watch => x.1 == n)
      ∘ fun x : Nat × Watch => (x.1, if x.1 == m then w else x.2)) = fun x => x.1 == n := rfl
  rw [hsame]
  cases hfind : s.watches.find? (fun x => x.1 == n) with
  | none => simp
  | some x =>
      have hx : x.1 = n := by simpa using List.find?_some hfind
      by_cases hm : m = n
      · simp [hm, hx]
      · have hne : ¬ x.1 = m := fun h => hm (h.symm.trans hx)
        simp [hm, hne]

/-- A watch that is opened gets a number of its own. -/
lemma watch?_openWatch (scope : String) :
    (s.openWatch scope).1.watch? n
      = (s.watch? n).or (if s.streams = n then some { scope } else none) := by
  simp only [watch?, openWatch, List.find?_append]
  cases s.watches.find? (fun x => x.1 == n) with
  | some x => rfl
  | none =>
      by_cases hn : s.streams = n
      · simp [hn]
      · simp [hn]

lemma watch?_closeWatch (m : Nat) :
    (s.closeWatch m).watch? n = if m = n then none else s.watch? n := by
  simp only [watch?, closeWatch, List.find?_filter]
  by_cases hm : m = n
  · subst hm
    simp
  · rw [if_neg hm]
    congr 2
    funext x
    by_cases hx : x.1 = n
    · simp [hx, Ne.symm hm]
    · simp [hx]

end Effects

/-- No watch that is yet to be opened will have the number. -/
def Past (s : Rehearsal) (n : Nat) : Prop := n < s.streams ∨ s.keysGone = true

/-- A number that was given out stays so. -/
lemma Past.perform {s : Rehearsal} {n : Nat} (h : s.Past n) (a : Act) : (a.perform s).1.Past n := by
  rcases h with h | h
  · exact Or.inl (Nat.lt_of_lt_of_le h (a.effect s).streams_le)
  · exact Or.inr (by rw [(a.effect s).keysGone, h, Bool.true_or])

/-- Where there is no watch, only opening one can make one, and nothing is taken from its stream. -/
lemma closed_perform {s : Rehearsal} {n : Nat} (h : s.watch? n = none) {a : Act}
    (ha : ∀ scope, a = .watch scope → n ≠ s.streams ∨ s.keysGone = true) :
    (a.perform s).1.watch? n = none
      ∧ (a.perform s).2.bind (Happening.takenFrom? n) = none := by
  cases a with
  | put key value =>
      rw [Act.perform_put]
      split
      · exact ⟨h, rfl⟩
      · exact ⟨by rw [watch?_changedBy, h, Option.map_none], rfl⟩
  | delete key =>
      rw [Act.perform_delete]
      split
      · exact ⟨h, rfl⟩
      · exact ⟨by rw [watch?_changedBy, h, Option.map_none], rfl⟩
  | watch scope =>
      rw [Act.perform_watch]
      refine ⟨?_, rfl⟩
      split
      · exact h
      · rename_i hout
        have hne : ¬ s.streams = n := by
          rcases ha scope rfl with hne | hgone
          · exact Ne.symm hne
          · exact absurd (keysOut_of_gone hgone .watch) hout
        rw [watch?_openWatch, h, if_neg hne, Option.or_none]
  | forward m =>
      refine ⟨?_, rfl⟩
      simp only [Act.perform, forwardOnce]
      split
      · exact h
      · split
        · exact h
        · rw [watch?_report, watch?_setWatch, h, Option.map_none, ite_self]
  | receive m =>
      simp only [Act.perform, receiveOnce]
      split
      · exact ⟨h, rfl⟩
      · rename_i w hw
        have hne : ¬ m = n := fun hm => by
          rw [hm, h] at hw
          cases hw
        split
        · exact ⟨h, rfl⟩
        · refine ⟨?_, ?_⟩
          · rw [watch?_setWatch, if_neg hne, h]
          · exact if_neg hne
  | close m =>
      refine ⟨?_, rfl⟩
      exact (watch?_closeWatch s n m).trans (by rw [h, ite_self])
  | lose =>
      refine ⟨?_, rfl⟩
      exact (watch?_loseKeys s n).trans (by rw [h, Option.map_none])

/-- A watch that was closed stays closed. -/
lemma received_of_closed {s : Rehearsal} {n : Nat} (h : s.watch? n = none) (hpast : s.Past n)
    (acts : List Act) : s.received n acts = [] := by
  induction acts generalizing s with
  | nil => rfl
  | cons a acts ih =>
      obtain ⟨hclosed, hnone⟩ := closed_perform h fun _ _ => hpast.imp_left Nat.ne_of_lt
      rw [received_cons, hnone, ih hclosed (hpast.perform a)]
      rfl

/-! ## What an act means to a watch -/

/-- What the watch with a number meets with when an act is performed, if with anything. -/
def Act.occasion? (s : Rehearsal) (n : Nat) (a : Act) : Option (Occasion Event) :=
  match a with
  | put .. | delete .. => ((a.perform s).2.bind Happening.change?).map .arrive
  | forward m => if m = n then some .forward else none
  | receive m => if m = n then some .take else none
  | watch _ | close _ => none
  | lose => some (.endSource Watch.goneReason)

/-- What a watch meets with when some acts are performed, as long as it is open. -/
def occasions (s : Rehearsal) (n : Nat) : List Act → List (Occasion Event)
  | [] => []
  | a :: acts =>
    if a = .close n then [] else (a.occasion? s n).toList ++ occasions (a.perform s).1 n acts

/-- Every change is shown to the watch, and nothing else. -/
lemma item?_occasion? (s : Rehearsal) (n : Nat) (a : Act) :
    (a.occasion? s n).bind Occasion.item? = (a.perform s).2.bind Happening.change? := by
  have hshown : ∀ change : Option Event, (change.map Occasion.arrive).bind Occasion.item? = change :=
    fun change => by cases change <;> rfl
  cases a with
  | forward m =>
      simp only [Act.occasion?, Act.perform]
      split <;> rfl
  | receive m =>
      simp only [Act.occasion?, Act.perform]
      split <;> cases (s.receiveOnce m).2 <;> rfl
  | put key value => exact hshown _
  | delete key => exact hshown _
  | _ => rfl

/-- **An act does to an open watch what it means to it.** -/
theorem follows_perform {s : Rehearsal} {n : Nat} {scope : String} {c : Course Event}
    (h : s.watch? n = some ⟨scope, c.delivery⟩) {a : Act} (ha : a ≠ .close n) :
    (a.perform s).1.watch? n
        = some ⟨scope, (c.after (Watch.rules s.ring scope) (a.occasion? s n).toList).delivery⟩
      ∧ (c.after (Watch.rules s.ring scope) (a.occasion? s n).toList).taken
        = c.taken ++ ((a.perform s).2.bind (Happening.takenFrom? n)).toList := by
  have hnothing : c.taken = c.taken ++ [] := (List.append_nil _).symm
  cases a with
  | put key value =>
      simp only [Act.occasion?, Act.perform_put]
      split
      · exact ⟨h, hnothing⟩
      · exact ⟨by rw [watch?_changedBy, h]; rfl, hnothing⟩
  | delete key =>
      simp only [Act.occasion?, Act.perform_delete]
      split
      · exact ⟨h, hnothing⟩
      · exact ⟨by rw [watch?_changedBy, h]; rfl, hnothing⟩
  | watch other =>
      rw [Act.perform_watch]
      refine ⟨?_, hnothing⟩
      split
      · exact h
      · rw [watch?_openWatch, h]
        rfl
  | forward m =>
      simp only [Act.perform, forwardOnce, Act.occasion?]
      by_cases hm : m = n
      · subst hm
        rw [if_pos rfl, h]
        cases hstep : c.delivery.step? (Watch.rules s.ring scope) with
        | none => simp [Course.after, Course.meet, hstep, h]
        | some found =>
            simp [Course.after, Course.meet, hstep, watch?_report, watch?_setWatch, h]
      · rw [if_neg hm]
        refine ⟨?_, hnothing⟩
        split
        · exact h
        · split
          · exact h
          · rw [watch?_report, watch?_setWatch, if_neg hm, h]
            rfl
  | receive m =>
      simp only [Act.perform, receiveOnce, Act.occasion?]
      by_cases hm : m = n
      · subst hm
        rw [if_pos rfl, h]
        cases htake : c.delivery.take? with
        | none => simp [Course.after, Course.meet, htake, h]
        | some found =>
            simp [Course.after, Course.meet, htake, watch?_setWatch, h, Happening.takenFrom?]
      · rw [if_neg hm]
        split
        · exact ⟨h, hnothing⟩
        · split
          · exact ⟨h, hnothing⟩
          · refine ⟨?_, ?_⟩
            · rw [watch?_setWatch, if_neg hm, h]
              rfl
            · simp [Happening.takenFrom?, hm, Course.after]
  | close m =>
      have hm : ¬ m = n := fun hm => ha (hm ▸ rfl)
      refine ⟨?_, hnothing⟩
      exact (watch?_closeWatch s n m).trans ((if_neg hm).trans h)
  | lose =>
      refine ⟨?_, hnothing⟩
      exact (watch?_loseKeys s n).trans (congrArg (Option.map Watch.lose) h)

/-! ## Runs -/

lemma occasions_cons {s : Rehearsal} {n : Nat} {a : Act} (ha : a ≠ .close n) (acts : List Act) :
    s.occasions n (a :: acts)
      = (a.occasion? s n).toList ++ (a.perform s).1.occasions n acts := if_neg ha

/-- **A watch does what a delivery does by itself** that meets with the same occasions. -/
theorem follows {s : Rehearsal} {n : Nat} {scope : String} {c : Course Event}
    (h : s.watch? n = some ⟨scope, c.delivery⟩) (hpast : s.Past n) (acts : List Act) :
    (.close n ∉ acts → (s.after acts).watch? n
        = some ⟨scope, (c.after (Watch.rules s.ring scope) (s.occasions n acts)).delivery⟩)
      ∧ (c.after (Watch.rules s.ring scope) (s.occasions n acts)).taken
        = c.taken ++ s.received n acts := by
  -- what the watch has met with before is in `c`, so that the acts can be taken from the front
  induction acts generalizing s c with
  | nil => exact ⟨fun _ => h, (List.append_nil _).symm⟩
  | cons a acts ih =>
      by_cases ha : a = .close n
      · subst ha
        have hclosed : (s.closeWatch n).watch? n = none := (watch?_closeWatch s n n).trans (if_pos rfl)
        have hnone := received_of_closed hclosed (hpast.perform (.close n)) acts
        have hoccasions : s.occasions n (.close n :: acts) = [] := if_pos rfl
        refine ⟨fun hopen => absurd List.mem_cons_self hopen, ?_⟩
        rw [hoccasions, received_cons]
        exact (List.append_nil _).symm.trans (congrArg (c.taken ++ ·) hnone.symm)
      · obtain ⟨hwatch, htaken⟩ := follows_perform h ha
        obtain ⟨ihwatch, ihtaken⟩ := ih hwatch (hpast.perform a)
        rw [(a.effect s).ring] at ihwatch ihtaken
        rw [occasions_cons ha, Course.after_append, received_cons]
        refine ⟨fun hopen => ?_, ?_⟩
        · exact ihwatch fun hmem => hopen (List.mem_cons_of_mem a hmem)
        · rw [ihtaken, htaken, List.append_assoc]

/-- **What arrives at a watch are the changes**, at least until it is closed. -/
theorem arrivals_occasions (s : Rehearsal) (n : Nat) (acts : List Act) :
    Delivery.arrivals (s.occasions n acts) <+: s.changes acts
      ∧ (.close n ∉ acts → Delivery.arrivals (s.occasions n acts) = s.changes acts) := by
  induction acts generalizing s with
  | nil => exact ⟨List.prefix_refl _, fun _ => rfl⟩
  | cons a acts ih =>
      by_cases ha : a = .close n
      · subst ha
        have hoccasions : s.occasions n (.close n :: acts) = [] := if_pos rfl
        rw [hoccasions]
        exact ⟨List.nil_prefix, fun hopen => absurd List.mem_cons_self hopen⟩
      · obtain ⟨hpart, hall⟩ := ih (a.perform s).1
        have hfirst : Delivery.arrivals (a.occasion? s n).toList
            = ((a.perform s).2.bind Happening.change?).toList := by
          rw [← item?_occasion? s n a, Delivery.arrivals]
          cases a.occasion? s n with
          | none => rfl
          | some o => cases ho : o.item? <;> simp [ho]
        rw [occasions_cons ha, changes_cons, Delivery.arrivals, List.filterMap_append]
        rw [Delivery.arrivals] at hfirst
        rw [hfirst]
        refine ⟨(List.prefix_append_right_inj _).mpr hpart, fun hopen => ?_⟩
        exact congrArg _ (hall fun hmem => hopen (List.mem_cons_of_mem a hmem))

/-- What a watch has met with by some time it has met with after some of the acts. -/
lemma exists_moment {s : Rehearsal} {n : Nat} {acts : List Act} {sooner : List (Occasion Event)}
    (h : sooner <+: s.occasions n acts) :
    ∃ acts₁ acts₂, acts = acts₁ ++ acts₂ ∧ s.occasions n acts₁ = sooner ∧ .close n ∉ acts₁ := by
  induction acts generalizing s sooner with
  | nil => exact ⟨[], [], rfl, (List.prefix_nil.mp h).symm, by simp⟩
  | cons a acts ih =>
      rcases sooner with _ | ⟨o, later⟩
      · exact ⟨[], a :: acts, rfl, rfl, by simp⟩
      · have ha : a ≠ .close n := fun ha => by
          have hnone : s.occasions n (a :: acts) = [] := if_pos ha
          rw [hnone] at h
          cases List.prefix_nil.mp h
        have hopen : ∀ {acts₁ : List Act}, .close n ∉ acts₁ → .close n ∉ a :: acts₁ :=
          fun hnot hmem => (List.mem_cons.mp hmem).elim (fun he => ha he.symm) hnot
        rw [occasions_cons ha] at h
        cases ho : a.occasion? s n with
        | none =>
            -- the watch does not notice the act, which may so come before the moment
            rw [ho] at h
            obtain ⟨acts₁, acts₂, rfl, hsooner, hnot⟩ := ih h
            refine ⟨a :: acts₁, acts₂, rfl, ?_, hopen hnot⟩
            rw [occasions_cons ha, ho]
            exact hsooner
        | some o' =>
            rw [ho] at h
            obtain ⟨rfl, hlater⟩ := List.cons_prefix_cons.mp h
            obtain ⟨acts₁, acts₂, rfl, hsooner, hnot⟩ := ih hlater
            refine ⟨a :: acts₁, acts₂, rfl, ?_, hopen hnot⟩
            rw [occasions_cons ha, ho, hsooner]
            rfl

/-- The source of a watch ends with the store. -/
lemma lose_of_mem_occasions {s : Rehearsal} {n : Nat} {acts : List Act} {reason : String}
    (h : .endSource reason ∈ s.occasions n acts) : .lose ∈ acts ∧ reason = Watch.goneReason := by
  induction acts generalizing s with
  | nil => cases h
  | cons a acts ih =>
      by_cases ha : a = .close n
      · have hnone : s.occasions n (a :: acts) = [] := if_pos ha
        rw [hnone] at h
        cases h
      · rw [occasions_cons ha, List.mem_append, Option.mem_toList] at h
        rcases h with h | h
        · cases a with
          | lose =>
              have hreason : Occasion.endSource Watch.goneReason
                = (Occasion.endSource reason : Occasion Event) := Option.some.inj h
              exact ⟨List.mem_cons_self, (Occasion.endSource.inj hreason).symm⟩
          | put key value =>
              obtain ⟨e, -, he⟩ := Option.map_eq_some_iff.mp h
              cases he
          | delete key =>
              obtain ⟨e, -, he⟩ := Option.map_eq_some_iff.mp h
              cases he
          | forward m =>
              simp only [Act.occasion?] at h
              split at h <;> cases h
          | receive m =>
              simp only [Act.occasion?] at h
              split at h <;> cases h
          | watch other => cases h
          | close m => cases h
        · obtain ⟨hlose, hreason⟩ := ih h
          exact ⟨List.mem_cons_of_mem a hlose, hreason⟩

/-! ## What is taken from a stream -/

/-- After some acts the forwarder of a watch, which has looked at the changes `passed`, looks again,
and of the changes made since there are `skipped` more than the store keeps. -/
def Lagged (s : Rehearsal) (n : Nat) (acts : List Act) (passed : List Event) (skipped : Nat) : Prop :=
  ∃ w, (s.after acts).watch? n = some w ∧ w.delivery.phase = .looking
    ∧ s.changes acts = passed ++ w.delivery.waiting
    ∧ w.delivery.waiting.length = s.ring + skipped ∧ 0 < skipped

/-- The rules pick the changes in the scope. -/
lemma filterMap_pick (ring : Nat) (scope : String) (changes : List Event) :
    changes.filterMap (Watch.rules ring scope).pick = changes.filter (Event.isUnder scope) := by
  rw [← List.filterMap_eq_filter]
  refine List.filterMap_congr fun e _ => ?_
  simp only [Watch.rules, Option.guard]

/-- When the forwarder of a watch breaks off, it has missed changes, or the store is gone and it has
looked at all of them. -/
lemma lagged_or_gone {s : Rehearsal} {n : Nat} {scope : String}
    (h : s.watch? n = some { scope }) (hpast : s.Past n) {acts : List Act} {passed : List Event}
    {reason : String}
    (hbroke : Delivery.BrokeOff (Watch.rules s.ring scope) (s.occasions n acts) passed reason) :
    ∃ sooner later, acts = sooner ++ later
      ∧ ((∃ skipped, s.Lagged n sooner passed skipped ∧ reason = Delivery.behindReason skipped)
        ∨ (.lose ∈ sooner ∧ reason = Watch.goneReason ∧ passed = s.changes acts)) := by
  obtain ⟨met, hmet, hlooking, harrived, hcause⟩ := hbroke
  obtain ⟨sooner, later, rfl, rfl, hopen⟩ := exists_moment hmet
  have hwatch := (follows (c := {}) h hpast sooner).1 hopen
  rw [(arrivals_occasions s n sooner).2 hopen] at harrived
  refine ⟨sooner, later, rfl, ?_⟩
  rcases hcause with ⟨skipped, hskipped, rfl⟩ | ⟨hnone, hend⟩
  · have hmissed : _ = s.ring + skipped ∧ 0 < skipped := Delivery.length_of_skipped? rfl hskipped
    exact Or.inl ⟨skipped, ⟨_, hwatch, hlooking, harrived, hmissed⟩, rfl⟩
  · obtain ⟨hlose, hreason⟩ := lose_of_mem_occasions (Delivery.mem_of_sourceEnd hend)
    refine Or.inr ⟨hlose, hreason, ?_⟩
    have hgone : (s.after sooner).keysGone = true := by
      rw [keysGone_after, List.contains_iff_mem.mpr hlose, Bool.or_true]
    rw [changes_append, changes_of_gone _ later hgone, harrived, hnone, List.append_nil,
      List.append_nil]

/-- **What is taken from a stream**: a first part of the changes within the scope, and a last event
only after the forwarder of the watch broke off. -/
theorem received_eq {s : Rehearsal} {n : Nat} {scope : String} (h : s.watch? n = some { scope })
    (hpast : s.Past n) (acts : List Act) :
    s.received n acts <+: (s.changes acts).filter (Event.isUnder scope)
      ∨ ∃ passed reason, passed <+: s.changes acts
        ∧ s.received n acts = passed.filter (Event.isUnder scope) ++ [.closed reason]
        ∧ ∃ sooner later, acts = sooner ++ later
          ∧ ((∃ skipped, s.Lagged n sooner passed skipped
              ∧ reason = Delivery.behindReason skipped)
            ∨ (.lose ∈ sooner ∧ reason = Watch.goneReason ∧ passed = s.changes acts)) := by
  have htaken : (Course.after (Watch.rules s.ring scope) {} (s.occasions n acts)).taken
      = s.received n acts := (follows (c := {}) h hpast acts).2
  have harrivals := (arrivals_occasions s n acts).1
  rcases Delivery.taken_eq (Watch.rules s.ring scope) (s.occasions n acts) with hfirst
    | ⟨passed, reason, heq, hbroke⟩
  · rw [htaken, filterMap_pick] at hfirst
    exact Or.inl (hfirst.trans (harrivals.filter _))
  · rw [htaken, filterMap_pick] at heq
    exact Or.inr ⟨passed, reason, hbroke.passed_prefix.trans harrivals, heq,
      lagged_or_gone h hpast hbroke⟩

/-! ## Nothing is withheld -/

lemma occasions_append {s : Rehearsal} {n : Nat} {acts : List Act} (hopen : .close n ∉ acts)
    (acts' : List Act) :
    s.occasions n (acts ++ acts') = s.occasions n acts ++ (s.after acts).occasions n acts' := by
  induction acts generalizing s with
  | nil => rfl
  | cons a acts ih =>
      have ha : a ≠ .close n := fun ha => hopen (ha ▸ List.mem_cons_self)
      rw [List.cons_append, occasions_cons ha, occasions_cons ha, List.append_assoc,
        ih fun hmem => hopen (List.mem_cons_of_mem a hmem)]
      rfl

/-- The act of the forwarder or of the watcher of a watch that brings about an occasion. -/
def pace (n : Nat) : Occasion Event → Act
  | .take => .receive n
  | _ => .forward n

lemma forall_mem_pace (n : Nat) {os : List (Occasion Event)}
    (h : ∀ o ∈ os, o = .forward ∨ o = .take) :
    ∀ a ∈ os.map (pace n), a = .forward n ∨ a = .receive n := by
  intro a ha
  obtain ⟨o, ho, rfl⟩ := List.mem_map.mp ha
  rcases h o ho with rfl | rfl
  · exact Or.inl rfl
  · exact Or.inr rfl

/-- Turns at the stream are the occasions that they are made for. -/
lemma occasions_pace (s : Rehearsal) (n : Nat) {os : List (Occasion Event)}
    (h : ∀ o ∈ os, o = .forward ∨ o = .take) : s.occasions n (os.map (pace n)) = os := by
  induction os generalizing s with
  | nil => rfl
  | cons o os ih =>
      have hrest := fun t : Rehearsal => ih t fun o' ho' => h o' (List.mem_cons_of_mem o ho')
      rcases h o List.mem_cons_self with rfl | rfl
      · have hmeans : (Act.forward n).occasion? s n = some .forward := if_pos rfl
        rw [List.map_cons, pace, occasions_cons (by simp), hmeans, hrest]
        · rfl
        · simp
      · have hmeans : (Act.receive n).occasion? s n = some .take := if_pos rfl
        rw [List.map_cons, pace, occasions_cons (by simp), hmeans, hrest]
        rfl

/-- **A watcher who goes on taking is given every change within the scope**, or the last event. -/
theorem exists_received_all {s : Rehearsal} {n : Nat} {scope : String}
    (h : s.watch? n = some { scope }) (hpast : s.Past n) {acts : List Act}
    (hopen : .close n ∉ acts) :
    ∃ acts', (∀ a ∈ acts', a = .forward n ∨ a = .receive n)
      ∧ (s.received n (acts ++ acts') = (s.changes acts).filter (Event.isUnder scope)
        ∨ ∃ reason, .closed reason ∈ s.received n (acts ++ acts')) := by
  obtain ⟨os, hos, htaken⟩ :=
    Delivery.exists_complete (Watch.rules s.ring scope) (s.occasions n acts)
  have hoccasions : s.occasions n (acts ++ os.map (pace n)) = s.occasions n acts ++ os := by
    rw [occasions_append hopen, occasions_pace _ n hos]
  have hreceived : (Course.after (Watch.rules s.ring scope) {} (s.occasions n acts ++ os)).taken
      = s.received n (acts ++ os.map (pace n)) :=
    hoccasions ▸ (follows (c := {}) h hpast (acts ++ os.map (pace n))).2
  rw [hreceived, (arrivals_occasions s n acts).2 hopen] at htaken
  simp only [filterMap_pick] at htaken
  refine ⟨os.map (pace n), forall_mem_pace n hos, ?_⟩
  rcases htaken with hall | ⟨passed, reason, heq, -⟩
  · exact Or.inl hall
  · exact Or.inr ⟨reason, heq ▸ List.mem_append_right _ List.mem_cons_self⟩

/-! ## Settling and taking everything -/

lemma close_notMem_pace (n : Nat) (os : List (Occasion Event)) : .close n ∉ os.map (pace n) := by
  intro h
  obtain ⟨o, -, ho⟩ := List.mem_map.mp h
  cases o <;> cases ho

/-- **Settling a watch is acting of its forwarder**, a number of times. -/
theorem exists_settleWatch {s : Rehearsal} {n : Nat} {w : Watch} (h : s.watch? n = some w)
    (hpast : s.Past n) :
    ∃ k, (s.settleWatch n).watch? n = (s.after (List.replicate k (.forward n))).watch? n := by
  obtain ⟨k, hsettle⟩ := Delivery.exists_settle (Watch.rules s.ring w.scope) w.delivery []
  have hforward : ∀ o ∈ List.replicate k (.forward : Occasion Event), o = .forward ∨ o = .take :=
    fun o ho => Or.inl (List.eq_of_mem_replicate ho)
  have hwatch := (follows (c := ⟨w.delivery, []⟩) h hpast
    ((List.replicate k .forward).map (pace n))).1 (close_notMem_pace n _)
  rw [occasions_pace s n hforward, hsettle, List.map_replicate] at hwatch
  refine ⟨k, Eq.trans ?_ hwatch.symm⟩
  rw [settleWatch, h]
  exact (watch?_setWatch s n n _).trans (by rw [if_pos rfl, h]; rfl)

/-- **Taking everything from a stream is taking one event after the other**, while the forwarder
acts. -/
theorem exists_takeAll {s : Rehearsal} {n : Nat} {w : Watch} (h : s.watch? n = some w)
    (hpast : s.Past n) :
    ∃ acts, (∀ a ∈ acts, a = .forward n ∨ a = .receive n)
      ∧ (s.takeAll n).2 = s.received n acts
      ∧ (s.takeAll n).1.watch? n = (s.after acts).watch? n := by
  obtain ⟨os, hos, hdrain⟩ := Delivery.exists_drain (Watch.rules s.ring w.scope) w.delivery []
  obtain ⟨hwatch, htaken⟩ := follows (c := ⟨w.delivery, []⟩) h hpast (os.map (pace n))
  rw [occasions_pace s n hos, hdrain] at hwatch htaken
  refine ⟨os.map (pace n), forall_mem_pace n hos, ?_, ?_⟩
  · rw [takeAll, h]
    exact htaken
  · refine Eq.trans ?_ (hwatch (close_notMem_pace n os)).symm
    rw [takeAll, h]
    exact (watch?_setWatch s n n _).trans (by rw [if_pos rfl, h]; rfl)

/-! ## Opening a watch -/

/-- A key-value store that was asked to keep so many changes for its watches. -/
def keyStore (capacity : Nat) (now : Timestamp) : Rehearsal :=
  { ring := Watch.ringSize capacity, now }

section Opening

variable (capacity : Nat) (now : Timestamp) (acts : List Act)

lemma outages_after (s : Rehearsal) : (s.after acts).outages = s.outages := by
  induction acts generalizing s with
  | nil => rfl
  | cons a acts ih => exact (ih _).trans (a.effect s).outages

/-- Streams have the numbers up to the number of the next one. -/
lemma watch?_of_streams_le {n : Nat} (h : ((keyStore capacity now).after acts).streams ≤ n) :
    ((keyStore capacity now).after acts).watch? n = none := by
  induction acts using List.reverseRecOn with
  | nil => rfl
  | append_singleton acts a ih =>
      rw [after_append] at h ⊢
      have hnone := ih (Nat.le_trans (a.effect _).streams_le h)
      refine (closed_perform hnone fun scope ha => ?_).1
      subst ha
      -- a watch that is opened has the number that was the next one
      cases hgone : ((keyStore capacity now).after acts).keysGone with
      | true => exact Or.inr rfl
      | false =>
          have hout : ((keyStore capacity now).after acts).keysOut .watch = false := by
            rw [keysOut, hgone, outages_after]
            rfl
          have hopened : ((Act.watch scope).perform ((keyStore capacity now).after acts)).1
              = (((keyStore capacity now).after acts).openWatch scope).1 := by
            rw [Act.perform_watch, hout]
            rfl
          have hnext : ((keyStore capacity now).after acts).streams + 1 ≤ n :=
            (congrArg Rehearsal.streams hopened).symm.trans_le h
          exact Or.inl (by omega)

/-- **A watch that is opened** has a number of its own, and has met with nothing yet.  A store that is
gone opens none. -/
theorem watch?_opened (scope : String) :
    let s := (keyStore capacity now).after acts
    let opened := (keyStore capacity now).after (acts ++ [.watch scope])
    opened.Past s.streams
      ∧ opened.watch? s.streams = if s.keysGone then none else some { scope } := by
  intro s opened
  have hopened : opened = ((Act.watch scope).perform s).1 := after_append _ acts [.watch scope]
  have hnone : s.watch? s.streams = none :=
    watch?_of_streams_le capacity now acts (Nat.le_refl _)
  rw [hopened, Act.perform_watch]
  cases hgone : s.keysGone with
  | true =>
      rw [if_pos (keysOut_of_gone hgone .watch)]
      exact ⟨Or.inr hgone, hnone⟩
  | false =>
      have hout : ¬ s.keysOut .watch = true := by
        rw [keysOut, hgone, outages_after]
        exact Bool.false_ne_true
      rw [if_neg hout]
      refine ⟨Or.inl (Nat.lt_succ_self _), ?_⟩
      rw [watch?_openWatch, hnone, if_pos rfl]
      rfl

end Opening

end Rehearsal

end FleetLedger
