import FleetLedger.Proofs.Watches

/-!
# Watches do not notice each other

Two rehearsals that agree on the store and on one watch agree on it ever after, even if only in one of
them anything happens to other watches (`Alike`, **`Alike.run`**).  With what was said of a watch by
itself this makes the whole story of a watch: **`watch_gapless`**.
-/

namespace FleetLedger

namespace Rehearsal

open Delivery (Course)

/-! ## With and without other watches -/

/-- The act has to do with the watch with a number: all acts do but those of other watches. -/
def Act.concerns (n : Nat) : Act → Bool
  | put .. | delete .. | lose => true
  | watch _ => false
  | forward m | receive m | close m => m == n

/-- Two rehearsals agree on the store and on one of the watches. -/
structure Alike (n : Nat) (s t : Rehearsal) : Prop where
  entries : s.entries = t.entries
  keysGone : s.keysGone = t.keysGone
  outages : s.outages = t.outages
  ring : s.ring = t.ring
  watch : s.watch? n = t.watch? n

section Independence

variable {n : Nat} {s t : Rehearsal}

lemma Alike.keysOut (h : Alike n s t) (call : KeyCall) : s.keysOut call = t.keysOut call := by
  rw [Rehearsal.keysOut, Rehearsal.keysOut, h.keysGone, h.outages]

lemma Alike.changedBy (h : Alike n s t) (e : Event) :
    Alike n (s.changedBy e) (t.changedBy e) where
  entries := congrArg (Entries.after · e) h.entries
  keysGone := h.keysGone
  outages := h.outages
  ring := h.ring
  watch := by rw [watch?_changedBy, watch?_changedBy, h.watch]

/-- Setting the watch in both stores keeps them alike, whatever is reported. -/
lemma Alike.setWatch (h : Alike n s t) (w : Watch) (notices notices' : List Notice) :
    Alike n ((s.setWatch n w).report notices) ((t.setWatch n w).report notices') where
  entries := h.entries
  keysGone := h.keysGone
  outages := h.outages
  ring := h.ring
  watch := by rw [watch?_report, watch?_report, watch?_setWatch, watch?_setWatch, h.watch]

/-- **An act that concerns the watch** does the same in both. -/
theorem Alike.perform (h : Alike n s t) {a : Act} (ha : a.concerns n = true) :
    Alike n (a.perform s).1 (a.perform t).1 ∧ (a.perform s).2 = (a.perform t).2 := by
  cases a with
  | put key value =>
      rw [Act.perform_put, Act.perform_put, h.keysOut]
      split
      · exact ⟨h, rfl⟩
      · exact ⟨h.changedBy _, rfl⟩
  | delete key =>
      rw [Act.perform_delete, Act.perform_delete, h.keysOut, h.entries]
      split
      · exact ⟨h, rfl⟩
      · exact ⟨h.changedBy _, rfl⟩
  | watch scope => cases ha
  | forward m =>
      obtain rfl : m = n := eq_of_beq ha
      refine ⟨?_, rfl⟩
      simp only [Act.perform, forwardOnce, h.watch, h.ring]
      split
      · exact h
      · split
        · exact h
        · exact h.setWatch _ _ _
  | receive m =>
      obtain rfl : m = n := eq_of_beq ha
      simp only [Act.perform, receiveOnce, h.watch]
      split
      · exact ⟨h, rfl⟩
      · split
        · exact ⟨h, rfl⟩
        · refine ⟨⟨h.entries, h.keysGone, h.outages, h.ring, ?_⟩, rfl⟩
          rw [watch?_setWatch, watch?_setWatch, h.watch]
  | close m =>
      refine ⟨⟨h.entries, h.keysGone, h.outages, h.ring, ?_⟩, rfl⟩
      exact (watch?_closeWatch s n m).trans (h.watch ▸ (watch?_closeWatch t n m).symm)
  | lose =>
      refine ⟨⟨h.entries, rfl, h.outages, h.ring, ?_⟩, rfl⟩
      exact (watch?_loseKeys s n).trans (h.watch ▸ (watch?_loseKeys t n).symm)

/-- An act that does not concern a watch is no occasion for it. -/
lemma occasion?_of_not_concerns (s : Rehearsal) {a : Act} (ha : a.concerns n = false) :
    a.occasion? s n = none := by
  cases a with
  | forward m => exact if_neg (ne_of_beq_false ha)
  | receive m => exact if_neg (ne_of_beq_false ha)
  | watch other => rfl
  | close m => rfl
  | _ => cases ha

/-- An act that does not concern a watch leaves it, and takes nothing from it. -/
lemma watch?_of_not_concerns (hpast : s.Past n) {a : Act} (ha : a.concerns n = false) :
    (a.perform s).1.watch? n = s.watch? n
      ∧ (a.perform s).2.bind (Happening.takenFrom? n) = none := by
  cases hopen : s.watch? n with
  | none => exact closed_perform hopen fun _ _ => hpast.imp_left Nat.ne_of_lt
  | some w =>
      have hne : a ≠ .close n := fun hclose => by
        rw [hclose] at ha
        exact absurd (beq_self_eq_true n) (ne_true_of_eq_false ha)
      obtain ⟨hsame, htaken⟩ := follows_perform (c := ⟨w.delivery, []⟩) hopen hne
      rw [occasion?_of_not_concerns s ha] at hsame htaken
      refine ⟨hsame, ?_⟩
      cases hbind : (a.perform s).2.bind (Happening.takenFrom? n) with
      | none => rfl
      | some e =>
          rw [hbind] at htaken
          cases htaken

/-- **An act of another watch** does nothing to this one. -/
theorem Alike.skip (h : Alike n s t) (hpast : s.Past n) {a : Act} (ha : a.concerns n = false) :
    Alike n (a.perform s).1 t ∧ (a.perform s).2.bind Happening.change? = none := by
  have hchange : (a.perform s).2.bind Happening.change? = none := by
    rw [← item?_occasion? s n a, occasion?_of_not_concerns s ha]
    rfl
  have hlose : a ≠ .lose := fun hlose => by
    rw [hlose] at ha
    cases ha
  refine ⟨⟨?_, ?_, ?_, ?_, ?_⟩, hchange⟩
  · rw [(a.effect s).entries, hchange]
    exact h.entries
  · rw [(a.effect s).keysGone, beq_false_of_ne hlose, Bool.or_false]
    exact h.keysGone
  · exact (a.effect s).outages.trans h.outages
  · exact (a.effect s).ring.trans h.ring
  · exact (watch?_of_not_concerns hpast ha).1.trans h.watch

/-- **Without the acts of other watches** the same changes are made, and the same is taken. -/
theorem Alike.run (h : Alike n s t) (hpast : s.Past n) (acts : List Act) :
    s.changes acts = t.changes (acts.filter (Act.concerns n))
      ∧ s.received n acts = t.received n (acts.filter (Act.concerns n)) := by
  induction acts generalizing s t with
  | nil => exact ⟨rfl, rfl⟩
  | cons a acts ih =>
      cases ha : a.concerns n with
      | true =>
          obtain ⟨halike, hsame⟩ := h.perform ha
          obtain ⟨hchanges, hreceived⟩ := ih halike (hpast.perform a)
          rw [List.filter_cons_of_pos ha]
          constructor
          · rw [changes_cons, changes_cons, hsame, hchanges]
          · rw [received_cons, received_cons, hsame, hreceived]
      | false =>
          obtain ⟨halike, hchange⟩ := h.skip hpast ha
          obtain ⟨hchanges, hreceived⟩ := ih halike (hpast.perform a)
          rw [List.filter_cons_of_neg (ne_true_of_eq_false ha)]
          constructor
          · rw [changes_cons, hchange]
            exact hchanges
          · rw [received_cons, (watch?_of_not_concerns hpast ha).2]
            exact hreceived

end Independence

/-! ## The whole story of a watch -/

/-- **A watch is told of the changes in its scope, in order and without a gap.**  Let a watch be
opened at any time at a store that keeps any number of changes for its watches, and let anything
happen afterwards, in any order: calls, actions of forwarders, watchers that take events or drop
their streams, the end of the store.

What is taken from the stream is a first part of the changes within the scope that the calls have
made since, or it is such a part and a last event that says why nothing more will come.  A last event
is given only if the forwarder of the watch fell behind by more changes, of any scope, than the store
keeps, of which it says how many it missed; or if the store is gone, and then all changes within the
scope came before it.

What is taken is the same without the acts of all other watches. -/
theorem watch_gapless (capacity : Nat) (now : Timestamp) (before : List Act) (scope : String)
    (acts : List Act) :
    let n := ((keyStore capacity now).after before).streams
    let s := (keyStore capacity now).after (before ++ [.watch scope])
    s.ring = Watch.ringSize capacity
      ∧ (∀ e ∈ s.changes acts, e.isClosed = false)
      ∧ (s.received n acts <+: (s.changes acts).filter (Event.isUnder scope)
        ∨ ∃ passed reason, passed <+: s.changes acts
          ∧ s.received n acts = passed.filter (Event.isUnder scope) ++ [.closed reason]
          ∧ ∃ sooner later, acts = sooner ++ later
            ∧ ((∃ skipped, s.Lagged n sooner passed skipped
                ∧ reason = Delivery.behindReason skipped)
              ∨ (.lose ∈ sooner ∧ reason = Watch.goneReason ∧ passed = s.changes acts)))
      ∧ s.changes acts = s.changes (acts.filter (Act.concerns n))
      ∧ s.received n acts = s.received n (acts.filter (Act.concerns n)) := by
  intro n s
  obtain ⟨hpast, hwatch⟩ : s.Past n ∧ s.watch? n = _ := watch?_opened capacity now before scope
  have halike : Alike n s s := ⟨rfl, rfl, rfl, rfl, rfl⟩
  refine ⟨?_, ?_, ?_, halike.run hpast acts⟩
  · exact ring_after (keyStore capacity now) (before ++ [.watch scope])
  · exact fun e => isClosed_of_mem_changes s acts
  · cases hgone : ((keyStore capacity now).after before).keysGone with
    | true =>
        -- the watch was refused, and nothing is taken from its stream
        rw [hgone] at hwatch
        have hnone : s.received n acts = [] := received_of_closed hwatch hpast acts
        exact Or.inl (hnone ▸ List.nil_prefix)
    | false =>
        rw [hgone] at hwatch
        exact received_eq hwatch hpast acts

/-- A store that keeps one change, and a forwarder that comes too late. -/
example : ((keyStore 1 { millis := 0 }).after [.watch "/n/"]).received 0
    [.put "/n/a" "1", .put "/g/a" "2", .put "/n/b" "3", .forward 0, .forward 0, .receive 0]
    = [.closed "watcher lagged behind by 2 changes"] := by decide +kernel

end Rehearsal

end FleetLedger
