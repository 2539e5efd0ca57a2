import FleetLedger.Proofs.Calls
import FleetLedger.Proofs.Deliveries

/-!
# What happens at the key-value store

An `Act` is one thing that happens at the key-value store of a rehearsal, or between it and those who
watch it: a call, one action of a forwarder, a watcher that takes one event or drops its stream, or
the end of the store.  It has a `Happening` if a call was answered that it changed something, or if
an event was taken.

The changes of a list of acts are those that the answers tell of.  They are also what the store and
the watches go by: a call that is answered so does nothing but to apply the change and to show it to
all watches (`changedBy`, `Act.perform_put`, `Act.perform_delete`).  `Effect` sums up what an act can
do to the store, which is all that is needed for what follows: the entries are at any time what the
changes have made of them (**`entries_after`**), and once the store is gone there are no changes any
more (**`changes_of_gone`**).
-/

namespace FleetLedger.Rehearsal

/-! ## Acts -/

/-- One thing that happens at the key-value store. -/
inductive Act where
  | put (key value : String)
  | delete (key : String)
  | watch (scope : String)
  /-- The forwarder of a watch acts once. -/
  | forward (stream : Nat)
  /-- A watcher takes the next event. -/
  | receive (stream : Nat)
  /-- A watcher drops its stream. -/
  | close (stream : Nat)
  /-- The store is gone. -/
  | lose
  deriving DecidableEq

/-- What an act comes to. -/
inductive Happening where
  | changed (e : Event)
  | received (stream : Nat) (e : Event)

/-- The change of a key that a happening is, if it is one. -/
def Happening.change? : Happening → Option Event
  | changed e => some e
  | received .. => none

/-- The event that was taken from a stream. -/
def Happening.takenFrom? (stream : Nat) : Happening → Option Event
  | changed _ => none
  | received m e => if m = stream then some e else none

/-- Lets the forwarder of a watch act once, unless it has to wait. -/
def forwardOnce (s : Rehearsal) (stream : Nat) : Rehearsal :=
  match s.watch? stream with
  | none => s
  | some w =>
    match w.delivery.step? (Watch.rules s.ring w.scope) with
    | none => s
    | some (delivery, missed) =>
      (s.setWatch stream { w with delivery }).report (w.behind missed.toList)

/-- Takes the next event from a stream, if one was delivered. -/
def receiveOnce (s : Rehearsal) (stream : Nat) : Rehearsal × Option Event :=
  match s.watch? stream with
  | none => (s, none)
  | some w =>
    match w.delivery.take? with
    | none => (s, none)
    | some (e, delivery) => (s.setWatch stream { w with delivery }, some e)

/-- Performs an act. -/
def Act.perform (s : Rehearsal) : Act → Rehearsal × Option Happening
  | put key value =>
    match (coordination.put key value).run.run.run s with
    | (some (.ok ()), s) => (s, some (.changed (.put key value)))
    | (_, s) => (s, none)
  | delete key =>
    match (coordination.delete key).run.run.run s with
    | (some (.ok 1), s) => (s, some (.changed (.delete key)))
    | (_, s) => (s, none)
  | watch scope => (((coordination.watch scope).run.run.run s).2, none)
  | forward stream => (s.forwardOnce stream, none)
  | receive stream =>
    let (s, e?) := s.receiveOnce stream
    (s, e?.map (.received stream))
  | close stream => (s.closeWatch stream, none)
  | lose => (s.loseKeys, none)

/-- The rehearsal after some acts. -/
def after (s : Rehearsal) (acts : List Act) : Rehearsal := acts.foldl (fun s a => (a.perform s).1) s

/-- What some acts come to. -/
def happenings (s : Rehearsal) : List Act → List Happening
  | [] => []
  | a :: acts => (a.perform s).2.toList ++ happenings (a.perform s).1 acts

/-- What some acts change, in order. -/
def changes (s : Rehearsal) (acts : List Act) : List Event :=
  (s.happenings acts).filterMap Happening.change?

/-- What is taken from a stream meanwhile, in order. -/
def received (s : Rehearsal) (stream : Nat) (acts : List Act) : List Event :=
  (s.happenings acts).filterMap (Happening.takenFrom? stream)

section Runs

variable (s : Rehearsal)

lemma after_append (acts acts' : List Act) : s.after (acts ++ acts') = (s.after acts).after acts' :=
  List.foldl_append

lemma happenings_append (acts acts' : List Act) :
    s.happenings (acts ++ acts') = s.happenings acts ++ (s.after acts).happenings acts' := by
  induction acts generalizing s with
  | nil => rfl
  | cons a acts ih =>
      simp only [List.cons_append, happenings, ih, List.append_assoc]
      rfl

lemma changes_append (acts acts' : List Act) :
    s.changes (acts ++ acts') = s.changes acts ++ (s.after acts).changes acts' := by
  rw [changes, happenings_append, List.filterMap_append]
  rfl

lemma changes_cons (a : Act) (acts : List Act) :
    s.changes (a :: acts)
      = ((a.perform s).2.bind Happening.change?).toList ++ (a.perform s).1.changes acts := by
  rw [changes, happenings, List.filterMap_append]
  cases (a.perform s).2 <;> rfl

lemma received_cons (stream : Nat) (a : Act) (acts : List Act) :
    s.received stream (a :: acts)
      = ((a.perform s).2.bind (Happening.takenFrom? stream)).toList
        ++ (a.perform s).1.received stream acts := by
  rw [received, happenings, List.filterMap_append]
  cases (a.perform s).2 with
  | none => rfl
  | some h =>
      cases hh : h.takenFrom? stream with
      | none => simp [hh, received]
      | some e => simp [hh, received]

end Runs

/-! ## Calls -/

/-- The rehearsal after a change, which all watches were shown. -/
def changedBy (s : Rehearsal) (e : Event) : Rehearsal :=
  publish { s with entries := s.entries.after e } e

/-- **Putting** changes something whenever it is answered. -/
theorem Act.perform_put (s : Rehearsal) (key value : String) :
    (Act.put key value).perform s
      = if s.keysOut .put then (s, none)
        else (s.changedBy (.put key value), some (.changed (.put key value))) := by
  have hrun := run_keyCall .put (fun s => (s.putKey key value, ())) s
  simp only [Act.perform, coordination, hrun]
  by_cases h : s.keysOut .put = true
  · rw [if_pos h, if_pos h]
  · rw [if_neg h, if_neg h]
    rfl

/-- **Deleting** changes something if the key was there. -/
theorem Act.perform_delete (s : Rehearsal) (key : String) :
    (Act.delete key).perform s
      = if s.keysOut .delete || !s.entries.contains key then (s, none)
        else (s.changedBy (.delete key), some (.changed (.delete key))) := by
  have hrun := run_keyCall .delete (fun s => s.deleteKey key) s
  simp only [Act.perform, coordination, hrun]
  by_cases h : s.keysOut .delete = true
  · simp [h]
  · cases hc : s.entries.contains key with
    | true =>
        have hdelete : s.deleteKey key = (s.changedBy (.delete key), 1) := by
          simp [deleteKey, Entries.delete, hc, changedBy, Entries.after]
        simp [h, hdelete]
    | false =>
        have hdelete : s.deleteKey key = (s, 0) := by
          simp [deleteKey, Entries.delete, hc]
        simp [h, hdelete]

/-- Watching opens a stream, and changes no key. -/
lemma Act.perform_watch (s : Rehearsal) (scope : String) :
    (Act.watch scope).perform s
      = (if s.keysOut .watch then s else (s.openWatch scope).1, none) := by
  have hrun := run_keyCall .watch (fun s => s.openWatch scope) s
  simp only [Act.perform, coordination, hrun]
  by_cases h : s.keysOut .watch = true
  · rw [if_pos h, if_pos h]
  · rw [if_neg h, if_neg h]

/-- What an act does to the store, and the change that it comes to: it changes an entry, or the store
is gone, or only the watches and what is reported are touched. -/
inductive Effect (s : Rehearsal) (a : Act) : Rehearsal → Option Event → Prop where
  | change {e : Event} (hlose : a ≠ .lose) (hgone : s.keysGone = false) (he : e.isClosed = false) :
    Effect s a (s.changedBy e) (some e)
  | lose (hlose : a = .lose) : Effect s a s.loseKeys none
  | other {watches : List (Nat × Watch)} {streams : Nat} {notices : List Notice}
      (hlose : a ≠ .lose) (hstreams : s.streams ≤ streams) :
    Effect s a { s with watches, streams, notices } none

/-- An act that is refused, or has nothing to do, has no effect. -/
lemma Effect.same {s : Rehearsal} {a : Act} (hlose : a ≠ .lose) : Effect s a s none :=
  .other hlose (Nat.le_refl s.streams)

/-- **Every act has one of these effects.** -/
theorem Act.effect (s : Rehearsal) (a : Act) :
    Effect s a (a.perform s).1 ((a.perform s).2.bind Happening.change?) := by
  have hgone : ∀ {call : KeyCall}, ¬ s.keysOut call = true → s.keysGone = false :=
    fun hout => Bool.eq_false_iff.mpr fun hg => hout (keysOut_of_gone hg _)
  cases a with
  | put key value =>
      rw [Act.perform_put]
      split
      · exact .same (by simp)
      · exact .change (by simp) (hgone ‹_›) rfl
  | delete key =>
      rw [Act.perform_delete]
      split
      · exact .same (by simp)
      · rename_i h
        exact .change (by simp) (hgone fun hout => h (by rw [hout, Bool.true_or])) rfl
  | watch scope =>
      rw [Act.perform_watch]
      split
      · exact .same (by simp)
      · exact .other (by simp) (Nat.le_succ s.streams)
  | forward stream =>
      simp only [Act.perform, forwardOnce]
      split
      · exact .same (by simp)
      · split
        · exact .same (by simp)
        · exact .other (by simp) (Nat.le_refl s.streams)
  | receive stream =>
      simp only [Act.perform, receiveOnce]
      split
      · exact .same (by simp)
      · split
        · exact .same (by simp)
        · exact .other (by simp) (Nat.le_refl s.streams)
  | close stream => exact .other (by simp) (Nat.le_refl s.streams)
  | lose => exact .lose rfl

namespace Effect

variable {s s' : Rehearsal} {a : Act} {change : Option Event}

/-- No act changes how many events the store keeps for a watch. -/
lemma ring (h : Effect s a s' change) : s'.ring = s.ring := by
  cases h <;> rfl

lemma outages (h : Effect s a s' change) : s'.outages = s.outages := by
  cases h <;> rfl

lemma removalTime (h : Effect s a s' change) : s'.removalTime = s.removalTime := by
  cases h <;> rfl

/-- The entries are as the change leaves them, if there is one. -/
lemma entries (h : Effect s a s' change) :
    s'.entries = change.toList.foldl Entries.after s.entries := by
  cases h <;> rfl

lemma streams_le (h : Effect s a s' change) : s.streams ≤ s'.streams := by
  cases h with
  | change => exact Nat.le_refl _
  | lose => exact Nat.le_refl _
  | other _ hstreams => exact hstreams

/-- The store is gone once it was lost, and stays so. -/
lemma keysGone (h : Effect s a s' change) : s'.keysGone = (s.keysGone || a == .lose) := by
  cases h with
  | change hlose =>
      rw [beq_false_of_ne hlose, Bool.or_false]
      rfl
  | lose hlose =>
      rw [hlose, beq_self_eq_true, Bool.or_true]
      rfl
  | other hlose => rw [beq_false_of_ne hlose, Bool.or_false]

/-- A change is never the end of a stream. -/
lemma isClosed (h : Effect s a s' change) {e : Event} (he : change = some e) :
    e.isClosed = false := by
  cases h with
  | change _ _ hclosed => exact Option.some.inj he ▸ hclosed
  | lose => cases he
  | other => cases he

/-- Nothing changes in a store that is gone. -/
lemma change_of_gone (h : Effect s a s' change) (hgone : s.keysGone = true) : change = none := by
  cases h with
  | change _ hgone' => exact absurd hgone (ne_true_of_eq_false hgone')
  | lose => rfl
  | other => rfl

end Effect

section Runs

variable (s : Rehearsal) (acts : List Act)

lemma ring_after : (s.after acts).ring = s.ring := by
  induction acts generalizing s with
  | nil => rfl
  | cons a acts ih => exact (ih _).trans (a.effect s).ring

lemma keysGone_after : (s.after acts).keysGone = (s.keysGone || acts.contains .lose) := by
  induction acts generalizing s with
  | nil => exact (Bool.or_false _).symm
  | cons a acts ih =>
      refine (ih _).trans ?_
      rw [(a.effect s).keysGone, List.contains_cons, Bool.or_assoc, Bool.beq_comm]

/-- **The entries are what the changes have made of them.** -/
theorem entries_after : (s.after acts).entries = (s.changes acts).foldl Entries.after s.entries := by
  induction acts generalizing s with
  | nil => rfl
  | cons a acts ih =>
      rw [changes_cons, List.foldl_append, ← (a.effect s).entries]
      exact ih _

/-- A change is a put or a delete. -/
lemma isClosed_of_mem_changes {e : Event} (h : e ∈ s.changes acts) : e.isClosed = false := by
  induction acts generalizing s with
  | nil => cases h
  | cons a acts ih =>
      rw [changes_cons, List.mem_append, Option.mem_toList] at h
      rcases h with h | h
      · exact (a.effect s).isClosed h
      · exact ih _ h

/-- **A store that is gone changes no more.** -/
theorem changes_of_gone (h : s.keysGone = true) : s.changes acts = [] := by
  induction acts generalizing s with
  | nil => rfl
  | cons a acts ih =>
      have hgone : (a.perform s).1.keysGone = true := by
        rw [(a.effect s).keysGone, h, Bool.true_or]
      rw [changes_cons, (a.effect s).change_of_gone h, ih _ hgone]
      rfl

end Runs

end FleetLedger.Rehearsal
