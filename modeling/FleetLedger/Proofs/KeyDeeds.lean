import FleetLedger.Proofs.Presence
import FleetLedger.Proofs.Watches

/-!
# What is done at the key-value store

Nodes do things at the key-value store through the registry, which asks first and acts then, reports
what it finds, and has the roster to look after as well.  Others put and delete whatever they like, and
processes come and go.

All of that is little to the store itself: each `KeyDeed` makes at most one change of one entry
(`KeyDeed.change?`), and that is all that it does to the entries and to the watches (**`KeyDeed.changed`**).
The change can be told by what is seen from outside, the answer to a put and the entries before and
after.
-/

namespace FleetLedger

namespace Rehearsal

/-! ## Deeds -/

/-- The key-value store and its watches are the same. -/
structure SameKeys (s s' : Rehearsal) : Prop where
  entries : s'.entries = s.entries
  watches : s'.watches = s.watches
  ring : s'.ring = s.ring
  keysGone : s'.keysGone = s.keysGone
  outages : s'.outages = s.outages
  removalTime : s'.removalTime = s.removalTime

lemma SameKeys.refl (s : Rehearsal) : SameKeys s s := ⟨rfl, rfl, rfl, rfl, rfl, rfl⟩

lemma SameKeys.trans {s s' s'' : Rehearsal} (h : SameKeys s s') (h' : SameKeys s' s'') :
    SameKeys s s'' where
  entries := h'.entries.trans h.entries
  watches := h'.watches.trans h.watches
  ring := h'.ring.trans h.ring
  keysGone := h'.keysGone.trans h.keysGone
  outages := h'.outages.trans h.outages
  removalTime := h'.removalTime.trans h.removalTime

lemma SameKeys.report (s : Rehearsal) (notices : List Notice) : SameKeys s (s.report notices) :=
  ⟨rfl, rfl, rfl, rfl, rfl, rfl⟩

/-- Where the keys are the same, so is each watch. -/
lemma SameKeys.watch? {s s' : Rehearsal} (h : SameKeys s s') (n : Nat) :
    s'.watch? n = s.watch? n := by
  rw [Rehearsal.watch?, h.watches, ← Rehearsal.watch?]

/-- What is done at the key-value store, by nodes and by others, or to the processes. -/
inductive KeyDeed where
  | register (n : Node)
  | claim (n : Node)
  | release (n : Node)
  | remove (id : String)
  | put (key value : String)
  | delete (key : String)
  | spawn (pid : Int)
  | kill (pid : Int)

section Deeds

variable (keys : KeySpace)

/-- The rehearsal after a deed. -/
def KeyDeed.perform (s : Rehearsal) : KeyDeed → Rehearsal
  | register n => (((registry keys).register n).run.run.run s).2
  | claim n => (((registry keys).claim n).run.run.run s).2
  | release n => (((registry keys).release n).run.run.run s).2
  | remove id => (((registry keys).remove id).run.run.run s).2
  | put key value => ((coordination.put key value).run.run.run s).2
  | delete key => ((coordination.delete key).run.run.run s).2
  | spawn pid => ((Rehearsal.spawn pid).run.run s).2
  | kill pid => ((Rehearsal.kill pid).run.run s).2

/-- A value is put under a key, unless the store refuses to. -/
def put? (s : Rehearsal) (key value : String) : Option Event :=
  if s.keysOut .put then none else some (.put key value)

/-- A key was there and is there no more. -/
def gone? (s s' : Rehearsal) (key : String) : Option Event :=
  if s.entries.contains key && !s'.entries.contains key then some (.delete key) else none

/-- The change that a deed makes. -/
def KeyDeed.change? (s : Rehearsal) (d : KeyDeed) : Option Event :=
  match d with
  | claim n => put? s (keys.nodeKey n.id) (toString n.pid)
  | put key value => put? s key value
  | register n | release n => gone? s (d.perform keys s) (keys.nodeKey n.id)
  | remove id => gone? s (d.perform keys s) (keys.nodeKey id)
  | delete key => gone? s (d.perform keys s) key
  | spawn _ | kill _ => none

/-- The rehearsal after a change, if there is one. -/
def changedBy? (s : Rehearsal) (change : Option Event) : Rehearsal := change.elim s s.changedBy

/-- Putting a value changes the keys as the event of it says, and changes nothing while puts are
out. -/
lemma state_put (s : Rehearsal) (key value : String) :
    ((coordination.put key value).run.run.run s).2 = s.changedBy? (put? s key value) := by
  have hrun := run_keyCall .put (fun s => (s.putKey key value, ())) s
  simp only [coordination, hrun, put?]
  split <;> rfl

/-- At most a key was removed. -/
def RemovedAtMost (s : Rehearsal) (key : String) (s' : Rehearsal) : Prop :=
  SameKeys s s' ∨ SameKeys (s.deleteKey key).1 s'

/-- What removes a key at most changes the keys as the event of the removal says, if the key was
there. -/
lemma RemovedAtMost.changed {s s' : Rehearsal} {key : String} (h : s.RemovedAtMost key s') :
    SameKeys (s.changedBy? (gone? s s' key)) s' := by
  have hnothing : SameKeys s s' → SameKeys (s.changedBy? (gone? s s' key)) s' := fun hsame => by
    rw [gone?, hsame.entries]
    cases s.entries.contains key <;> exact hsame
  rcases h with hsame | hdeleted
  · exact hnothing hsame
  · cases hc : s.entries.contains key with
    | false =>
        have hdelete : (s.deleteKey key).1 = s := by simp [deleteKey, Entries.delete, hc]
        exact hnothing (hdelete ▸ hdeleted)
    | true =>
        have hdelete : (s.deleteKey key).1 = s.changedBy (.delete key) := by
          simp [deleteKey, Entries.delete, hc, changedBy, Entries.after]
        rw [hdelete] at hdeleted
        have habsent : s'.entries.contains key = false := by
          rw [hdeleted.entries, changedBy, publish, Entries.after, Table.contains, Table.get?_erase,
            if_pos rfl]
          rfl
        rw [gone?, hc, habsent]
        exact hdeleted

/-- Reports before a removal make no difference to the keys after it. -/
lemma sameKeys_deleteKey_report (s : Rehearsal) (notices : List Notice) (key : String) :
    SameKeys (s.deleteKey key).1 ((s.report notices).deleteKey key).1 := by
  cases hc : s.entries.contains key with
  | true =>
      simp only [deleteKey, Entries.delete, report, hc, if_true]
      exact ⟨rfl, rfl, rfl, rfl, rfl, rfl⟩
  | false =>
      simp only [deleteKey, Entries.delete, report, hc]
      exact ⟨rfl, rfl, rfl, rfl, rfl, rfl⟩

/-- Vacating removes the key that it is about, at most. -/
lemma removedAtMost_vacate (s : Rehearsal) (key : String) (notice : Notice) :
    s.RemovedAtMost key (((registry keys).vacate key notice).run.run.run s).2 := by
  have hnote : (note notice).run.run s = (some (), s.report [notice]) := rfl
  have hnoted : ((registry keys).vacate key notice).run.run.run s = _ :=
    run_bind (run_lift hnote) _
  rw [hnoted]
  have hcall : (registry keys).coordination.delete key = keyCall .delete fun s => s.deleteKey key := rfl
  exact state_bind (P := s.RemovedAtMost key) hcall (fun _ => Or.inl (.report s _))
    fun _ => Or.inr (sameKeys_deleteKey_report s _ key)

/-- **Registering removes the presence key of the node, at most**: it does so where the key is held
by nobody, and otherwise only looks at it. -/
theorem removedAtMost_register (s : Rehearsal) (n : Node) :
    s.RemovedAtMost (keys.nodeKey n.id) (((registry keys).register n).run.run.run s).2 := by
  have hcall : (registry keys).coordination.get (keys.nodeKey n.id)
      = keyCall .get fun s => (s, s.entries.get? (keys.nodeKey n.id)) := rfl
  refine state_bind (P := s.RemovedAtMost (keys.nodeKey n.id)) hcall (fun _ => Or.inl (.refl s))
    fun _ => ?_
  have halive : (registry keys).isAlive.run.run s = (some s.live.contains, s) := rfl
  dsimp only
  cases s.entries.get? (keys.nodeKey n.id) with
  | none => exact Or.inl (.refl s)
  | some value =>
      dsimp only
      rw [run_bind (run_lift halive)]
      cases Holder.ofValue s.live.contains value with
      | live pid => exact Or.inl (.refl s)
      | dead pid => exact removedAtMost_vacate keys s _ _
      | unreadable fault => exact removedAtMost_vacate keys s _ _

/-- Releasing removes the presence key of the node, at most. -/
lemma removedAtMost_release (s : Rehearsal) (n : Node) :
    s.RemovedAtMost (keys.nodeKey n.id) (((registry keys).release n).run.run.run s).2 := by
  have hcall : (registry keys).coordination.delete (keys.nodeKey n.id)
      = keyCall .delete fun s => s.deleteKey (keys.nodeKey n.id) := rfl
  exact state_bind (P := s.RemovedAtMost (keys.nodeKey n.id)) hcall (fun _ => Or.inl (.refl s))
    fun _ => Or.inr (.refl _)

/-- Removing documents leaves the keys alone. -/
lemma sameKeys_remove (s : Rehearsal) (collection : String) (f : Filter) :
    SameKeys s (s.remove collection f).1 := by
  rw [remove]
  split
  · exact .refl s
  · exact ⟨rfl, rfl, rfl, rfl, rfl, rfl⟩

/-- A removal from the document store, and what is noted of it. -/
lemma sameKeys_slowly {s : Rehearsal} (hprompt : s.removalTime = 0) (collection : String)
    (f : Filter) (notice : Nat → Notice) :
    SameKeys s ((slowly collection f >>= fun removed => liftM (note (notice removed))
      : ExceptT Error Action Unit).run.run.run s).2 := by
  have hcounted : SameKeys s { s with removals := s.removals + 1 } := ⟨rfl, rfl, rfl, rfl, rfl, rfl⟩
  have hkept := hcounted.trans (sameKeys_remove _ collection f)
  have hanswer : (slowly collection f).run.run.run s
      = (fun x : Rehearsal × Outcome Nat => (some x.2, x.1))
        (({ s with removals := s.removals + 1 }.wait s.removalTime).remove collection f) := rfl
  have hwait : { s with removals := s.removals + 1 }.wait s.removalTime
      = { s with removals := s.removals + 1 } := if_pos hprompt
  rw [hwait] at hanswer
  generalize remove { s with removals := s.removals + 1 } collection f = found at hkept hanswer
  obtain ⟨t, _ | removed⟩ := found
  · rw [run_bind_error hanswer]
    exact hkept
  · have hnote : (note (notice removed)).run.run t = (some (), t.report [notice removed]) := rfl
    rw [run_bind hanswer, run_lift hnote]
    exact hkept.trans (.report t _)

/-- How long documents take to be removed does not depend on keys. -/
lemma removalTime_deleteKey (s : Rehearsal) (key : String) :
    (s.deleteKey key).1.removalTime = s.removalTime := by
  rw [deleteKey]
  split <;> rfl

/-- Removing an identity removes its presence key, at most, where documents are removed at once. -/
lemma removedAtMost_remove {s : Rehearsal} (hprompt : s.removalTime = 0) (id : String) :
    s.RemovedAtMost (keys.nodeKey id) (((registry keys).remove id).run.run.run s).2 := by
  have hcall : (registry keys).coordination.delete (keys.nodeKey id)
      = keyCall .delete fun s => s.deleteKey (keys.nodeKey id) := rfl
  refine state_bind (P := s.RemovedAtMost (keys.nodeKey id)) hcall (fun _ => Or.inl (.refl s))
    fun _ => Or.inr ?_
  exact sameKeys_slowly ((removalTime_deleteKey s _).trans hprompt) _ _ _

/-- The call that deletes a key removes that key, at most. -/
lemma removedAtMost_delete (s : Rehearsal) (key : String) :
    s.RemovedAtMost key ((coordination.delete key).run.run.run s).2 := by
  have hrun := run_keyCall .delete (fun s => s.deleteKey key) s
  simp only [coordination, hrun]
  split
  · exact Or.inl (.refl s)
  · exact Or.inr (.refl _)

/-- **A deed does nothing to the key-value store but to make its change.** -/
theorem KeyDeed.changed (s : Rehearsal) (hprompt : s.removalTime = 0) (d : KeyDeed) :
    SameKeys (s.changedBy? (d.change? keys s)) (d.perform keys s) := by
  cases d with
  | register n => exact (removedAtMost_register keys s n).changed
  | claim n =>
      have hstate := state_put s (keys.nodeKey n.id) (toString n.pid)
      exact hstate ▸ .refl _
  | release n => exact (removedAtMost_release keys s n).changed
  | remove id => exact (removedAtMost_remove keys hprompt id).changed
  | put key value => exact state_put s key value ▸ .refl _
  | delete key => exact (removedAtMost_delete s key).changed
  | spawn pid =>
      have hstate : (KeyDeed.spawn pid).perform keys s
          = (if s.live.contains pid then (false, s) else (true, { s with live := pid :: s.live })).2 :=
        rfl
      rw [hstate]
      split
      · exact .refl s
      · exact ⟨rfl, rfl, rfl, rfl, rfl, rfl⟩
  | kill pid => exact ⟨rfl, rfl, rfl, rfl, rfl, rfl⟩

end Deeds

end Rehearsal

end FleetLedger
