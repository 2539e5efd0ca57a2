import FleetLedger.Proofs.Calls
import FleetLedger.Proofs.Numerals
import FleetLedger.Rehearsal.Services

/-!
# Presence keys

What the three calls by which workers announce themselves do to the presence keys, as long as the
key-value store answers.  Registering finds a live holder and changes nothing, or it finds none and
leaves the key absent (**`register_cases`**); claiming puts the process id there, where it reads as
itself (`holder_toString`); releasing removes the key.  No call touches the key of another node, for
a presence key names one node (`nodeKey_injective`).
-/

namespace FleetLedger

/-- Nodes with different ids have different keys. -/
lemma KeySpace.nodeKey_injective (keys : KeySpace) {id id' : String}
    (h : keys.nodeKey id = keys.nodeKey id') : id = id' := by
  have hname := congrArg (Scope.rest? keys.nodes) h
  rw [KeySpace.nodeKey, KeySpace.nodeKey, Scope.rest?_append, Scope.rest?_append] at hname
  exact Option.some.inj hname

/-- The process id that the value of a presence key spells, with blanks around it or not. -/
def Holder.pid? (value : String) : Option Int :=
  (Numeral.read (-2147483648) 2147483647 (Blank.trim value)).toOption

/-- A value names a live holder if it spells the id of a process that is alive. -/
lemma Holder.ofValue_eq_live {isAlive : Int → Bool} {value : String} {pid : Int} :
    Holder.ofValue isAlive value = .live pid ↔ Holder.pid? value = some pid ∧ isAlive pid = true := by
  rw [Holder.ofValue, Holder.pid?]
  cases Numeral.read (-2147483648) 2147483647 (Blank.trim value) with
  | error fault => simp [Except.toOption]
  | ok p =>
      by_cases hp : isAlive p = true
      · simp only [hp, if_true, Holder.live.injEq, Except.toOption, Option.some.injEq]
        exact ⟨fun h => ⟨h, h ▸ hp⟩, fun h => h.1⟩
      · simp only [hp, Except.toOption, Option.some.injEq]
        refine ⟨fun h => ?_, fun h => absurd (h.1 ▸ h.2) hp⟩
        cases h

/-- **A process id that was put under a key is found there.** -/
theorem Holder.pid?_toString {pid : Int} (hlow : -2147483648 ≤ pid) (hhigh : pid ≤ 2147483647) :
    Holder.pid? (toString pid) = some pid := by
  rw [Holder.pid?, Numeral.trim_toString, Numeral.read_toString hlow hhigh]
  rfl

namespace Rehearsal

/-! ## Changes of keys -/

/-- Two rehearsals differ in nothing that bears on who holds which key but the entries. -/
structure SameFleet (s s' : Rehearsal) : Prop where
  live : s'.live = s.live
  keysOut : ∀ call, s'.keysOut call = s.keysOut call

/-- Removing a key takes no process with it. -/
lemma sameFleet_deleteKey (s : Rehearsal) (key : String) : SameFleet s (s.deleteKey key).1 := by
  rw [deleteKey, Entries.delete]
  split
  · rename_i h
    split at h
    · exact ⟨rfl, fun _ => rfl⟩
    · cases h
  · exact ⟨rfl, fun _ => rfl⟩

lemma get?_deleteKey (s : Rehearsal) (key other : String) :
    (s.deleteKey key).1.entries.get? other
      = if key = other then none else s.entries.get? other := by
  cases h : s.entries.contains key with
  | true =>
      have herased : (s.deleteKey key).1.entries = s.entries.erase key := by
        simp [deleteKey, Entries.delete, h, publish]
      rw [herased, Table.get?_erase]
  | false =>
      have hsame : (s.deleteKey key).1.entries = s.entries := by
        simp [deleteKey, Entries.delete, h]
      have hnone : s.entries.get? key = none := by
        simpa [Table.contains] using h
      rw [hsame]
      split
      · rename_i hkey
        rw [← hkey, hnone]
      · rfl

lemma get?_putKey (s : Rehearsal) (key value other : String) :
    (s.putKey key value).entries.get? other
      = if key = other then some value else s.entries.get? other :=
  Table.get?_insert s.entries key other value

/-! ## The three calls -/

section Registry

variable (keys : KeySpace) {s : Rehearsal}

/-- The rehearsal after a key was removed that nobody holds. -/
def vacated (s : Rehearsal) (key : String) (notice : Notice) : Rehearsal :=
  ((s.report [notice]).deleteKey key).1

/-- A key that nobody holds is removed, with a notice. -/
lemma run_vacate (hdelete : s.keysOut .delete = false) (key : String) (notice : Notice) :
    ((registry keys).vacate key notice).run.run.run s
      = (some (.ok .vacant), s.vacated key notice) := by
  have hnote : (note notice).run.run s = (some (), s.report [notice]) := rfl
  have hremoved : ((registry keys).coordination.delete key).run.run.run (s.report [notice])
      = (some (.ok ((s.report [notice]).deleteKey key).2), s.vacated key notice) :=
    run_keyCall_ok (fun s => s.deleteKey key) (s := s.report [notice]) hdelete
  exact (run_bind (run_lift hnote) _).trans (run_bind hremoved _)

/-- Registering step by step: a missing key is vacant, one that a live process holds is left alone,
and any other is removed. -/
lemma run_register (hget : s.keysOut .get = false) (hdelete : s.keysOut .delete = false)
    (n : Node) :
    ((registry keys).register n).run.run.run s
      = match s.entries.get? (keys.nodeKey n.id) with
        | none => (some (.ok .vacant), s)
        | some value =>
          match Holder.ofValue s.live.contains value with
          | .live pid => (some (.ok (.heldBy pid)), s)
          | .dead pid =>
            (some (.ok .vacant),
              s.vacated (keys.nodeKey n.id) (.stalePresence (keys.nodeKey n.id) pid))
          | .unreadable fault =>
            (some (.ok .vacant), s.vacated (keys.nodeKey n.id)
              (.corruptPresence (keys.nodeKey n.id) value fault.message)) := by
  have hvalue : ((registry keys).coordination.get (keys.nodeKey n.id)).run.run.run s
      = (some (.ok (s.entries.get? (keys.nodeKey n.id))), s) :=
    run_keyCall_ok (fun s => (s, s.entries.get? (keys.nodeKey n.id))) hget
  have halive : (registry keys).isAlive.run.run s = (some s.live.contains, s) := rfl
  refine (run_bind hvalue _).trans ?_
  cases s.entries.get? (keys.nodeKey n.id) with
  | none => rfl
  | some value =>
      refine (run_bind (run_lift halive) _).trans ?_
      simp only []
      cases Holder.ofValue s.live.contains value with
      | live pid => rfl
      | dead pid => exact run_vacate keys hdelete _ _
      | unreadable fault => exact run_vacate keys hdelete _ _

/-- Claiming puts the process id under the key of the node, whoever held it. -/
lemma run_claim (hput : s.keysOut .put = false) (n : Node) :
    ((registry keys).claim n).run.run.run s
      = (some (.ok ()), s.putKey (keys.nodeKey n.id) (toString n.pid)) :=
  run_keyCall_ok (fun s => (s.putKey (keys.nodeKey n.id) (toString n.pid), ())) hput

/-- Releasing removes the key of the node, whoever holds it. -/
lemma run_release (hdelete : s.keysOut .delete = false) (n : Node) :
    ((registry keys).release n).run.run.run s
      = (some (.ok ()), (s.deleteKey (keys.nodeKey n.id)).1) := by
  have hremoved : ((registry keys).coordination.delete (keys.nodeKey n.id)).run.run.run s
      = (some (.ok (s.deleteKey (keys.nodeKey n.id)).2), (s.deleteKey (keys.nodeKey n.id)).1) :=
    run_keyCall_ok (fun s => s.deleteKey (keys.nodeKey n.id)) hdelete
  exact run_bind hremoved _

/-- A process holds a presence key: it is alive, and the key's value spells its id. -/
def Holds (s : Rehearsal) (key : String) (pid : Int) : Prop :=
  pid ∈ s.live ∧ ∃ value, s.entries.get? key = some value ∧ Holder.pid? value = some pid

/-- A key has at most one holder. -/
lemma Holds.unique {key : String} {p q : Int} (hp : s.Holds key p) (hq : s.Holds key q) :
    p = q := by
  obtain ⟨-, value, hvalue, hreads⟩ := hp
  obtain ⟨-, value', hvalue', hreads'⟩ := hq
  rw [hvalue] at hvalue'
  obtain rfl := Option.some.inj hvalue'
  exact Option.some.inj (hreads.symm.trans hreads')

/-- **Registering** finds who holds the key and changes nothing; or nobody holds it, and then the key
is absent afterwards, and nothing else that bears on presence has changed. -/
theorem register_cases (hworks : ∀ call, s.keysOut call = false) (n : Node) :
    (∃ pid, s.Holds (keys.nodeKey n.id) pid
        ∧ ((registry keys).register n).run.run.run s = (some (.ok (.heldBy pid)), s))
      ∨ ((∀ pid, ¬ s.Holds (keys.nodeKey n.id) pid) ∧ ∃ s',
        ((registry keys).register n).run.run.run s = (some (.ok .vacant), s')
          ∧ SameFleet s s'
          ∧ ∀ key, s'.entries.get? key
            = if keys.nodeKey n.id = key then none else s.entries.get? key) := by
  have hrun := run_register keys (hworks .get) (hworks .delete) n
  cases hvalue : s.entries.get? (keys.nodeKey n.id) with
  | none =>
      rw [hvalue] at hrun
      refine Or.inr ⟨?_, s, hrun, ⟨rfl, fun _ => rfl⟩, fun key => ?_⟩
      · rintro pid ⟨-, value, hsome, -⟩
        rw [hvalue] at hsome
        cases hsome
      · split
        · rename_i hkey
          rw [← hkey, hvalue]
        · rfl
  | some value =>
      rw [hvalue] at hrun
      dsimp only at hrun
      -- who holds the key is decided by the reading of its value
      have hholds : ∀ pid, s.Holds (keys.nodeKey n.id) pid
          ↔ Holder.ofValue s.live.contains value = .live pid := by
        intro pid
        rw [Holder.ofValue_eq_live, List.contains_iff_mem]
        constructor
        · rintro ⟨hlive, value', hsome, hreads⟩
          rw [hvalue] at hsome
          exact ⟨Option.some.inj hsome ▸ hreads, hlive⟩
        · exact fun h => ⟨h.2, value, hvalue, h.1⟩
      have hvacated : ∀ notice, SameFleet s (s.vacated (keys.nodeKey n.id) notice)
          ∧ ∀ key, (s.vacated (keys.nodeKey n.id) notice).entries.get? key
            = if keys.nodeKey n.id = key then none else s.entries.get? key := fun notice => by
        have hsame := sameFleet_deleteKey (s.report [notice]) (keys.nodeKey n.id)
        exact ⟨⟨hsame.live, hsame.keysOut⟩, get?_deleteKey (s.report [notice]) _⟩
      cases hholder : Holder.ofValue s.live.contains value with
      | live pid =>
          rw [hholder] at hrun
          exact Or.inl ⟨pid, (hholds pid).mpr hholder, hrun⟩
      | dead pid =>
          rw [hholder] at hrun
          have hnobody : ∀ p, ¬ s.Holds (keys.nodeKey n.id) p := fun p hp =>
            Holder.noConfusion (hholder.symm.trans ((hholds p).mp hp))
          exact Or.inr ⟨hnobody, _, hrun, hvacated _⟩
      | unreadable fault =>
          rw [hholder] at hrun
          have hnobody : ∀ p, ¬ s.Holds (keys.nodeKey n.id) p := fun p hp =>
            Holder.noConfusion (hholder.symm.trans ((hholds p).mp hp))
          exact Or.inr ⟨hnobody, _, hrun, hvacated _⟩

end Registry

end Rehearsal

end FleetLedger
