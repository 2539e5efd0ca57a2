import FleetLedger.Proofs.Presence

/-!
# Presence keeps workers apart

Worker processes come and go, and those that are alive register, claim and release nodes, one call
after the other.  A worker claims a node only if it was the last to make a call, and that call was to
register for the node and found nobody; it releases only what it has claimed.  A `Fleet` is what there
is at some time, with what the living workers have claimed and not released.

The invariant (`Fleet.Sound`) says that whoever has claimed a node holds its presence key, and that
the key is absent where a worker may claim.  A key has one holder at most (`Rehearsal.Holds.unique`), so
this is all that keeps workers apart: **`Fleet.exclusion`**.
-/

namespace FleetLedger

open Rehearsal

/-- Worker processes at a key-value store. -/
structure Fleet where
  world : Rehearsal
  /-- The nodes that living workers have claimed and not released, with their process ids. -/
  claims : List (String × Int) := []
  /-- The last call found nobody for this node, and was made by this process. -/
  cleared : Option (String × Int) := none

namespace Fleet

/-- What happens in a fleet.  A worker that makes a call is given by a node with its process id. -/
inductive Move where
  | register (worker : Node)
  | claim (worker : Node)
  | release (worker : Node)
  | die (pid : Int)
  | start (pid : Int)

/-- The call is about a node. -/
def Move.isAbout (id : String) : Move → Prop
  | register worker | claim worker | release worker => worker.id = id
  | die _ | start _ => False

/-- The worker that makes a call lives, and its process id is one. -/
def Acts (f : Fleet) (worker : Node) : Prop :=
  worker.pid ∈ f.world.live ∧ -2147483648 ≤ worker.pid ∧ worker.pid ≤ 2147483647

/-- Workers claim only right after they have found nobody, and release only what they have
claimed. -/
def May (f : Fleet) : Move → Prop
  | .register worker => f.Acts worker
  | .claim worker => f.Acts worker ∧ f.cleared = some (worker.id, worker.pid)
  | .release worker => f.Acts worker ∧ (worker.id, worker.pid) ∈ f.claims
  | .die _ | .start _ => True

/-- What becomes of the fleet. -/
def next (keys : KeySpace) (f : Fleet) : Move → Fleet
  | .register worker =>
    match ((registry keys).register worker).run.run.run f.world with
    | (some (.ok .vacant), world) => { f with world, cleared := some (worker.id, worker.pid) }
    | (_, world) => { f with world, cleared := none }
  | .claim worker =>
    { world := (((registry keys).claim worker).run.run.run f.world).2
      claims := (worker.id, worker.pid) :: f.claims }
  | .release worker =>
    { world := (((registry keys).release worker).run.run.run f.world).2
      claims := f.claims.filter (· ≠ (worker.id, worker.pid)) }
  | .die pid =>
    { f with
      world := ((kill pid).run.run f.world).2
      claims := f.claims.filter (·.2 ≠ pid) }
  | .start pid => { f with world := ((spawn pid).run.run f.world).2 }

/-- What a fleet can come to, from any entries and any live processes, while the store answers. -/
inductive Reachable (keys : KeySpace) : Fleet → Prop where
  | begin {world : Rehearsal} (h : ∀ call, world.keysOut call = false) : Reachable keys { world }
  | move {f : Fleet} {m : Move} (h : Reachable keys f) (hm : f.May m) : Reachable keys (f.next keys m)

/-- **The invariant**: whoever has claimed a node holds its key, and the key is absent where a worker
may claim. -/
structure Sound (keys : KeySpace) (f : Fleet) : Prop where
  works : ∀ call, f.world.keysOut call = false
  held : ∀ id pid, (id, pid) ∈ f.claims → f.world.Holds (keys.nodeKey id) pid
  cleared : ∀ id pid, f.cleared = some (id, pid) → f.world.entries.get? (keys.nodeKey id) = none

section Steps

variable {keys : KeySpace} {f : Fleet}

/-- Where no other key changes, who holds another key still does. -/
lemma holds_of_get? {s s' : Rehearsal} {key : String} {pid : Int} (h : s.Holds key pid)
    (hlive : s'.live = s.live) (hkey : s'.entries.get? key = s.entries.get? key) :
    s'.Holds key pid := by
  obtain ⟨hpid, value, hvalue, hreads⟩ := h
  exact ⟨hlive ▸ hpid, value, hkey.trans hvalue, hreads⟩

/-- Registering keeps the invariant: a key that it removes is nobody's, and absent then. -/
lemma Sound.register (h : f.Sound keys) (worker : Node) :
    (f.next keys (.register worker)).Sound keys := by
  rcases register_cases keys h.works worker with ⟨pid, -, hrun⟩
    | ⟨hnobody, s', hrun, hsame, hkeys⟩
  · rw [next, hrun]
    exact ⟨h.works, h.held, fun _ _ hcleared => by cases hcleared⟩
  · rw [next, hrun]
    refine ⟨fun call => (hsame.keysOut call).trans (h.works call), fun id pid hclaim => ?_, ?_⟩
    · -- the key that was removed is nobody's, so it is not the key of a node that is claimed
      have hheld := h.held id pid hclaim
      have hother : ¬ keys.nodeKey worker.id = keys.nodeKey id := fun hkey =>
        hnobody pid (hkey ▸ hheld)
      exact holds_of_get? hheld hsame.live ((hkeys _).trans (if_neg hother))
    · intro id pid hcleared
      obtain ⟨rfl, -⟩ := Prod.mk.inj (Option.some.inj hcleared)
      exact (hkeys _).trans (if_pos rfl)

/-- Claiming keeps the invariant: the key was absent, so no other worker has claimed the node. -/
lemma Sound.claim (h : f.Sound keys) {worker : Node} (hm : f.May (.claim worker)) :
    (f.next keys (.claim worker)).Sound keys := by
  obtain ⟨⟨hlive, hlow, hhigh⟩, hcleared⟩ := hm
  have habsent := h.cleared _ _ hcleared
  have hrun := run_claim keys (h.works .put) worker
  rw [next, hrun]
  refine ⟨h.works, fun id pid hclaim => ?_, fun _ _ hnone => by cases hnone⟩
  rcases List.mem_cons.mp hclaim with hnew | hold
  · obtain ⟨rfl, rfl⟩ := Prod.mk.inj hnew
    exact ⟨hlive, _, (get?_putKey ..).trans (if_pos rfl), Holder.pid?_toString hlow hhigh⟩
  · -- the key was absent, so nobody has claimed the node
    have hheld := h.held id pid hold
    have hother : ¬ keys.nodeKey worker.id = keys.nodeKey id := fun hkey => by
      obtain ⟨-, value, hvalue, -⟩ := hheld
      rw [← hkey, habsent] at hvalue
      cases hvalue
    exact holds_of_get? hheld rfl ((get?_putKey ..).trans (if_neg hother))

/-- Releasing keeps the invariant: the worker that has claimed the node is the only one. -/
lemma Sound.release (h : f.Sound keys) {worker : Node} (hm : f.May (.release worker)) :
    (f.next keys (.release worker)).Sound keys := by
  have hown := h.held _ _ hm.2
  have hrun := run_release keys (h.works .delete) worker
  have hsame := sameFleet_deleteKey f.world (keys.nodeKey worker.id)
  rw [next, hrun]
  refine ⟨fun call => (hsame.keysOut call).trans (h.works call), fun id pid hclaim => ?_,
    fun _ _ hnone => by cases hnone⟩
  obtain ⟨hmem, hne⟩ := List.mem_filter.mp hclaim
  have hheld := h.held id pid hmem
  -- another claim is that of another node, for its key has one holder
  have hother : ¬ keys.nodeKey worker.id = keys.nodeKey id := fun hkey => by
    have hpid : worker.pid = pid := hown.unique (hkey ▸ hheld)
    have hid := keys.nodeKey_injective hkey
    simp [hpid, hid] at hne
  exact holds_of_get? hheld hsame.live ((get?_deleteKey ..).trans (if_neg hother))

lemma Sound.die (h : f.Sound keys) (pid : Int) : (f.next keys (.die pid)).Sound keys := by
  refine ⟨h.works, fun id p hclaim => ?_, h.cleared⟩
  obtain ⟨hmem, hne⟩ := List.mem_filter.mp hclaim
  obtain ⟨hlive, hvalue⟩ := h.held id p hmem
  exact ⟨List.mem_filter.mpr ⟨hlive, by simpa using hne⟩, hvalue⟩

/-- A process that starts changes no key, and no other process. -/
lemma spawned (s : Rehearsal) (pid : Int) :
    ((spawn pid).run.run s).2.entries = s.entries
      ∧ (∀ call, ((spawn pid).run.run s).2.keysOut call = s.keysOut call)
      ∧ ∀ p ∈ s.live, p ∈ ((spawn pid).run.run s).2.live := by
  have hrun : ((spawn pid).run.run s).2
      = (if s.live.contains pid then (false, s)
          else (true, { s with live := pid :: s.live })).2 := rfl
  rw [hrun]
  split
  · exact ⟨rfl, fun _ => rfl, fun _ hp => hp⟩
  · exact ⟨rfl, fun _ => rfl, fun _ hp => List.mem_cons_of_mem pid hp⟩

/-- A start keeps the invariant, also if the process id is one that an old value spells. -/
lemma Sound.start (h : f.Sound keys) (pid : Int) : (f.next keys (.start pid)).Sound keys := by
  obtain ⟨hentries, hout, hlive⟩ := spawned f.world pid
  refine ⟨fun call => (hout call).trans (h.works call), fun id p hclaim => ?_, fun id p hcleared => ?_⟩
  · obtain ⟨hp, value, hvalue, hreads⟩ := h.held id p hclaim
    exact ⟨hlive p hp, value, (congrArg (Table.get? · _) hentries).trans hvalue, hreads⟩
  · exact (congrArg (Table.get? · _) hentries).trans (h.cleared id p hcleared)

/-- **Every move keeps the invariant.** -/
theorem Sound.next (h : f.Sound keys) {m : Move} (hm : f.May m) : (f.next keys m).Sound keys := by
  cases m with
  | register worker => exact h.register worker
  | claim worker => exact h.claim hm
  | release worker => exact h.release hm
  | die pid => exact h.die pid
  | start pid => exact h.start pid

/-- **Every fleet that can come about is sound.** -/
theorem sound_of_reachable (h : f.Reachable keys) : f.Sound keys := by
  induction h with
  | begin hworks =>
      exact ⟨hworks, fun _ _ hnone => absurd hnone List.not_mem_nil, fun _ _ hnone => by cases hnone⟩
  | move _ hm ih => exact ih.next hm

/-- **No call touches the key of another node.** -/
theorem get?_next (h : f.Sound keys) {m : Move} {id : String} (hid : ¬ m.isAbout id) :
    (f.next keys m).world.entries.get? (keys.nodeKey id)
      = f.world.entries.get? (keys.nodeKey id) := by
  have hother : ∀ {worker : Node}, ¬ worker.id = id →
      ¬ keys.nodeKey worker.id = keys.nodeKey id :=
    fun hne hkey => hne (keys.nodeKey_injective hkey)
  cases m with
  | register worker =>
      rcases register_cases keys h.works worker with ⟨pid, -, hrun⟩
        | ⟨-, s', hrun, -, hkeys⟩
      · rw [Fleet.next, hrun]
      · rw [Fleet.next, hrun]
        exact (hkeys _).trans (if_neg (hother hid))
  | claim worker =>
      rw [Fleet.next, run_claim keys (h.works .put)]
      exact (get?_putKey ..).trans (if_neg (hother hid))
  | release worker =>
      rw [Fleet.next, run_release keys (h.works .delete)]
      exact (get?_deleteKey ..).trans (if_neg (hother hid))
  | die pid => rfl
  | start pid => exact congrArg (Table.get? · _) (spawned f.world pid).1

/-- **Presence keeps workers apart.**  Let worker processes start and die at any time, and let those
that live register, claim and release any nodes, whatever the entries were in the beginning; let a
worker claim only right after its own registering found nobody, and release only what it has claimed.

Then no node is claimed by two of them.  If one has claimed a node, the value of its key spells the
process id, and whoever registers for the node is told so, which changes nothing.

Registering always comes to an answer.  If it is that nobody holds the key, the key is absent
afterwards; it is that a process holds the key exactly if the value spells its id and it lives.

And no call changes the key of another node than the one that it is about. -/
theorem exclusion (h : f.Reachable keys) :
    (∀ id p q, (id, p) ∈ f.claims → (id, q) ∈ f.claims → p = q)
      ∧ (∀ id p, (id, p) ∈ f.claims → p ∈ f.world.live
        ∧ (∃ value, f.world.entries.get? (keys.nodeKey id) = some value
          ∧ Holder.pid? value = some p)
        ∧ ∀ worker : Node, worker.id = id →
          ((registry keys).register worker).run.run.run f.world
            = (some (.ok (.heldBy p)), f.world))
      ∧ (∀ worker : Node, ∃ presence world,
        ((registry keys).register worker).run.run.run f.world = (some (.ok presence), world)
          ∧ (presence = .vacant → world.entries.get? (keys.nodeKey worker.id) = none)
          ∧ ∀ p, presence = .heldBy p
            ↔ (∃ value, f.world.entries.get? (keys.nodeKey worker.id) = some value
              ∧ Holder.pid? value = some p) ∧ p ∈ f.world.live)
      ∧ ∀ (m : Move) id, ¬ m.isAbout id →
        (f.next keys m).world.entries.get? (keys.nodeKey id)
          = f.world.entries.get? (keys.nodeKey id) := by
  have hsound := sound_of_reachable h
  refine ⟨?_, ?_, ?_, fun m id hid => get?_next hsound hid⟩
  · intro id p q hp hq
    exact (hsound.held id p hp).unique (hsound.held id q hq)
  · intro id p hp
    have hheld := hsound.held id p hp
    refine ⟨hheld.1, hheld.2, ?_⟩
    rintro worker rfl
    rcases register_cases keys hsound.works worker with ⟨q, hq, hrun⟩ | ⟨hnobody, -⟩
    · rw [hrun, hq.unique hheld]
    · exact absurd hheld (hnobody p)
  · intro worker
    rcases register_cases keys hsound.works worker with ⟨q, hq, hrun⟩
      | ⟨hnobody, s', hrun, -, hkeys⟩
    · refine ⟨.heldBy q, _, hrun, fun hvacant => Presence.noConfusion hvacant, fun p => ⟨?_, ?_⟩⟩
      · intro hp
        obtain rfl := Presence.heldBy.inj hp
        exact ⟨hq.2, hq.1⟩
      · rintro ⟨hvalue, hlive⟩
        rw [hq.unique ⟨hlive, hvalue⟩]
    · refine ⟨.vacant, s', hrun, fun _ => (hkeys _).trans (if_pos rfl), fun p => ⟨?_, ?_⟩⟩
      · intro hp
        cases hp
      · rintro ⟨hvalue, hlive⟩
        exact absurd ⟨hlive, hvalue⟩ (hnobody p)

end Steps

/-- A worker of node `a`. -/
def workerOf (pid : Int) : Node := { id := "a", pid, ip := "10.0.0.1", hostname := "alpha" }

/-- Two live processes, and the key of node `a` left behind by one that has died. -/
def crashed : Fleet where
  world := {
    now := { millis := 172800000 }
    entries := [("/jobwatch/node/a", " 5\n")]
    live := [7, -9] }

theorem exclusion_crashed :
    let f := (crashed.next {} (.register (workerOf (-9)))).next {} (.claim (workerOf (-9)))
    f.Reachable {}
      ∧ ((registry {}).register (workerOf 7)).run.run.run f.world
        = (some (.ok (.heldBy (-9))), f.world) := by
  intro f
  have hworks : ∀ call, crashed.world.keysOut call = false := by
    intro call
    cases call <;> rfl
  have hregister : crashed.May (.register (workerOf (-9))) := by
    refine ⟨?_, ?_, ?_⟩ <;> decide
  have hclaim : (crashed.next {} (.register (workerOf (-9)))).May (.claim (workerOf (-9))) := by
    refine ⟨⟨?_, ?_, ?_⟩, ?_⟩ <;> decide +kernel
  have hreachable : f.Reachable {} := ((Reachable.begin hworks).move hregister).move hclaim
  obtain ⟨-, hclaims, -⟩ := exclusion hreachable
  exact ⟨hreachable, (hclaims "a" (-9) (by decide +kernel)).2.2 (workerOf 7) rfl⟩

end Fleet

end FleetLedger
