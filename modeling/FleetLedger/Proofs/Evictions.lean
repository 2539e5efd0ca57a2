import Mathlib.Data.List.Basic
import Mathlib.Logic.Function.Basic
import FleetLedger.Proofs.NodeRows
import FleetLedger.Proofs.Operations
import FleetLedger.Proofs.Presence

/-!
# Workers that start at the same time

Registering is not one call: the presence key is read first and removed later.  A `Program` is the
tree of the calls that are still to be made, so that the calls of several workers can be
interleaved, and `Race` is what there is while workers of one node start: each step makes the next
call of one of them, on the entries as they are then.

Nothing holds the two calls together, so the key may have changed in between.  `Race.removed_between`
says exactly what is removed then: what was read was nobody's, and what is removed is a live
process's exactly if some worker has claimed the node since.  That can happen: two workers read the
same stale key, the first claims the node, and the second removes the claim.
-/

namespace FleetLedger

/-! ## Programs -/

/-- The calls on the key-value store that are still to be made; what is next may depend on the
answer. -/
inductive Program (α : Type) where
  | done (a : α)
  | get (key : String) (next : Option String → Program α)
  | put (key value : String) (next : Program α)
  | delete (key : String) (next : Nat → Program α)

namespace Program

/-- One program after the other. -/
def andThen {α β : Type} : Program α → (α → Program β) → Program β
  | done a, f => f a
  | get key next, f => get key fun value => (next value).andThen f
  | put key value next, f => put key value (next.andThen f)
  | delete key next, f => delete key fun n => (next n).andThen f

instance : Monad Program where
  pure := done
  bind := andThen

/-- The key-value store, as far as programs use it. -/
def coordination : Coordination Program Unit where
  get key := ExceptT.mk (get key fun value => done (.ok value))
  scan _ := throw .refused
  put key value := ExceptT.mk (put key value (done (.ok ())))
  delete key := ExceptT.mk (delete key fun n => done (.ok n))
  watch _ := throw .refused

variable {α β : Type}

lemma run_get (key : String) (f : Option String → ExceptT Error Program β) :
    (coordination.get key >>= f).run = .get key fun value? => (f value?).run := rfl

lemma run_delete (key : String) (f : Nat → ExceptT Error Program β) :
    (coordination.delete key >>= f).run = .delete key fun n => (f n).run := rfl

lemma run_pure (a : α) (f : α → ExceptT Error Program β) :
    (liftM (pure a : Program α) >>= f).run = (f a).run := rfl

end Program

/-- The registry that workers announce themselves with. -/
def Registry.ofPrograms (keys : KeySpace) (isAlive : Int → Bool) : Registry Program Unit where
  keys := keys
  coordination := Program.coordination
  documents := .refusing .refused
  note _ := pure ()
  now := pure { millis := 3600000 }
  isAlive := pure isAlive

/-- A worker registers, and claims the node if it has found nobody. -/
def Registry.startUp {m : Type → Type} {Stream : Type} [Monad m] (r : Registry m Stream)
    (n : Node) : ExceptT Error m Unit := do
  if (← r.register n) = .vacant then r.claim n

/-- The value of a presence key spells the id of a live process. -/
def Holder.IsLive (isAlive : Int → Bool) (value : String) : Prop :=
  ∃ pid, Holder.pid? value = some pid ∧ isAlive pid = true

/-- A value is a live process's if its holder is found to live. -/
lemma Holder.isLive_iff {isAlive : Int → Bool} {value : String} :
    IsLive isAlive value ↔ ∃ pid, ofValue isAlive value = .live pid := by
  simp only [IsLive, ofValue_eq_live]

namespace Race

section StartUp

variable (keys : KeySpace) (isAlive : Int → Bool) (n : Node)

/-- What is left of starting up. -/
abbrev Rest := Program (Except Error Unit)

/-- The claim. -/
def claiming : Rest := .put (keys.nodeKey n.id) (toString n.pid) (.done (.ok ()))

/-- The removal of a key that was nobody's when it was read, and then the claim. -/
def vacating : Rest := .delete (keys.nodeKey n.id) fun _ => claiming keys n

/-- All of it. -/
def startingUp : Rest := ((Registry.ofPrograms keys isAlive).startUp n).run

/-- What follows on the value that was read. -/
def deciding : Option String → Rest
  | none => claiming keys n
  | some value =>
    match Holder.ofValue isAlive value with
    | .live _ => .done (.ok ())
    | _ => vacating keys n

/-- What registering comes to on the value that was read. -/
def answering : Option String → Program (Except Error Presence)
  | none => .done (.ok .vacant)
  | some value =>
    match Holder.ofValue isAlive value with
    | .live pid => .done (.ok (.heldBy pid))
    | _ => .delete (keys.nodeKey n.id) fun _ => .done (.ok .vacant)

/-- Vacating a key removes it, whatever is under it by then. -/
lemma vacate_eq (key : String) (notice : Notice) :
    ((Registry.ofPrograms keys isAlive).vacate key notice).run
      = .delete key fun _ => .done (.ok .vacant) :=
  (Program.run_pure () _).trans (Program.run_delete key _)

/-- Registering reads the key, and decides on what was read. -/
lemma register_eq :
    ((Registry.ofPrograms keys isAlive).register n).run
      = .get (keys.nodeKey n.id) (answering keys isAlive n) := by
  refine (Program.run_get _ _).trans (congrArg (Program.get _) (funext fun value? => ?_))
  cases value? with
  | none => rfl
  | some value =>
      refine (Program.run_pure isAlive _).trans ?_
      dsimp only [answering]
      cases Holder.ofValue isAlive value with
      | live pid => rfl
      | dead pid => exact vacate_eq keys isAlive _ _
      | unreadable fault => exact vacate_eq keys isAlive _ _

/-- **The calls of starting up**: the key is read, and then it is decided. -/
theorem startingUp_eq :
    startingUp keys isAlive n = .get (keys.nodeKey n.id) (deciding keys isAlive n) := by
  have hrun : startingUp keys isAlive n
      = ((Registry.ofPrograms keys isAlive).register n).run.andThen (ExceptT.bindCont fun p =>
        if p = .vacant then (Registry.ofPrograms keys isAlive).claim n else pure ()) := rfl
  rw [hrun, register_eq]
  refine congrArg (Program.get (keys.nodeKey n.id)) (funext fun value? => ?_)
  cases value? with
  | none => rfl
  | some value =>
      dsimp only [answering, deciding]
      cases Holder.ofValue isAlive value <;> rfl

end StartUp

/-! ## The race -/

/-- A call that was made, with what it found under the key. -/
inductive Call where
  | read (key : String) (value? : Option String)
  | wrote (key value : String)
  | removed (key : String) (value? : Option String)
  deriving DecidableEq

end Race

/-- Workers that start at the same time: the entries, the calls that each worker has still to make,
and the calls that were made. -/
structure Race (ι : Type) where
  entries : Entries
  rest : ι → Race.Rest
  history : List (ι × Race.Call) := []

namespace Race

variable {ι : Type} [DecidableEq ι]

/-- A worker makes its next call. -/
def step (r : Race ι) (i : ι) : Race ι :=
  match r.rest i with
  | .done _ => r
  | .get key next =>
    { r with
      rest := Function.update r.rest i (next (r.entries.get? key))
      history := r.history ++ [(i, .read key (r.entries.get? key))] }
  | .put key value next =>
    { entries := (r.entries.put key value).1
      rest := Function.update r.rest i next
      history := r.history ++ [(i, .wrote key value)] }
  | .delete key next =>
    { entries := (r.entries.delete key).1
      rest := Function.update r.rest i (next (r.entries.delete key).2.toList.length)
      history := r.history ++ [(i, .removed key (r.entries.get? key))] }

/-- The race after calls were made in some order. -/
def after (r : Race ι) (schedule : List ι) : Race ι := schedule.foldl step r

/-- All workers are about to start. -/
def starting (keys : KeySpace) (isAlive : Int → Bool) (worker : ι → Worker) (entries : Entries) :
    Race ι where
  entries := entries
  rest i := startingUp keys isAlive (worker i).toNode

/-! ## What is removed -/

/-- **A worker has read a value that was nobody's**, and since then the key has a live process's
value, if it has any, exactly if some worker has written one. -/
def Pending (isAlive : Int → Bool) (key : String) (history : List (ι × Call)) (i : ι)
    (now? : Option String) : Prop :=
  ∃ value earlier between, history = earlier ++ (i, .read key (some value)) :: between
    ∧ ¬ Holder.IsLive isAlive value
    ∧ ∀ v, now? = some v →
      (Holder.IsLive isAlive v ↔ ∃ j text, (j, Call.wrote key text) ∈ between)

section Steps

variable {keys : KeySpace} {isAlive : Int → Bool} {key id : String} {worker : ι → Worker} {i j : ι}
  {history : List (ι × Call)} {now? : Option String}

omit [DecidableEq ι] in
/-- A call that changes nothing, or that leaves the key absent. -/
lemma Pending.append (h : Pending isAlive key history j now?) {c : Call}
    (hc : ∀ text, c ≠ .wrote key text) {now'? : Option String}
    (hnow : ∀ v, now'? = some v → now? = some v) :
    Pending isAlive key (history ++ [(i, c)]) j now'? := by
  obtain ⟨value, earlier, between, rfl, hstale, hlive⟩ := h
  refine ⟨value, earlier, between ++ [(i, c)], by simp, hstale, fun v hv => ?_⟩
  rw [hlive v (hnow v hv)]
  have hlast : ∀ k text, (k, Call.wrote key text) ≠ (i, c) := fun k text he =>
    hc text (Prod.mk.inj he).2.symm
  simp [hlast]

omit [DecidableEq ι] in
/-- A claim puts a live process's value under the key. -/
lemma Pending.claimed (h : Pending isAlive key history j now?) {text : String}
    (htext : Holder.IsLive isAlive text) :
    Pending isAlive key (history ++ [(i, .wrote key text)]) j (some text) := by
  obtain ⟨value, earlier, between, rfl, hstale, -⟩ := h
  refine ⟨value, earlier, between ++ [(i, .wrote key text)], by simp, hstale, fun v hv => ?_⟩
  obtain rfl := Option.some.inj hv
  exact ⟨fun _ => ⟨i, text, by simp⟩, fun _ => htext⟩

/-- How far a worker is that starts. -/
inductive Stage (keys : KeySpace) (isAlive : Int → Bool) (n : Node) (pending : Prop) :
    Rest → Prop where
  | starting : Stage keys isAlive n pending (startingUp keys isAlive n)
  | vacating (h : pending) : Stage keys isAlive n pending (vacating keys n)
  | claiming : Stage keys isAlive n pending (claiming keys n)
  | done : Stage keys isAlive n pending (.done (.ok ()))

omit [DecidableEq ι] in
lemma Stage.imp {n : Node} {p q : Prop} {rest : Rest} (h : Stage keys isAlive n p rest)
    (hpq : p → q) : Stage keys isAlive n q rest := by
  cases h with
  | starting => exact .starting
  | vacating hp => exact .vacating (hpq hp)
  | claiming => exact .claiming
  | done => exact .done

/-- **The invariant**: who is about to remove the key has read a value that was nobody's, and so had
everybody who removed it. -/
structure Sound (keys : KeySpace) (isAlive : Int → Bool) (id : String) (worker : ι → Worker)
    (r : Race ι) : Prop where
  stages : ∀ i, Stage keys isAlive (worker i).toNode
    (Pending isAlive (keys.nodeKey id) r.history i (r.entries.get? (keys.nodeKey id))) (r.rest i)
  removals : ∀ before i v after,
    r.history = before ++ (i, .removed (keys.nodeKey id) (some v)) :: after →
      Pending isAlive (keys.nodeKey id) before i (some v)

/-- After a call everything depends on the worker that made it. -/
lemma Sound.made {r : Race ι} (h : Sound keys isAlive id worker r) {c : Call} {entries : Entries}
    {rest : Rest}
    (hothers : ∀ j,
      Pending isAlive (keys.nodeKey id) r.history j (r.entries.get? (keys.nodeKey id)) →
      Pending isAlive (keys.nodeKey id) (r.history ++ [(i, c)]) j (entries.get? (keys.nodeKey id)))
    (hstage : Stage keys isAlive (worker i).toNode
      (Pending isAlive (keys.nodeKey id) (r.history ++ [(i, c)]) i (entries.get? (keys.nodeKey id)))
      rest)
    (hremoved : ∀ v, c = .removed (keys.nodeKey id) (some v) →
      Pending isAlive (keys.nodeKey id) r.history i (some v)) :
    Sound keys isAlive id worker
      { entries, rest := Function.update r.rest i rest, history := r.history ++ [(i, c)] } := by
  refine ⟨fun j => ?_, fun before j v after hsplit => ?_⟩
  · by_cases hj : j = i
    · subst hj
      simpa only [Function.update_self] using hstage
    · simpa only [Function.update_of_ne hj] using (h.stages j).imp (hothers j)
  · -- the removal is the last call, or it was made before
    rcases List.eq_nil_or_concat after with rfl | ⟨after, last, rfl⟩
    · obtain ⟨rfl, hlast⟩ := List.append_inj' hsplit rfl
      obtain ⟨rfl, rfl⟩ := Prod.mk.inj (List.singleton_inj.mp hlast)
      exact hremoved v rfl
    · have hsplit : r.history ++ [(i, c)]
          = (before ++ (j, .removed (keys.nodeKey id) (some v)) :: after) ++ [last] := by
        simpa using hsplit
      exact h.removals before j v after (List.append_inj' hsplit rfl).1

lemma get?_delete (entries : Entries) (key : String) :
    (entries.delete key).1.get? key = none := by
  rw [Entries.delete]
  split
  · exact (Table.get?_erase ..).trans (if_pos rfl)
  · rename_i h
    simpa [Table.contains] using h

variable (hid : ∀ i, (worker i).id = id) (halive : ∀ i, isAlive (worker i).pid = true)
include hid halive

/-- **Every call keeps the invariant.** -/
theorem Sound.step {r : Race ι} (h : Sound keys isAlive id worker r) (i : ι) :
    Sound keys isAlive id worker (r.step i) := by
  have hkey : keys.nodeKey (worker i).id = keys.nodeKey id := congrArg keys.nodeKey (hid i)
  have hstage := h.stages i
  generalize hrest : r.rest i = rest at hstage
  cases hstage with
  | starting =>
      rw [startingUp_eq, hkey] at hrest
      simp only [Race.step, hrest]
      refine h.made (fun j hj => hj.append (by simp) fun _ hv => hv) ?_ (by simp)
      cases hvalue : r.entries.get? (keys.nodeKey id) with
      | none => exact .claiming
      | some value =>
          have hread : ∀ v, some value = some v → v = value := fun _ he => (Option.some.inj he).symm
          have hpending : ¬ Holder.IsLive isAlive value →
              Pending isAlive (keys.nodeKey id)
                (r.history ++ [(i, .read (keys.nodeKey id) (some value))]) i (some value) :=
            fun hstale =>
              ⟨value, r.history, [], rfl, hstale, fun v hv => by simp [hread v hv, hstale]⟩
          rw [Holder.isLive_iff] at hpending
          dsimp only [deciding]
          cases hholder : Holder.ofValue isAlive value with
          | live pid => exact .done
          | dead pid => exact .vacating (hpending (by simp [hholder]))
          | unreadable fault => exact .vacating (hpending (by simp [hholder]))
  | vacating hpending =>
      rw [vacating, hkey] at hrest
      simp only [Race.step, hrest]
      have habsent := get?_delete r.entries (keys.nodeKey id)
      refine h.made (fun j hj => ?_) .claiming fun v hv => ?_
      · rw [habsent]
        exact hj.append (by simp) (by simp)
      · obtain ⟨-, hv⟩ := Call.removed.inj hv
        exact hv ▸ hpending
  | claiming =>
      rw [claiming, hkey] at hrest
      simp only [Race.step, hrest]
      have hwritten : (r.entries.put (keys.nodeKey id) (toString (worker i).pid)).1.get?
          (keys.nodeKey id) = some (toString (worker i).pid) :=
        (Table.get?_insert ..).trans (if_pos rfl)
      have hlive : Holder.IsLive isAlive (toString (worker i).pid) :=
        ⟨_, Holder.pid?_toString (worker i).pid_bounds.1 (worker i).pid_bounds.2, halive i⟩
      refine h.made (fun j hj => ?_) .done (by simp)
      rw [hwritten]
      exact hj.claimed hlive
  | done =>
      simp only [Race.step, hrest]
      exact h

lemma Sound.after {r : Race ι} (h : Sound keys isAlive id worker r) (schedule : List ι) :
    Sound keys isAlive id worker (r.after schedule) := by
  induction schedule generalizing r with
  | nil => exact h
  | cons i schedule ih => exact ih (h.step hid halive i)

/-- **What is removed when workers of one node start at the same time**, in whatever order their
calls are made and whatever is under the key in the beginning.  Whoever removes a value has read one
before that was nobody's.  What is removed is the process id of a live process exactly if some
worker has claimed the node between the two. -/
theorem removed_between (entries : Entries) (schedule : List ι)
    {before after : List (ι × Call)} {i : ι} {v : String}
    (h : ((starting keys isAlive worker entries).after schedule).history
      = before ++ (i, .removed (keys.nodeKey id) (some v)) :: after) :
    ∃ value earlier between,
      before = earlier ++ (i, .read (keys.nodeKey id) (some value)) :: between
      ∧ ¬ Holder.IsLive isAlive value
      ∧ (Holder.IsLive isAlive v ↔ ∃ j text, (j, Call.wrote (keys.nodeKey id) text) ∈ between) := by
  have hbegin : Sound keys isAlive id worker (starting keys isAlive worker entries) :=
    ⟨fun _ => .starting, fun before _ _ _ hnone => by cases before <;> cases hnone⟩
  have hsound := hbegin.after hid halive schedule
  obtain ⟨value, earlier, between, hbefore, hstale, hlive⟩ := hsound.removals before i v after h
  exact ⟨value, earlier, between, hbefore, hstale, hlive v rfl⟩

end Steps

/-! ## Two workers -/

/-- Two live processes of one node. -/
def twin (second : Bool) : Worker where
  id := "n1"
  pid := if second then 8 else 7
  ip := "10.0.0.1"
  hostname := "alpha"
  pid_bounds := by cases second <;> decide

/-- Both of them are alive. -/
def twinsAlive (pid : Int) : Bool := pid = 7 || pid = 8

/-- They find a key that a dead process has left behind. -/
def twins : Race Bool := starting {} twinsAlive twin [("/jobwatch/node/n1", "5")]

/-- What they do if the second has read the key before the first removes it and claims the node. -/
def overtaken : List (Bool × Call) :=
  [(false, .read "/jobwatch/node/n1" (some "5")), (true, .read "/jobwatch/node/n1" (some "5")),
    (false, .removed "/jobwatch/node/n1" (some "5")), (false, .wrote "/jobwatch/node/n1" "7")]

/-- The first of two workers claims the node between the calls of the second, which then removes the
claim. -/
lemma history_twins : (twins.after [false, true, false, false, true]).history
    = overtaken ++ [(true, .removed (KeySpace.nodeKey {} "n1") (some "7"))] := by
  decide +kernel

/-- What was read was nobody's, and what was removed is a live process's. -/
theorem removed_between_twins :
    (∀ second, (twin second).id = "n1") ∧ (∀ second, twinsAlive (twin second).pid = true)
      ∧ ∃ value earlier between,
        overtaken = earlier ++ (true, .read (KeySpace.nodeKey {} "n1") (some value)) :: between
          ∧ ¬ Holder.IsLive twinsAlive value
          ∧ (Holder.IsLive twinsAlive "7"
            ↔ ∃ j text, (j, Call.wrote (KeySpace.nodeKey {} "n1") text) ∈ between) := by
  have hid : ∀ second, (twin second).id = "n1" := fun _ => rfl
  have halive : ∀ second, twinsAlive (twin second).pid = true := by decide
  exact ⟨hid, halive, removed_between hid halive _ _ history_twins⟩

/-- **A live holder can be evicted**: what a worker removes that was told nobody holds the key need
not be nobody's. -/
theorem evicts_live_holder :
    ¬ ∀ (schedule : List Bool) (before after : List (Bool × Call)) (second : Bool) (v : String),
      (twins.after schedule).history
          = before ++ (second, .removed (KeySpace.nodeKey {} "n1") (some v)) :: after →
        ¬ Holder.IsLive twinsAlive v := by
  intro hnever
  have hseven : Holder.pid? "7" = some 7 := by decide +kernel
  exact hnever _ _ _ _ _ history_twins ⟨7, hseven, rfl⟩

end Race

end FleetLedger
