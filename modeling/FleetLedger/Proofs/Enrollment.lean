import FleetLedger.Proofs.NodeRows
import FleetLedger.Proofs.Presence
import FleetLedger.Proofs.Tables

/-!
# The roster through a run

Workers start and stop, claim and release presence keys, and identities are removed, in any order,
with any clock, and with upserts that are out at times.  What the roster should say of an id is told
without any store: who was last written under the id, unless it was removed since (`identity?`).

`Mirrored` is what is true of a rehearsal all along: the roster is a list of workers with different
ids, written out as documents.  Each `Deed` amends that list or leaves it alone
(`Mirrored.perform`), so after a run one finds under each id what should be there:
**`mirrored_after`**.
-/

namespace FleetLedger

/-- What becomes of a worker that starts: it is alive, of this version, and up since that time.
Nothing else about it changes, and when it went down last is not forgotten. -/
def Worker.started (w : Worker) (t : Timestamp) : Worker where
  id := w.id
  pid := w.pid
  ip := w.ip
  hostname := w.hostname
  version := Registry.version
  upTime := some t
  downTime := w.downTime
  alive := true
  connected := w.connected
  pid_bounds := w.pid_bounds

/-- What becomes of a worker that stops: it is not alive, and down since that time.  Nothing else
about it changes, neither its version nor when it came up. -/
def Worker.stopped (w : Worker) (t : Timestamp) : Worker where
  id := w.id
  pid := w.pid
  ip := w.ip
  hostname := w.hostname
  version := w.version
  upTime := w.upTime
  downTime := some t
  alive := false
  connected := w.connected
  pid_bounds := w.pid_bounds

namespace Rehearsal

/-! ## Calls of the document store -/

/-- A call to a store that is out is refused; otherwise it is carried out, and what it reports is
kept. -/
lemma run_storeCall {α : Type} (call : StoreCall) (collection : String)
    (notices : Memory → List Notice) (action : ExceptT Error (StateM Memory) α) (s : Rehearsal) :
    (storeCall call collection notices action).run.run.run s
      = if s.isOut call collection then (some (.error .refused), s)
        else
          (some (action.run.run s.documents).1,
            { s with documents := (action.run.run s.documents).2 }.report
              (notices s.documents)) := by
  have hanswer : (storeCall call collection notices action).run.run.run s
      = (fun x : Except Error α × Rehearsal => (some x.1, x.2))
        (if s.isOut call collection then (.error .refused, s)
          else
            ((action.run.run s.documents).1,
              { s with documents := (action.run.run s.documents).2 }.report
                (notices s.documents))) := rfl
  rw [hanswer]
  split <;> rfl

/-- A removal that takes no time. -/
lemma run_slowly {s : Rehearsal} (hprompt : s.removalTime = 0) {collection : String}
    (hout : s.isOut .deleteMany collection = false) (f : Filter) :
    (slowly collection f).run.run.run s
      = (some (.ok (s.documents.deleteMany collection f).2),
        { s with
          removals := s.removals + 1
          documents := (s.documents.deleteMany collection f).1 }.report
            (s.documents.changeNotices collection f)) := by
  have hanswer : (slowly collection f).run.run.run s
      = (fun x : Rehearsal × Outcome Nat => (some x.2, x.1))
        (({ s with removals := s.removals + 1 }.wait s.removalTime).remove collection f) := rfl
  have hout' : isOut { s with removals := s.removals + 1 } .deleteMany collection = false := hout
  have hwait : { s with removals := s.removals + 1 }.wait s.removalTime
      = { s with removals := s.removals + 1 } := if_pos hprompt
  rw [hanswer, hwait, remove, hout', if_neg Bool.false_ne_true]

/-- A removed key changes the entries and what is on its way to watches. -/
lemma deleteKey_eq (s : Rehearsal) (key : String) :
    ∃ watches, (s.deleteKey key).1
      = { s with entries := (s.entries.delete key).1, watches := watches } := by
  cases h : s.entries.contains key with
  | true =>
      rw [deleteKey, Entries.delete, if_pos h]
      exact ⟨_, rfl⟩
  | false =>
      rw [deleteKey, Entries.delete, if_neg (ne_true_of_eq_false h)]
      exact ⟨s.watches, rfl⟩

lemma sorted_delete {entries : Entries} (h : Table.Sorted entries) (key : String) :
    Table.Sorted (entries.delete key).1 := by
  rw [Entries.delete]
  split
  · exact List.Pairwise.filter _ h
  · exact h

/-! ## Marks -/

section Registry

variable (keys : KeySpace) (s : Rehearsal)

lemma run_today : today.run.run s = (s.now.shown?, s) := by
  have hget : (get : Action Rehearsal).run.run s = (some s, s) := rfl
  refine (run_andThen hget _).trans ?_
  cases s.now.shown? <;> rfl

/-- The rehearsal after a node was to be written into the roster. -/
def enrolling (n : Node) : Rehearsal :=
  if s.isOut .upsert Roster.collection then
    s.report [.rosterFailed Error.refused.message n.id n.alive]
  else
    { s with
      documents := s.documents.upsert Roster.collection (Roster.ofId n.id)
        (.set (Roster.entry n)) }.report []

/-- Enrolling a node never fails: where the store is out it is left at that. -/
lemma run_enroll (n : Node) :
    ((registry keys).enroll n).run.run s = (some (), s.enrolling n) := by
  have hcall := run_storeCall .upsert Roster.collection (fun _ => (Roster.ofId n.id).notices)
    (Memory.store.upsert Roster.collection (Roster.ofId n.id) (.set (Roster.entry n))) s
  rw [enrolling]
  split
  · rename_i hout
    rw [if_pos hout] at hcall
    exact run_andThen hcall _
  · rename_i hout
    rw [if_neg hout] at hcall
    exact run_andThen hcall _

/-- A mark is set with the time that the clock shows, and the node is enrolled with it.  Where the clock
cannot be read it is broken off before that. -/
lemma run_marking (mark : Timestamp → Node) :
    (today >>= fun t => (registry keys).enroll (mark t) >>= fun _ => pure (mark t)).run.run s
      = (s.now.shown?.map mark, (s.now.shown?.map mark).elim s s.enrolling) := by
  have hclock := run_today s
  cases hshown : s.now.shown? with
  | none =>
      rw [hshown] at hclock
      exact run_brokenOff hclock _
  | some t =>
      rw [hshown] at hclock
      exact (run_andThen hclock _).trans (run_andThen (run_enroll keys s _) _)

/-- **A worker that starts is flagged**, whatever comes of writing it into the roster. -/
theorem run_markStarted (n : Node) :
    ((registry keys).markStarted n).run.run s
      = (s.now.shown?.map (Registry.started n),
        (s.now.shown?.map (Registry.started n)).elim s s.enrolling) :=
  run_marking keys s (Registry.started n)

/-- **A worker that stops is flagged**, too. -/
theorem run_markStopped (n : Node) :
    ((registry keys).markStopped n).run.run s
      = (s.now.shown?.map (Registry.stopped n),
        (s.now.shown?.map (Registry.stopped n)).elim s s.enrolling) :=
  run_marking keys s (Registry.stopped n)

end Registry

/-! ## Deeds -/

/-- What workers do that bears on the roster or on presence.  A worker starts or stops at some time,
and the upserts of the document store may be out then. -/
inductive Deed where
  | start (worker : Worker) (clock : Timestamp) (out : Bool)
  | stop (worker : Worker) (clock : Timestamp) (out : Bool)
  | claim (node : Node)
  | release (node : Node)
  | remove (id : String)

/-- A rehearsal at a time when upserts are out, or nothing is. -/
def during (s : Rehearsal) (clock : Timestamp) (out : Bool) : Rehearsal :=
  { s with now := clock, outages := if out then [.documents .upsert none] else [] }

namespace Deed

/-- The rehearsal after a deed. -/
def perform (keys : KeySpace) (s : Rehearsal) : Deed → Rehearsal
  | start w clock out => (((registry keys).markStarted w.toNode).run.run (s.during clock out)).2
  | stop w clock out => (((registry keys).markStopped w.toNode).run.run (s.during clock out)).2
  | claim n => (((registry keys).claim n).run.run.run s).2
  | release n => (((registry keys).release n).run.run.run s).2
  | remove id => (((registry keys).remove id).run.run.run s).2

/-- Who is written into the roster; nobody while upserts are out, or where the clock cannot be
read. -/
def written? : Deed → Option Worker
  | start w clock out => if out then none else clock.shown?.map w.started
  | stop w clock out => if out then none else clock.shown?.map w.stopped
  | _ => none

/-- Who is known under an id after a deed. -/
def known (id : String) (before : Option Worker) : Deed → Option Worker
  | remove other => if other = id then none else before
  | d => d.written?.elim before fun w => if w.id = id then some w else before

/-- The workers in the roster after a deed. -/
def amended (workers : List Worker) : Deed → List Worker
  | remove id => workers.filter (·.id ≠ id)
  | d => d.written?.elim workers fun w => Roster.enrolled w workers

end Deed

/-- The rehearsal after some deeds. -/
def afterDeeds (keys : KeySpace) (s : Rehearsal) (deeds : List Deed) : Rehearsal :=
  deeds.foldl (Deed.perform keys) s

/-- **The identity known under an id**: that of the last worker that was written under it, unless it
was removed since. -/
def identity? (id : String) (deeds : List Deed) : Option Worker := deeds.foldl (Deed.known id) none

/-! ## The invariant -/

/-- Nothing is out but upserts, removals take no time, and the entries are in the order of their
keys. -/
structure Serving (s : Rehearsal) : Prop where
  keys : ∀ call, s.keysOut call = false
  documents : ∀ call collection, call ≠ .upsert → s.isOut call collection = false
  prompt : s.removalTime = 0
  entries : Table.Sorted s.entries

/-- **The invariant**: the roster is a list of workers with different ids, written out. -/
structure Mirrored (workers : List Worker) (s : Rehearsal) : Prop extends Serving s where
  rows : s.documents.rows Roster.collection = workers.map Roster.row
  ids : (workers.map fun w => w.id).Nodup

section Steps

variable {keys : KeySpace} {s : Rehearsal} {workers : List Worker}

/-- Neither the time nor the store of documents bears on the keys. -/
lemma Serving.during (h : Serving s) (clock : Timestamp) (out : Bool) :
    Serving (s.during clock out) := by
  have hgone : s.keysGone = false := by
    have := h.keys .get
    rw [keysOut, Bool.or_eq_false_iff] at this
    exact this.1
  refine ⟨fun call => ?_, fun call collection hcall => ?_, h.prompt, h.entries⟩
  · cases out <;> simp [Rehearsal.during, keysOut, hgone]
  · cases out <;> simp [Rehearsal.during, isOut, Ne.symm hcall]

/-- A mark that is written amends the roster; one that is not leaves it alone. -/
lemma Mirrored.enrolling (h : Mirrored workers s) (w : Worker) :
    Mirrored (if s.isOut .upsert Roster.collection then workers else Roster.enrolled w workers)
      (s.enrolling w.toNode) := by
  rw [Rehearsal.enrolling]
  split
  · exact ⟨⟨h.keys, h.documents, h.prompt, h.entries⟩, h.rows, h.ids⟩
  · refine ⟨⟨h.keys, h.documents, h.prompt, h.entries⟩, ?_, ?_⟩
    · have hrows := Memory.rows_upsert s.documents Roster.collection Roster.collection
        (Roster.ofId w.id) (.set (Roster.entry w.toNode))
      rw [if_pos rfl, h.rows, Roster.upsertRows_entry] at hrows
      exact hrows
    · exact nodup_amend (fun _ _ => rfl) rfl h.ids

lemma isOut_during (clock : Timestamp) (out : Bool) :
    (s.during clock out).isOut .upsert Roster.collection = out := by
  cases out <;> rfl

lemma Mirrored.during (h : Mirrored workers s) (clock : Timestamp) (out : Bool) :
    Mirrored workers (s.during clock out) :=
  ⟨h.toServing.during clock out, h.rows, h.ids⟩

/-- The invariant after a mark, which depends on the clock. -/
lemma Mirrored.marked (h : Mirrored workers s) (clock : Timestamp) (out : Bool)
    (mark : Timestamp → Worker) :
    Mirrored
      ((if out then none else clock.shown?.map mark).elim workers
        fun w => Roster.enrolled w workers)
      ((clock.shown?.map fun t => (mark t).toNode).elim (s.during clock out)
        (s.during clock out).enrolling) := by
  have hduring := h.during clock out
  cases clock.shown? with
  | none => cases out <;> exact hduring
  | some t =>
      have hwritten := hduring.enrolling (mark t)
      rw [isOut_during] at hwritten
      cases out <;> exact hwritten

/-- Removing a key leaves the roster alone. -/
lemma Mirrored.deleteKey (h : Mirrored workers s) (key : String) :
    Mirrored workers (s.deleteKey key).1 := by
  obtain ⟨watches, hdeleted⟩ := deleteKey_eq s key
  rw [hdeleted]
  exact ⟨⟨h.keys, h.documents, h.prompt, sorted_delete h.entries key⟩, h.rows, h.ids⟩

/-- Removing an id removes its row and no other. -/
lemma Mirrored.remove (h : Mirrored workers s) (id : String) :
    Mirrored (workers.filter (·.id ≠ id)) (Deed.perform keys s (.remove id)) := by
  have hkey : ((registry keys).coordination.delete (keys.nodeKey id)).run.run.run s
      = (some (.ok (s.deleteKey (keys.nodeKey id)).2), (s.deleteKey (keys.nodeKey id)).1) :=
    run_keyCall_ok (fun s => s.deleteKey (keys.nodeKey id)) (h.keys .delete)
  have hmirrored := h.deleteKey (keys.nodeKey id)
  generalize hs : (s.deleteKey (keys.nodeKey id)).1 = s' at hkey hmirrored
  have hrow := run_slowly hmirrored.prompt
    (hmirrored.documents .deleteMany Roster.collection (by decide)) (Roster.ofId id)
  have hrun : ((registry keys).remove id).run.run.run s = _ :=
    (run_bind hkey _).trans (run_bind hrow _)
  rw [Deed.perform, hrun]
  refine ⟨⟨hmirrored.keys, hmirrored.documents, hmirrored.prompt, hmirrored.entries⟩, ?_, ?_⟩
  · have hrows := Memory.rows_deleteMany s'.documents Roster.collection Roster.collection
      (Roster.ofId id)
    rw [if_pos rfl, hmirrored.rows, List.filter_map] at hrows
    refine hrows.trans (congrArg (List.map Roster.row) (List.filter_congr fun w _ => ?_))
    have hholds : (Roster.ofId id).holds (Roster.row w) = decide (w.id = id) :=
      Roster.holds_ofId_entry id w.toNode
    rw [Function.comp_apply, hholds, decide_not]
  · exact hmirrored.ids.sublist (List.filter_sublist.map _)

/-- **Every deed keeps the invariant**, with the workers as the deed amends them. -/
theorem Mirrored.perform (h : Mirrored workers s) (d : Deed) :
    Mirrored (d.amended workers) (d.perform keys s) := by
  cases d with
  | start w clock out =>
      rw [Deed.perform, run_markStarted]
      exact h.marked clock out w.started
  | stop w clock out =>
      rw [Deed.perform, run_markStopped]
      exact h.marked clock out w.stopped
  | claim n =>
      rw [Deed.perform, run_claim keys (h.keys .put)]
      exact ⟨⟨h.keys, h.documents, h.prompt, h.entries.insert _ _⟩, h.rows, h.ids⟩
  | release n =>
      rw [Deed.perform, run_release keys (h.keys .delete)]
      exact h.deleteKey _
  | remove id => exact h.remove id

/-- The worker with an id in a roster. -/
def withId (id : String) (workers : List Worker) : Option Worker :=
  workers.find? fun w => w.id = id

/-- **A deed amends the workers as it should.** -/
theorem withId_amended (id : String) (d : Deed) :
    withId id (d.amended workers) = d.known id (withId id workers) := by
  have henrolled : ∀ w, withId id (Roster.enrolled w workers)
      = if w.id = id then some w else withId id workers := by
    intro w
    have hfound : (amend (fun x : Worker => x.id = w.id) (fun _ => w) w workers).find?
        (fun x => x.id = id)
        = if w.id = id then some (((workers.find? fun x => x.id = w.id).map fun _ => w).getD w)
          else workers.find? fun x => x.id = id :=
      find?_amend (fun _ _ => rfl) rfl id workers
    rw [withId, Roster.enrolled, hfound]
    cases workers.find? (fun x => x.id = w.id) <;> rfl
  have hwritten : ∀ written? : Option Worker,
      withId id (written?.elim workers fun w => Roster.enrolled w workers)
        = written?.elim (withId id workers)
          fun w => if w.id = id then some w else withId id workers := by
    intro written?
    cases written? with
    | none => rfl
    | some w => exact henrolled w
  cases d with
  | remove other =>
      rw [Deed.amended, Deed.known, withId, withId, List.find?_filter]
      split
      · rename_i heq
        subst heq
        refine List.find?_eq_none.mpr fun w _ => ?_
        simp
      · rename_i hne
        refine congrArg (workers.find? ·) (funext fun w => ?_)
        by_cases hid : w.id = id
        · simp [hid, Ne.symm hne]
        · simp [hid]
  | start w clock out => exact hwritten (Deed.start w clock out).written?
  | stop w clock out => exact hwritten (Deed.stop w clock out).written?
  | claim n => exact hwritten none
  | release n => exact hwritten none

/-- Deeds keep the rows in step with the workers, and each id with what is known of it. -/
lemma mirrored_foldl (deeds : List Deed) (h : Mirrored workers s) :
    Mirrored (deeds.foldl Deed.amended workers) (afterDeeds keys s deeds)
      ∧ ∀ id, withId id (deeds.foldl Deed.amended workers)
        = deeds.foldl (Deed.known id) (withId id workers) := by
  induction deeds generalizing s workers with
  | nil => exact ⟨h, fun _ => rfl⟩
  | cons d deeds ih =>
      obtain ⟨hmirrored, hknown⟩ := ih (h.perform d)
      refine ⟨hmirrored, fun id => ?_⟩
      rw [List.foldl_cons, List.foldl_cons, hknown, withId_amended]

variable (keys) in
/-- **After a run** the roster is a list of workers with different ids, and under each id is whom
the deeds have left there. -/
theorem mirrored_after (hserving : Serving s) (hnew : s.documents.rows Roster.collection = [])
    (deeds : List Deed) :
    ∃ workers, Mirrored workers (afterDeeds keys s deeds)
      ∧ ∀ id, withId id workers = identity? id deeds :=
  have hbegin : Mirrored [] s := ⟨hserving, hnew, List.nodup_nil⟩
  ⟨_, mirrored_foldl deeds hbegin⟩

end Steps

end Rehearsal

end FleetLedger
