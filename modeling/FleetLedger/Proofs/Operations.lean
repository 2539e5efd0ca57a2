import FleetLedger.Model.RecordId
import FleetLedger.Proofs.Books
import FleetLedger.Proofs.Expiry

/-!
# The operations on the store in memory

`Ledger.inMemory` is the ledger on the store in memory, at one reading of the clock and with one id
to give to an execution that comes without.  What each operation answers there, and what is stored
afterwards, is computed once in this file; the proofs about runs use these equations and look into
no operation again.

* `run_record` — recording carries out its writes and answers with the id.
* `run_setCleanup`, `run_sweep` — the two operations that change the history otherwise.
* `run_get`, `run_stats`, `run_dailyStats` — reading changes nothing.
* `Operation.keeps` — whatever the operation is, unless it records, it leaves the documents of all
  collections but the history alone.
-/

namespace FleetLedger

open Ledger

/-! ## The ledger in memory -/

/-- An id for an execution that comes without. -/
structure FreshId where
  text : String
  nonempty : text ≠ ""

/-- An id that is made has digits in it. -/
lemma RecordId.text_ne_empty (millis serial : Nat) : text millis serial ≠ "" := by
  intro h
  have hlist := congrArg String.toList h
  simp [text] at hlist

/-- The id that a source of ids makes. -/
def RecordId.Source.fresh (s : Source) (now : Timestamp) : FreshId :=
  ⟨(s.next now).1, text_ne_empty _ _⟩

/-- A store that refuses every operation with one error. -/
def DocumentStore.refusing {m : Type → Type} [Monad m] (e : Error) : DocumentStore m where
  find _ _ _ := throw e
  findOne _ _ := throw e
  count _ _ := throw e
  insertMany _ _ := throw e
  updateMany _ _ _ := throw e
  upsert _ _ _ := throw e
  deleteMany _ _ := throw e
  createIndexes _ _ := throw e

/-- The store in memory at a time when it is out, or is not. -/
def Memory.storeUnless : Option Error → DocumentStore (StateM Memory)
  | none => Memory.store
  | some e => .refusing e

/-- The ledger on the store in memory. -/
def Ledger.inMemory (clock : Reading) (fresh : FreshId) (out : Option Error := none) :
    Ledger (StateM Memory) where
  documents := Memory.storeUnless out
  note _ := pure ()
  now := pure clock
  newId := pure fresh.text

/-- What is recorded when an execution is handed in: it has an id then. -/
def Recording.of (clock : Reading) (fresh : FreshId) (e : Execution) : Recording where
  execution := { e with id := if e.id.isEmpty then fresh.text else e.id }
  day := clock.instant.day

/-- What is recorded has an id: the one that was submitted, or a fresh one. -/
lemma Recording.id_of_ne_empty (clock : Reading) (fresh : FreshId) (e : Execution) :
    (Recording.of clock fresh e).execution.id ≠ "" := by
  simp only [Recording.of]
  split
  · exact fresh.nonempty
  case isFalse h => exact fun he => h (by rw [he]; rfl)

/-! ## What the operations do -/

section Results

variable {α β ε : Type} (clock : Reading) (fresh : FreshId) (s : Memory)

/-- A step that succeeds hands its answer and its store to the rest. -/
lemma run_bind_of_ok {x : ExceptT ε (StateM Memory) α} {f : α → ExceptT ε (StateM Memory) β}
    {s s' : Memory} {a : α} (h : x.run.run s = (.ok a, s')) :
    (x >>= f).run.run s = (f a).run.run s' := by
  rw [ExceptT.run_bind, StateT.run_bind, h]
  rfl

/-- A step that fails ends the rest, and its store stays. -/
lemma run_bind_of_error {x : ExceptT ε (StateM Memory) α} {f : α → ExceptT ε (StateM Memory) β}
    {s s' : Memory} {e : ε} (h : x.run.run s = (.error e, s')) :
    (x >>= f).run.run s = (.error e, s') := by
  rw [ExceptT.run_bind, StateT.run_bind, h]
  rfl

/-- A write that fails changes nothing and is reported; any other is carried out. -/
lemma run_attempt (out : Option Error) (w : Write) :
    (attempt (Memory.storeUnless out) w).run s
      = (out.map w.failure, if out.isNone then w.apply s else s) := by
  simp only [attempt, Write.run, Write.apply]
  cases out with
  | none => rcases w.action with docs | ⟨f, u⟩ <;> rfl
  | some e => rcases w.action with docs | ⟨f, u⟩ <;> rfl

/-- **All writes are attempted**, whether or not the ones before succeeded: while the store is out
each is reported and none is carried out, otherwise they are carried out in order. -/
theorem run_mapM_attempt (out : Option Error) (ws : List Write) :
    (ws.mapM (attempt (Memory.storeUnless out))).run s
      = (ws.map fun w => out.map w.failure,
        if out.isNone then ws.foldl (fun s w => w.apply s) s else s) := by
  induction ws generalizing s with
  | nil => cases out <;> rfl
  | cons w ws ih =>
      rw [List.mapM_cons, StateT.run_bind, run_attempt]
      -- the writes that remain start from what the first has left
      show (do
        let (reports, s) ← (ws.mapM (attempt (Memory.storeUnless out))).run
          (if out.isNone then w.apply s else s)
        pure (out.map w.failure :: reports, s) : Id _) = _
      rw [ih]
      cases out <;> rfl

/-- Preparing completes the execution that is submitted, and reads the clock for the day; the store
is not touched. -/
lemma run_prepare (out : Option Error) (e : Execution) :
    ((inMemory clock fresh out).prepare e).run s
      = (((Recording.of clock fresh e).execution, (Recording.of clock fresh e).day.text), s) := by
  simp only [prepare, Recording.of]
  cases e.id.isEmpty <;> rfl

/-- In the end there is the id, whatever failed. -/
lemma run_conclude (out : Option Error) (e : Execution) (failures : List (Option Notice)) :
    ((inMemory clock fresh out).conclude e failures).run s = (e.id, s) := by
  have hnoted : ((failures.flatMap Option.toList).forM (inMemory clock fresh out).note).run s
      = ((), s) := by
    induction failures.flatMap Option.toList with
    | nil => rfl
    | cons notice notices ih => exact ih
  rw [conclude, StateT.run_bind, hnoted]
  rfl

/-- **Recording** carries out its writes unless the store is out, and answers with the id in any
case. -/
theorem run_record (out : Option Error) (e : Execution) :
    ((inMemory clock fresh out).record e).run s
      = ((Recording.of clock fresh e).execution.id,
        if out.isNone then
          Part.all.foldl (fun s p => ((Recording.of clock fresh e).write p).apply s) s
        else s) := by
  have hwrites := run_mapM_attempt s out (Part.all.map (Recording.of clock fresh e).write)
  have hrecord : ((inMemory clock fresh out).record e).run s = (do
      let (reports, s) ← ((Part.all.map (Recording.of clock fresh e).write).mapM
        (attempt (Memory.storeUnless out))).run s
      ((inMemory clock fresh out).conclude (Recording.of clock fresh e).execution reports).run s
        : Id _) := by
    rw [record, StateT.run_bind, run_prepare, ← writes_eq]
    rfl
  rw [hrecord, hwrites, List.foldl_map]
  exact run_conclude ..

/-- Setting a time for removal updates the documents of the job in the history, and no others. -/
lemma run_setCleanup (jobId : String) (due : Timestamp) :
    ((inMemory clock fresh).setCleanup jobId due).run.run s
      = (.ok (s.updateMany history (.eqString "job_id" jobId) [("cleanup", .int due.millis)]).2,
        (s.updateMany history (.eqString "job_id" jobId) [("cleanup", .int due.millis)]).1) := rfl

/-- Looking up an id reads the first document of the history that has it. -/
lemma run_get (id : String) :
    ((inMemory clock fresh).get id).run.run s
      = (match s.findOne history (.eqString "id" id) with
        | none => .error (.notFound "job log" id)
        | some d => d.decode Execution.decoder (history ++ "/" ++ id), s) := by
  have hfound : ((inMemory clock fresh).documents.findOne history (.eqString "id" id)).run.run s
      = (.ok (s.findOne history (.eqString "id" id)), s) := rfl
  rw [Ledger.get, run_bind_of_ok hfound]
  cases s.findOne history (.eqString "id" id) <;> rfl

/-- The tally for all time is the sum of what the documents of that name say. -/
lemma run_stats :
    (inMemory clock fresh).stats.run.run s
      = ((·.foldl Tally.absorb {}) <$> talliesOf (s.find tallies (.eqString "name" allTime) {}),
        s) := by
  have hfound : ((inMemory clock fresh).documents.find tallies (.eqString "name" allTime)
      {}).run.run s = (.ok (s.find tallies (.eqString "name" allTime) {}), s) := rfl
  rw [stats, run_bind_of_ok hfound]
  cases talliesOf (s.find tallies (.eqString "name" allTime) {}) <;> rfl

/-- The tallies of days are those found for the days, added up by day, with one for each day. -/
lemma run_dailyStats {first last : Date} {days : List Date}
    (hdays : Date.through first last = .ok days) :
    ((inMemory clock fresh).dailyStats first last).run.run s
      = ((fun all => takeDays (all.foldl addByDay []) (days.map Date.text)) <$> talliesOf
          (s.find tallies (daysFilter (days.map Date.text)) { sort := [.up "date"] }), s) := by
  have hsettled : (settled (.ok days) : ExceptT Error (StateM Memory) (List Date)).run.run s
      = (.ok days, s) := rfl
  have hfound : ((inMemory clock fresh).documents.find tallies (daysFilter (days.map Date.text))
      { sort := [.up "date"] }).run.run s
      = (.ok (s.find tallies (daysFilter (days.map Date.text)) { sort := [.up "date"] }), s) :=
    rfl
  rw [dailyStats, hdays, run_bind_of_ok hsettled, run_bind_of_ok hfound]
  cases talliesOf (s.find tallies (daysFilter (days.map Date.text))
    { sort := [.up "date"] }) <;> rfl

/-- Days in the wrong order are refused before the store is asked. -/
lemma run_dailyStats_refused {first last : Date} {e : Error}
    (hdays : Date.through first last = .error e) :
    ((inMemory clock fresh).dailyStats first last).run.run s = (.error e, s) := by
  rw [dailyStats, hdays]
  rfl

/-- What a sweep removes is decided by one reading of the clock. -/
lemma run_sweepFilter (w : Window) :
    (sweepFilter (pure clock : StateM Memory Reading) w).run.run s
      = (dueFilter clock.instant <$> cutoff clock w, s) := by
  simp only [sweepFilter]
  cases hspan : w.span with
  | error e =>
      have hsettled : (settled (.error e) : ExceptT Error (StateM Memory) Nat).run.run s
          = (.error e, s) := rfl
      have hcutoff : cutoff clock w = .error e := by
        rw [cutoff, hspan]
        rfl
      rw [run_bind_of_error hsettled, hcutoff]
      rfl
  | ok n =>
      have hsettled : (settled (.ok n) : ExceptT Error (StateM Memory) Nat).run.run s
          = (.ok n, s) := rfl
      have hclock : (liftM (pure clock : StateM Memory Reading)
          : ExceptT Error (StateM Memory) Reading).run.run s = (.ok clock, s) := rfl
      rw [run_bind_of_ok hsettled, run_bind_of_ok hclock]
      cases cutoff clock w <;> rfl

/-- **A sweep** whose window cannot be counted back is refused, and nothing is removed. -/
theorem run_sweep_of_error {w : Window} {e : Error} (h : cutoff clock w = .error e) :
    ((inMemory clock fresh).sweep w).run.run s = (.error e, s) := by
  have hfilter : (sweepFilter (inMemory clock fresh).now w).run.run s = (.error e, s) := by
    refine (run_sweepFilter clock s w).trans ?_
    rw [h]
    rfl
  rw [sweep, run_bind_of_error hfilter]

/-- A window that is too long is refused, and nothing is removed. -/
lemma run_sweep_of_tooLong {w : Window} (h : w.tooLong clock = true) :
    ∃ reason, ((inMemory clock fresh).sweep w).run.run s = (.error (.validation reason), s) := by
  rcases cutoff_cases clock w with ⟨hfits, -⟩ | ⟨-, reason, hcutoff⟩
  · rw [h] at hfits
    exact Bool.noConfusion hfits
  · exact ⟨reason, run_sweep_of_error clock fresh s hcutoff⟩

/-- A sweep removes from the history what is due at a time to the millisecond, and says how many
that were. -/
lemma run_sweep {w : Window} (h : w.tooLong clock = false) :
    ∃ t : Timestamp, t.millis = w.start clock / 1000000
      ∧ ((inMemory clock fresh).sweep w).run.run s
        = (.ok (s.deleteMany history (dueFilter clock.instant t)).2,
          (s.deleteMany history (dueFilter clock.instant t)).1) := by
  rcases cutoff_cases clock w with ⟨-, t, hcutoff, ht⟩ | ⟨hlong, -⟩
  · have hfilter : (sweepFilter (inMemory clock fresh).now w).run.run s
        = (.ok (dueFilter clock.instant t), s) := by
      refine (run_sweepFilter clock s w).trans ?_
      rw [hcutoff]
      rfl
    refine ⟨t, ht, ?_⟩
    rw [sweep, run_bind_of_ok hfilter]
    rfl
  · rw [h] at hlong
    exact Bool.noConfusion hlong

end Results

/-! ## What operations leave alone -/

/-- What can be asked of a ledger. -/
inductive Operation where
  | record (e : Execution)
  | setCleanup (jobId : String) (due : Timestamp)
  | sweep (w : Window)
  | get (id : String)
  | list (q : Query) (page size : Nat) (sort : List SortKey)
  | latestOf (jobIds : List String)
  | stats
  | dailyStats (first last : Date)
  | ensureIndexes

/-- Carries out an operation, whatever it answers. -/
def Operation.perform {m : Type → Type} [Monad m] (l : Ledger m) : Operation → m Unit
  | record e => discard (l.record e)
  | setCleanup jobId due => discard (l.setCleanup jobId due).run
  | sweep w => discard (l.sweep w).run
  | get id => discard (l.get id).run
  | list q page size sort => discard (l.list q page size sort).run
  | latestOf jobIds => discard (l.latestOf jobIds).run
  | stats => discard l.stats.run
  | dailyStats first last => discard (l.dailyStats first last).run
  | ensureIndexes => l.ensureIndexes

/-- An action leaves the documents of a collection alone. -/
def Keeps {α : Type} (collection : String) (a : StateM Memory α) : Prop :=
  ∀ s : Memory, (a.run s).2.rows collection = s.rows collection

namespace Keeps

variable {α β ε : Type} {c : String}

lemma pure (x : α) : Keeps c (Pure.pure x) := fun _ => rfl

/-- What keeps a collection does so step after step. -/
lemma bind {a : StateM Memory α} {f : α → StateM Memory β} (ha : Keeps c a)
    (hf : ∀ x, Keeps c (f x)) : Keeps c (a >>= f) := by
  intro s
  show ((f (a.run s).1).run (a.run s).2).2.rows c = _
  rw [hf, ha]

lemma map {a : StateM Memory α} (ha : Keeps c a) (f : α → β) : Keeps c (f <$> a) := ha

/-- The same where a step may fail. -/
lemma bindExcept {a : ExceptT ε (StateM Memory) α} {f : α → ExceptT ε (StateM Memory) β}
    (ha : Keeps c a.run) (hf : ∀ x, Keeps c (f x).run) : Keeps c (a >>= f).run := by
  rw [ExceptT.run_bind]
  refine bind ha fun r => ?_
  cases r with
  | ok x => exact hf x
  | error e => exact pure _

/-- What keeps a collection may be done for each item of a list. -/
lemma forM {l : List α} {f : α → StateM Memory PUnit} (hf : ∀ x, Keeps c (f x)) :
    Keeps c (l.forM f) := by
  induction l with
  | nil => exact pure _
  | cons x l ih => exact bind (hf x) fun _ => ih

/-- An outcome that is there already does nothing. -/
lemma settled (r : Outcome α) : Keeps c (settled r : ExceptT Error (StateM Memory) α).run :=
  fun _ => rfl

lemma find (c' : String) (f : Filter) (sel : Selection) :
    Keeps c (Memory.store.find c' f sel).run := fun _ => rfl

lemma findOne (c' : String) (f : Filter) : Keeps c (Memory.store.findOne c' f).run := fun _ => rfl

lemma count (c' : String) (f : Filter) : Keeps c (Memory.store.count c' f).run := fun _ => rfl

lemma createIndexes (c' : String) (fields : List String) :
    Keeps c (Memory.store.createIndexes c' fields).run := fun _ => rfl

/-- An update of one collection keeps the others. -/
lemma updateMany {c' : String} (h : c' ≠ c) (f : Filter) (fields : Document) :
    Keeps c (Memory.store.updateMany c' f fields).run :=
  fun s => (Memory.rows_updateMany s c' c f fields).trans (if_neg h)

/-- A removal from one collection keeps the others. -/
lemma deleteMany {c' : String} (h : c' ≠ c) (f : Filter) :
    Keeps c (Memory.store.deleteMany c' f).run :=
  fun s => (Memory.rows_deleteMany s c' c f).trans (if_neg h)

end Keeps

/-- The operation only reads, or makes indexes. -/
def Operation.reads : Operation → Bool
  | record _ | setCleanup .. | sweep _ => false
  | _ => true

section Frame

variable (clock : Reading) (fresh : FreshId)

/-- **Reading changes no document.** -/
theorem Operation.keeps_of_reads {o : Operation} (h : o.reads = true) (c : String) :
    Keeps c (o.perform (inMemory clock fresh)) := by
  cases o with
  | record e => exact Bool.noConfusion h
  | setCleanup jobId due => exact Bool.noConfusion h
  | sweep w => exact Bool.noConfusion h
  | get id =>
      refine Keeps.map (Keeps.bindExcept (Keeps.findOne _ _) fun found => ?_) _
      cases found with
      | none => exact Keeps.pure _
      | some d => exact Keeps.settled _
  | list q page size sort =>
      refine Keeps.map ?_ _
      -- the question whether the page is empty comes first, so it stands outside of the search
      simp only [Ledger.list]
      by_cases hsize : size = 0
      · rw [if_pos hsize]
        exact Keeps.pure (Except.error (PageFault.failed emptyPage))
      · rw [if_neg hsize]
        split
        case h_1 filter _ =>
          exact Keeps.bindExcept (Keeps.map (Keeps.count _ _) _) fun total =>
            Keeps.bindExcept (Keeps.map (Keeps.find _ _ _) _) fun docs =>
            Keeps.bindExcept (Keeps.map (Keeps.settled _) _) fun items => Keeps.pure _
        case h_2 => exact Keeps.pure _
  | latestOf jobIds =>
      refine Keeps.map (Keeps.bindExcept (Keeps.find _ _ _) fun docs => ?_) _
      exact Keeps.bindExcept (Keeps.settled _) fun rows => Keeps.pure _
  | stats =>
      refine Keeps.map (Keeps.bindExcept (Keeps.find _ _ _) fun docs => ?_) _
      exact Keeps.bindExcept (Keeps.settled _) fun all => Keeps.pure _
  | dailyStats first last =>
      refine Keeps.map (Keeps.bindExcept (Keeps.settled _) fun days => ?_) _
      refine Keeps.bindExcept (Keeps.find _ _ _) fun docs => ?_
      exact Keeps.bindExcept (Keeps.settled _) fun all => Keeps.pure _
  | ensureIndexes =>
      refine Keeps.forM fun (collection, fields) => Keeps.bind (Keeps.createIndexes _ _) fun r => ?_
      cases r with
      | ok _ => exact Keeps.pure _
      | error e => exact Keeps.pure _

/-- The operation that records is the only one that concerns more than the history. -/
lemma Operation.keeps {o : Operation} (h : ∀ e, o ≠ .record e) {c : String} (hc : history ≠ c) :
    Keeps c (o.perform (inMemory clock fresh)) := by
  cases o with
  | record e => exact absurd rfl (h e)
  | setCleanup jobId due => exact Keeps.map (Keeps.updateMany hc _ _) _
  | sweep w =>
      refine Keeps.map (Keeps.bindExcept (fun s => ?_) fun filter => Keeps.deleteMany hc _) _
      exact congrArg (Memory.rows · c) (congrArg Prod.snd (run_sweepFilter clock s w))
  | _ => exact keeps_of_reads clock fresh rfl c

end Frame

end FleetLedger
