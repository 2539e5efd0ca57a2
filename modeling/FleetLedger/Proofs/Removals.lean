import FleetLedger.Proofs.Counters
import FleetLedger.Proofs.History

/-!
# Sweeping whatever can be read

A sweep decides by the fields of documents, and what it removes is described by executions.  The
history may hold documents that the ledger did not write itself, so the two are compared here for all
documents that can be read as executions, whatever else is in them.

Reading loses little: a document that is read as an execution spells it (**`Spelled.iff_decode`**),
and then the filter of a sweep can only say something else than the execution in one way.  For whoever
reads a document, a null in the place of the time for removal is no time.  For the filter it is a
field that is there, and that no instant is after.  So a document with such a null is never removed,
however old it is (`Spelled.holds_dueFilter`), and all the others are removed just when they are due:
**`sweep_removes_due`**.
-/

namespace FleetLedger

open Ledger

/-! ## Instants that were read -/

namespace Decoding

variable {d : Document} {name : String}

/-- A time is read from its stamp, and from nothing else. -/
lemma timestamp_eq_ok {v : Json} {t : Timestamp} :
    timestamp v = .ok t ↔ v = Execution.stamp t := by
  refine ⟨fun h => ?_, fun h => h ▸ Execution.timestamp_stamp t⟩
  cases v with
  | int n =>
      simp only [timestamp, Timestamp.ofMillis?] at h
      split at h
      case h_1 u hu =>
          obtain ⟨hrange, hstamp⟩ := Option.dite_none_right_eq_some.mp hu
          rw [← Except.ok.inj h, ← Option.some.inj hstamp]
          rfl
      case h_2 => cases h
  | _ => cases h

lemma get?_of_run_timestamp {t : Timestamp} (h : (required name timestamp).run d = .ok t) :
    d.get? name = some (Execution.stamp t) := by
  obtain ⟨v, hfield, hread⟩ := exists_of_run_required h
  rw [hfield, timestamp_eq_ok.mp hread]

/-- An instant that may be missing is missing where there is null, too. -/
lemma get?_of_run_instant {t : Option Timestamp} (h : (optional name timestamp).run d = .ok t) :
    t = none ∧ (d.get? name = none ∨ d.get? name = some .null)
      ∨ ∃ u, t = some u ∧ d.get? name = some (Execution.stamp u) := by
  rcases exists_of_run_withDefault h with ⟨hfield, rfl⟩ | ⟨v, hfield, hread⟩
  · exact Or.inl ⟨rfl, Or.inl hfield⟩
  cases v with
  | null => exact Or.inl ⟨(Except.ok.inj hread).symm, Or.inr hfield⟩
  | int n =>
      have hmap : some <$> timestamp (.int n) = .ok t := hread
      cases hn : timestamp (.int n) with
      | error e =>
          rw [hn] at hmap
          cases hmap
      | ok u =>
          rw [hn] at hmap
          rw [timestamp_eq_ok.mp hn] at hfield
          exact Or.inr ⟨u, (Except.ok.inj hmap).symm, hfield⟩
  | _ => cases hread

end Decoding

namespace Execution

open Decoding Decoder in
/-- **The documents that are read as an execution are those that spell it.** -/
theorem Spelled.iff_decode {e : Execution} {d : Document} :
    Spelled e d ↔ decoder.run d = .ok e := by
  refine ⟨Spelled.decode, fun h => ?_⟩
  obtain ⟨_, _, h₁, hcleanup, rfl⟩ := exists_of_run_seq h
  obtain ⟨_, _, h₂, hend, rfl⟩ := exists_of_run_seq h₁
  obtain ⟨_, _, h₃, hbegin, rfl⟩ := exists_of_run_seq h₂
  obtain ⟨_, _, h₄, hsuccess, rfl⟩ := exists_of_run_seq h₃
  obtain ⟨_, _, h₅, houtput, rfl⟩ := exists_of_run_seq h₄
  obtain ⟨_, _, h₆, hcommand, rfl⟩ := exists_of_run_seq h₅
  obtain ⟨_, _, h₇, hip, rfl⟩ := exists_of_run_seq h₆
  obtain ⟨_, _, h₈, hhostname, rfl⟩ := exists_of_run_seq h₇
  obtain ⟨_, _, h₉, hnode, rfl⟩ := exists_of_run_seq h₈
  obtain ⟨_, _, h₁₀, hname, rfl⟩ := exists_of_run_seq h₉
  obtain ⟨_, _, h₁₁, huser, rfl⟩ := exists_of_run_seq h₁₀
  obtain ⟨_, _, h₁₂, hjobGroup, rfl⟩ := exists_of_run_seq h₁₁
  obtain ⟨_, _, h₁₃, hjobId, rfl⟩ := exists_of_run_seq h₁₂
  obtain ⟨_, hid, rfl⟩ := exists_of_run_map h₁₃
  exact
    { id := get?_of_run_text hid
      jobId := get?_of_run_string hjobId
      jobGroup := get?_of_run_string hjobGroup
      user := get?_of_run_string huser
      name := get?_of_run_string hname
      node := get?_of_run_string hnode
      hostname := get?_of_run_string hhostname
      ip := get?_of_run_string hip
      command := get?_of_run_text hcommand
      output := get?_of_run_text houtput
      success := get?_of_run_bool hsuccess
      beginTime := get?_of_run_timestamp hbegin
      endTime := get?_of_run_timestamp hend
      cleanup := by
        rcases get?_of_run_instant hcleanup with ⟨rfl, hfield⟩ | ⟨t, rfl, hfield⟩
        · exact hfield
        · exact hfield }

/-- A document that is read as an execution spells it. -/
lemma spelled_of_decode {e : Execution} {d : Document} {key : String}
    (h : d.decode decoder key = .ok e) : Spelled e d :=
  Spelled.iff_decode.mpr (Document.run_of_decode h)

end Execution

/-! ## Sweeping -/

/-- There is a null in the place of the time for removal. -/
def Document.hasNullCleanup (d : Document) : Bool :=
  match d.get? "cleanup" with
  | some .null => true
  | _ => false

lemma Document.hasNullCleanup_iff {d : Document} :
    d.hasNullCleanup = true ↔ d.get? "cleanup" = some .null := by
  rw [hasNullCleanup]
  split <;> simp_all

/-- What is read of a document is due. -/
def Document.readsDue (clock : Reading) (w : Window) (d : Document) : Bool :=
  match d.decode Execution.decoder history with
  | .ok e => e.isDue clock w
  | .error _ => false

/-- Whether a document reads as due is whether its execution is. -/
lemma Document.readsDue_of_decode {d : Document} {e : Execution}
    (h : d.decode Execution.decoder history = .ok e) (clock : Reading) (w : Window) :
    d.readsDue clock w = e.isDue clock w := by
  unfold readsDue
  split
  case h_1 e' he => rw [Except.ok.inj (he.symm.trans h)]
  case h_2 fault he => cases he.symm.trans h

/-- A sweep, told by any test that agrees with its filter on the documents that are stored. -/
lemma run_sweep_congr (s : Memory) (clock : Reading) (fresh : FreshId) {w : Window}
    (hw : w.tooLong clock = false) (removed : Document → Bool)
    (hremoved : ∀ d ∈ s.rows history, ∀ t : Timestamp, t.millis = w.start clock / 1000000 →
      (dueFilter clock.instant t).holds d = removed d) :
    ∃ s' : Memory, ((inMemory clock fresh).sweep w).run.run s
        = (.ok ((s.rows history).countP removed), s')
      ∧ s'.rows history = (s.rows history).filter (fun d => !removed d)
      ∧ ∀ c, c ≠ history → s'.rows c = s.rows c := by
  obtain ⟨t, ht, hswept⟩ := run_sweep clock fresh s hw
  have hholds : ∀ d ∈ s.rows history, (dueFilter clock.instant t).holds d = removed d :=
    fun d hd => hremoved d hd t ht
  refine ⟨(s.deleteMany history (dueFilter clock.instant t)).1, ?_, ?_, ?_⟩
  · rw [hswept, Memory.snd_deleteMany, List.countP_congr fun d hd => by rw [hholds d hd]]
  · rw [Memory.rows_deleteMany, if_pos rfl]
    exact List.filter_congr fun d hd => by rw [hholds d hd]
  · intro c hc
    rw [Memory.rows_deleteMany, if_neg (Ne.symm hc)]

/-- **A sweep removes what is due, as far as it can be read, but for nulls.**  If all that is
stored in the history can be read as executions, and the window can be counted back, then a sweep
removes exactly the documents whose execution is due and in which no null stands for the time of
removal.  It says how many these were, and leaves the others as they were and in their order. -/
theorem sweep_removes_due (s : Memory)
    (hread : ∀ d ∈ s.rows history, ∃ e, d.decode Execution.decoder history = .ok e)
    (clock : Reading) (fresh : FreshId) {w : Window} (hw : w.tooLong clock = false) :
    ∃ s' : Memory, ((inMemory clock fresh).sweep w).run.run s
        = (.ok ((s.rows history).countP fun d => d.readsDue clock w && !d.hasNullCleanup), s')
      ∧ s'.rows history
        = (s.rows history).filter (fun d => !(d.readsDue clock w && !d.hasNullCleanup))
      ∧ ∀ c, c ≠ history → s'.rows c = s.rows c := by
  refine run_sweep_congr s clock fresh hw _ ?_
  intro d hd t ht
  obtain ⟨e, he⟩ := hread d hd
  have hspelled := Execution.spelled_of_decode he
  rw [Bool.eq_iff_iff, hspelled.holds_dueFilter ht, Bool.and_eq_true, Bool.not_eq_true',
    ← Bool.not_eq_true, Document.hasNullCleanup_iff, Document.readsDue_of_decode he]

/-- A backup with a null in the place of the time for removal. -/
def nulledBackup : Document := backup.toDocument.insert "cleanup" .null

/-- A backup that is to be kept for a day and some hours, whatever the window is. -/
def keptBackup : Execution := { backup with cleanup := some { millis := 100000000 } }

/-- Three backups of one time: one is due, one has a null, and one is to be kept for a day. -/
def threeBackups : Memory :=
  Memory.insertMany {} history [backup.toDocument, nulledBackup, keptBackup.toDocument]

lemma decode_nulledBackup :
    nulledBackup.decode Execution.decoder history = .ok backup := rfl

/-- Of three backups the one that is due is removed; the one with a null is kept, and so is the one
that has time left. -/
theorem sweep_threeBackups :
    (∀ d ∈ threeBackups.rows history, ∃ e, d.decode Execution.decoder history = .ok e)
      ∧ Window.tooLong { seconds := 60 } (Timestamp.reading { millis := 80000000 }) = false
      ∧ ∀ fresh : FreshId, ∃ s' : Memory,
        ((inMemory (Timestamp.reading { millis := 80000000 }) fresh).sweep
          { seconds := 60 }).run.run threeBackups = (.ok 1, s')
        ∧ s'.rows history = [nulledBackup, keptBackup.toDocument] := by
  have hread : ∀ d ∈ threeBackups.rows history,
      ∃ e, d.decode Execution.decoder history = .ok e := by
    have hrows : threeBackups.rows history
        = [backup.toDocument, nulledBackup, keptBackup.toDocument] := rfl
    simp only [hrows, List.forall_mem_cons]
    exact ⟨⟨_, rfl⟩, ⟨_, rfl⟩, ⟨_, rfl⟩, List.forall_mem_nil _⟩
  have hwindow : Window.tooLong { seconds := 60 } (Timestamp.reading { millis := 80000000 })
      = false := by decide
  refine ⟨hread, hwindow, fun fresh => ?_⟩
  obtain ⟨s', hswept, hrows, -⟩ := sweep_removes_due threeBackups hread _ fresh hwindow
  exact ⟨s', hswept, hrows⟩

/-- The filter of a sweep never selects the document with an explicit null. -/
lemma holds_dueFilter_nulledBackup (now cutoff : Timestamp) :
    (dueFilter now cutoff).holds nulledBackup = false := rfl

/-- Sweeps do not remove all that is read as due: a null in the place of the time for removal keeps an
execution for good. -/
theorem read_as_due_but_kept : ¬ ∀ (s : Memory) (clock : Reading) (fresh : FreshId) (w : Window),
    (∀ d ∈ s.rows history, ∃ e, d.decode Execution.decoder history = .ok e) →
    w.tooLong clock = false →
    ∃ s' : Memory, ((inMemory clock fresh).sweep w).run.run s
        = (.ok ((s.rows history).countP (·.readsDue clock w)), s')
      ∧ s'.rows history = (s.rows history).filter (fun d => !d.readsDue clock w)
      ∧ ∀ c, c ≠ history → s'.rows c = s.rows c := by
  intro hclaim
  let s : Memory := Memory.insertMany {} history [nulledBackup]
  let clock : Reading := Timestamp.reading { millis := 80000000 }
  let fresh := RecordId.Source.fresh {} backup.endTime
  have hrows : s.rows history = [nulledBackup] := rfl
  have hread : ∀ d ∈ s.rows history, ∃ e, d.decode Execution.decoder history = .ok e := by
    rw [hrows, List.forall_mem_singleton]
    exact ⟨backup, decode_nulledBackup⟩
  have hwindow : Window.tooLong { seconds := 60 } clock = false := by decide
  obtain ⟨kept, hkept, -⟩ := run_sweep_congr s clock fresh hwindow (fun _ => false)
    (by
      rw [hrows, List.forall_mem_singleton]
      exact fun t _ => holds_dueFilter_nulledBackup clock.instant t)
  obtain ⟨s', hswept, -⟩ := hclaim s clock fresh { seconds := 60 } hread hwindow
  have hdue : nulledBackup.readsDue clock { seconds := 60 } = true := by
    rw [Document.readsDue_of_decode decode_nulledBackup]
    decide
  rw [hrows] at hkept hswept
  have hanswer := congrArg Prod.fst (hkept.symm.trans hswept)
  simp [hdue] at hanswer

end FleetLedger
