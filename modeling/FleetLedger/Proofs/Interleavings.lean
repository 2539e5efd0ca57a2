import Mathlib.Data.List.Perm.Basic
import FleetLedger.Proofs.Counters
import FleetLedger.Proofs.History
import FleetLedger.Proofs.Projection

/-!
# Executions that are recorded at the same time

Several calls record executions at once.  Each of them consists of its four writes, of which each
happens as a whole or fails, and the writes of all calls are carried out in any order: an
`Interleaving`.  A `Scene` is what is stored at some time, with what each call knows of its own
writes by then; a call that knows of all of them answers.

What the calls do together is a list of postings, that of the writes that did not fail (`landed`).
Those that failed are as good as not made (`memory_play`).  As the counts do not depend on the order
of postings, and the other views only on the order of those that concern them, that settles all
there is to say: **`concurrent_recording`**.
-/

namespace FleetLedger

open Ledger

/-! ## Scenes -/

/-- A call to record an execution, with what the clock shows and the id that there is to give. -/
structure Call where
  clock : Reading
  fresh : FreshId
  submitted : Execution

/-- What a call records when it is by itself. -/
def Call.recording (c : Call) : Recording := .of c.clock c.fresh c.submitted

/-- What is stored, and what each of `n` calls knows of its writes: a write that was carried out has
a report, which is empty if it did not fail. -/
structure Scene (n : Nat) where
  memory : Memory
  reports : Fin n → Part → Option (Option Notice)

/-- All writes of `n` calls, call by call. -/
def everyWrite (n : Nat) : List (Fin n × Part) :=
  (List.finRange n).flatMap fun i => Part.all.map (i, ·)

lemma mem_everyWrite {n : Nat} (w : Fin n × Part) : w ∈ everyWrite n := by
  obtain ⟨i, p⟩ := w
  refine List.mem_flatMap.mpr ⟨i, List.mem_finRange i, List.mem_map.mpr ⟨p, ?_, rfl⟩⟩
  cases p <;> decide

/-- An order in which the writes of `n` calls are carried out. -/
structure Interleaving (n : Nat) where
  order : List (Fin n × Part)
  complete : order.Perm (everyWrite n)

section Scenes

variable {n : Nat} (calls : Fin n → Call) (fate : Fin n → Part → Option Error)

/-- Carries out a write of a call, or fails to. -/
def Scene.step (sc : Scene n) (w : Fin n × Part) : Scene n :=
  let (report, memory) :=
    (attempt (Memory.storeUnless (fate w.1 w.2)) ((calls w.1).recording.write w.2)).run sc.memory
  { memory, reports := fun i p => if w = (i, p) then some report else sc.reports i p }

/-- What a call answers, once it knows of all its writes. -/
def Scene.answer? (sc : Scene n) (i : Fin n) : Option String :=
  (Part.all.mapM (sc.reports i)).map fun reports =>
    (((inMemory (calls i).clock (calls i).fresh).conclude (calls i).recording.execution reports).run
      sc.memory).1

/-- What has become of everything when all writes were carried out. -/
def Interleaving.play (σ : Interleaving n) (s : Memory) : Scene n :=
  σ.order.foldl (Scene.step calls fate) { memory := s, reports := fun _ _ => none }

/-- The writes of a list that do not fail. -/
def landedOf (order : List (Fin n × Part)) : List Posting :=
  (order.filter fun w => (fate w.1 w.2).isNone).map fun w => ⟨(calls w.1).recording, w.2⟩

/-- The writes that do not fail, in the order in which they are carried out. -/
def Interleaving.landed (σ : Interleaving n) : List Posting := landedOf calls fate σ.order

/-! ### One write -/

/-- A write that does not fail is carried out, and one that fails changes nothing. -/
lemma Scene.memory_step (sc : Scene n) (w : Fin n × Part) :
    (sc.step calls fate w).memory
      = if (fate w.1 w.2).isNone then sc.memory.post ⟨(calls w.1).recording, w.2⟩ else sc.memory :=
  congrArg Prod.snd (run_attempt sc.memory (fate w.1 w.2) ((calls w.1).recording.write w.2))

/-- A call learns what has become of its write, and nothing of others. -/
lemma Scene.reports_step (sc : Scene n) (w : Fin n × Part) (i : Fin n) (p : Part) :
    (sc.step calls fate w).reports i p
      = if w = (i, p) then some ((fate i p).map ((calls i).recording.write p).failure)
        else sc.reports i p := by
  have hreport := congrArg Prod.fst
    (run_attempt sc.memory (fate w.1 w.2) ((calls w.1).recording.write w.2))
  by_cases hw : w = (i, p)
  · subst hw
    rw [if_pos rfl]
    exact (if_pos rfl).trans (congrArg some hreport)
  · rw [if_neg hw]
    exact if_neg hw

/-! ### All writes -/

lemma memory_foldl_step (order : List (Fin n × Part)) (sc : Scene n) :
    (order.foldl (Scene.step calls fate) sc).memory
      = (landedOf calls fate order).foldl Memory.post sc.memory := by
  induction order generalizing sc with
  | nil => rfl
  | cons w order ih =>
      rw [List.foldl_cons, ih, Scene.memory_step]
      simp only [landedOf]
      by_cases hw : (fate w.1 w.2).isNone = true
      · simp [hw]
      · simp [hw]

/-- After a write was tried it stays known what has become of it. -/
lemma reports_foldl_step {order : List (Fin n × Part)} {i : Fin n} {p : Part} (sc : Scene n)
    (h : (i, p) ∈ order
      ∨ sc.reports i p = some ((fate i p).map ((calls i).recording.write p).failure)) :
    (order.foldl (Scene.step calls fate) sc).reports i p
      = some ((fate i p).map ((calls i).recording.write p).failure) := by
  induction order generalizing sc with
  | nil => exact h.resolve_left (by simp)
  | cons w order ih =>
      -- the write is still to come, or the report is there and stays
      refine ih _ ?_
      rw [Scene.reports_step]
      by_cases hw : w = (i, p)
      · exact Or.inr (if_pos hw)
      · rw [if_neg hw]
        rcases h with h | h
        · exact Or.inl ((List.mem_cons.mp h).resolve_left (Ne.symm hw))
        · exact Or.inr h

/-- **Writes that failed are as good as not made.** -/
theorem memory_play (σ : Interleaving n) (s : Memory) :
    (σ.play calls fate s).memory = (σ.landed calls fate).foldl Memory.post s :=
  memory_foldl_step calls fate σ.order _

/-- In the end each call knows of each of its writes whether it failed. -/
lemma reports_play (σ : Interleaving n) (s : Memory) (i : Fin n) (p : Part) :
    (σ.play calls fate s).reports i p
      = some ((fate i p).map ((calls i).recording.write p).failure) :=
  reports_foldl_step calls fate _ (Or.inl (σ.complete.mem_iff.mpr (mem_everyWrite (i, p))))

/-- **Every call answers with its id.** -/
theorem answer?_play (σ : Interleaving n) (s : Memory) (i : Fin n) :
    (σ.play calls fate s).answer? calls i = some (calls i).recording.execution.id := by
  have hreports : Part.all.mapM ((σ.play calls fate s).reports i)
      = some (Part.all.map fun p => (fate i p).map ((calls i).recording.write p).failure) := by
    simp only [Part.all, List.mapM_cons, List.mapM_nil, reports_play]
    rfl
  rw [Scene.answer?, hreports, Option.map_some, run_conclude]

/-- The order in which a call by itself carries out its writes. -/
def Interleaving.alone : Interleaving 1 := ⟨everyWrite 1, List.Perm.refl _⟩

/-- **A call by itself does what `record` does**, whether the store works or is out. -/
theorem run_record_eq_play (c : Call) (out : Option Error) (s : Memory) :
    ((inMemory c.clock c.fresh out).record c.submitted).run s
      = (c.recording.execution.id,
        (Interleaving.alone.play (fun _ => c) (fun _ _ => out) s).memory) := by
  rw [run_record, memory_play]
  cases out <;> rfl

/-! ### What landed -/

lemma landedOf_append (order order' : List (Fin n × Part)) :
    landedOf calls fate (order ++ order')
      = landedOf calls fate order ++ landedOf calls fate order' := by
  simp only [landedOf]
  rw [List.filter_append, List.map_append]

/-- Whatever the order, the same writes land. -/
lemma perm_landed (σ : Interleaving n) :
    (σ.landed calls fate).Perm (landedOf calls fate (everyWrite n)) :=
  (σ.complete.filter _).map _

lemma Part.filter_all (part : Part) (q : Part → Bool) :
    (Part.all.filter fun p => decide (p = part) && q p) = if q part then [part] else [] := by
  cases part <;> simp [Part.all, List.filter_cons]

/-- What the calls record whose write of a part does not fail. -/
def unfailed (part : Part) : List Recording :=
  ((List.finRange n).filter fun i => (fate i part).isNone).map fun i => (calls i).recording

/-- Of the writes of one part, those land that do not fail, one for each call. -/
lemma entries_landedOf (part : Part) (is : List (Fin n)) :
    Posting.entries part (landedOf calls fate (is.flatMap fun i => Part.all.map (i, ·)))
      = (is.filter fun i => (fate i part).isNone).map fun i => (calls i).recording := by
  induction is with
  | nil => rfl
  | cons i is ih =>
      have hcall : Posting.entries part (landedOf calls fate (Part.all.map (i, ·)))
          = if (fate i part).isNone then [(calls i).recording] else [] := by
        have hpart := part.filter_all fun p => (fate i p).isNone
        simp only [Posting.entries, landedOf]
        rw [List.filter_map, List.filter_map, List.filter_map, List.map_map, List.map_map,
          List.filter_filter]
        refine (congrArg (List.map _) hpart).trans ?_
        split <;> rfl
      rw [List.flatMap_cons, landedOf_append, Posting.entries_append, ih, hcall, List.filter_cons]
      split <;> rfl

/-- **The order of the writes makes no difference to who has written.** -/
theorem perm_entries_landed (σ : Interleaving n) (part : Part) :
    (Posting.entries part (σ.landed calls fate)).Perm (unfailed calls fate part) := by
  have hperm := ((perm_landed calls fate σ).filter fun q => decide (q.part = part)).map
    fun q => q.recording
  exact hperm.trans (List.Perm.of_eq (entries_landedOf calls fate part (List.finRange n)))

end Scenes

lemma Count.of_perm {rs rs' : List Recording} (h : rs.Perm rs') (p : Period) :
    Count.of p rs = Count.of p rs' := by
  simp only [Count.of, h.countP_eq]

lemma Count.of_append (p : Period) (rs rs' : List Recording) :
    Count.of p (rs ++ rs')
      = { period := p
          succeeded := (Count.of p rs).succeeded + (Count.of p rs').succeeded
          failed := (Count.of p rs).failed + (Count.of p rs').failed } := by
  simp only [Count.of, List.countP_append]

section Results

variable {n : Nat} (turns : List Turn) (calls : Fin n → Call) (fate : Fin n → Part → Option Error)
  (σ : Interleaving n)

/-- The books after a run and calls at the same time. -/
def booksAfter : Books := (σ.landed calls fate).foldl Books.post (booksOf turns)

lemma kept_after :
    (booksAfter turns calls fate σ).Kept (σ.play calls fate (run turns)).memory := by
  rw [memory_play]
  exact (kept_run turns).foldl_post (σ.landed calls fate)

lemma tidy_after : (booksAfter turns calls fate σ).Tidy :=
  (tidy_booksOf turns).foldl_post (σ.landed calls fate)

/-- A period has counted what was recorded before, and the calls whose write for it did not fail. -/
lemma countOf_after (p : Period) :
    (booksAfter turns calls fate σ).countOf p
      = Count.of p (recordings turns ++ unfailed calls fate p.part) := by
  have hperm := Count.of_perm (perm_entries_landed calls fate σ p.part) p
  rw [booksAfter, Books.countOf_foldl, hperm, countOf_booksOf, Count.of_append]

/-- The calls make no period too large to be stored, if there is room for all of them. -/
lemma length_after_lt (part : Part) (hfit : (recordings turns).length + n < 2 ^ 63) :
    (recordings turns ++ unfailed calls fate part).length < 2 ^ 63 := by
  have hle := List.length_filter_le (fun i => (fate i part).isNone) (List.finRange n)
  rw [List.length_finRange] at hle
  rw [List.length_append, unfailed, List.length_map]
  omega

/-- **Calls at the same time lose nothing and mix nothing.**  After any run, let any number of calls
record executions at once, their writes carried out in any order, and let any of the writes fail.

Each call answers with its id, and knows which of its writes failed.  What is stored is what the
writes that did not fail have stored, as if the others had not been made.  So each period has
counted what was recorded before and the calls whose write for it did not fail, whatever the order,
and that is what is read as long as it can be read; it has one document at most.  The history has
gained each execution whose write did not fail, once.  Of a combination for which a write did not
fail there is one row, that of the execution written last; the rows of all other combinations are as
before. -/
theorem concurrent_recording (turns : List Turn) (calls : Fin n → Call)
    (fate : Fin n → Part → Option Error) (σ : Interleaving n) :
    (∀ i, (σ.play calls fate (run turns)).answer? calls i = some (calls i).recording.execution.id
        ∧ (calls i).recording.execution.id ≠ ""
        ∧ ∀ p, (σ.play calls fate (run turns)).reports i p
          = some ((fate i p).map ((calls i).recording.write p).failure))
      ∧ (σ.play calls fate (run turns)).memory = (σ.landed calls fate).foldl Memory.post (run turns)
      ∧ (∀ p : Period, (run turns).Counted (Count.of p (recordings turns))
        ∧ (σ.play calls fate (run turns)).memory.Counted
          (Count.of p (recordings turns ++ unfailed calls fate p.part))
        ∧ (((σ.play calls fate (run turns)).memory.rows tallies).filter p.filter.holds).length ≤ 1)
      ∧ ((recordings turns).length + n < 2 ^ 63 → ∀ clock fresh,
        (inMemory clock fresh).stats.run.run (σ.play calls fate (run turns)).memory
            = (.ok (tallied (recordings turns ++ unfailed calls fate .allTime) none),
              (σ.play calls fate (run turns)).memory)
          ∧ ∀ first last days, Date.through first last = .ok days →
            ((inMemory clock fresh).dailyStats first last).run.run
                (σ.play calls fate (run turns)).memory
              = (.ok (days.map fun d => tallied
                  ((recordings turns ++ unfailed calls fate .daily).filter (·.day = d))
                  (some d.text)), (σ.play calls fate (run turns)).memory))
      ∧ (∃ gained : List Recording, gained.Perm (unfailed calls fate .history)
        ∧ executionsOf false ((σ.play calls fate (run turns)).memory.rows history)
          = .ok (chronicle turns ++ gained.map (·.execution)))
      ∧ (∀ r ∈ unfailed calls fate .latest, ∃ e row,
        lastOf r.execution.combination (Posting.entries .latest (σ.landed calls fate)) = some e
          ∧ (σ.play calls fate (run turns)).memory.rowsOf r.execution.combination = [row]
          ∧ row = Latest.overwriting e
          ∧ Latest.toExecution <$> row.decode Latest.decoder latestRows = .ok e)
      ∧ ∀ c, (∀ r ∈ unfailed calls fate .latest, r.execution.combination ≠ c) →
        (σ.play calls fate (run turns)).memory.rowsOf c = (run turns).rowsOf c := by
  have hkept := kept_after turns calls fate σ
  have htidy := tidy_after turns calls fate σ
  have hcount := countOf_after turns calls fate σ
  -- a combination has the row that landed last, or the one it had before
  have hrows : ∀ c, (σ.play calls fate (run turns)).memory.rowsOf c
      = (((lastOf c (Posting.entries .latest (σ.landed calls fate))).or
          ((booksOf turns).latestOf c)).map Latest.overwriting).toList := by
    intro c
    rw [hkept.rows_of_combination htidy c, booksAfter, Books.latestOf_foldl]
  refine ⟨?_, ?_, ?_, ?_, ?_, ?_, ?_⟩
  · intro i
    refine ⟨?_, ?_, ?_⟩
    · exact answer?_play calls fate σ (run turns) i
    · exact Recording.id_of_ne_empty (calls i).clock (calls i).fresh (calls i).submitted
    · exact reports_play calls fate σ (run turns) i
  · exact memory_play calls fate σ (run turns)
  · intro p
    have hbefore := (kept_run turns).counted (tidy_booksOf turns) p
    have hafter := hkept.counted htidy p
    rw [countOf_booksOf] at hbefore
    rw [hcount] at hafter
    exact ⟨hbefore, hafter, hkept.length_period_le_one htidy p⟩
  · intro hfit clock fresh
    have hfits := fun part => length_after_lt turns calls fate part hfit
    refine ⟨?_, ?_⟩
    · exact hkept.run_stats_tallied htidy (hcount .allTime) (hfits .allTime) clock fresh
    · intro first last days hdays
      exact hkept.run_dailyStats_tallied htidy (fun key => hcount (.day key)) (hfits .daily) hdays
        clock fresh
  · refine ⟨_, perm_entries_landed calls fate σ .history, ?_⟩
    rw [hkept.history, booksAfter, Books.history_foldl, history_booksOf]
    exact executionsOf_map_toDocument _
  · intro r hr
    have hmem := (perm_entries_landed calls fate σ .latest).mem_iff.mpr hr
    cases hlast : lastOf r.execution.combination
        (Posting.entries .latest (σ.landed calls fate)) with
    | none => exact absurd rfl (lastOf_eq_none_iff.mp hlast r hmem)
    | some e =>
        refine ⟨e, Latest.overwriting e, rfl, ?_, rfl, decode_row e latestRows⟩
        rw [hrows, hlast]
        rfl
  · intro c hnone
    have hlast : lastOf c (Posting.entries .latest (σ.landed calls fate)) = none :=
      lastOf_eq_none_iff.mpr fun r hr =>
        hnone r ((perm_entries_landed calls fate σ .latest).mem_iff.mp hr)
    rw [hrows, hlast, (kept_run turns).rows_of_combination (tidy_booksOf turns) c]
    rfl

end Results

/-- Two calls whose writes cross each other. -/
def crossed : Interleaving 2 where
  order := [(0, .history), (1, .history), (1, .latest), (0, .latest), (0, .daily), (1, .daily),
    (1, .allTime), (0, .allTime)]
  complete := by decide

/-- Both calls record a backup, each on its own node. -/
def backups (i : Fin 2) : Call where
  clock := backup.endTime.reading
  fresh := RecordId.Source.fresh {} backup.endTime
  submitted := { backup with node := if i.val = 0 then "n1" else "n2" }

/-- The second call fails to count for all time. -/
def uncounted (i : Fin 2) (p : Part) : Option Error :=
  if i = 1 ∧ p = .allTime then some .refused else none

/-- Of two backups at the same time one is counted, as the other's count fails. -/
theorem stats_crossed : (recordings twoDays).length + 2 < 2 ^ 63
    ∧ ∀ clock fresh,
      (inMemory clock fresh).stats.run.run (crossed.play backups uncounted (run twoDays)).memory
        = (.ok { total := 3, succeeded := 2, failed := 1 },
          (crossed.play backups uncounted (run twoDays)).memory) := by
  have hfit : (recordings twoDays).length + 2 < 2 ^ 63 := by decide
  obtain ⟨-, -, -, hread, -⟩ := concurrent_recording twoDays backups uncounted crossed
  exact ⟨hfit, fun clock fresh => (hread hfit clock fresh).1⟩

end FleetLedger
