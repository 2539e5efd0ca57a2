import FleetLedger.Proofs.Pages
import FleetLedger.Proofs.Words

/-!
# Calls that break down

Three calls of the ledger calculate with what they are given: a list with days and the number of a page,
the tallies of a range with its days, a sweep with a window and the clock.  `listInWords`,
`dailyStatsInWords` and `sweepInWords` are these calls on a machine, where a step of a calculation may
have no result.  Then nothing is answered at all, not even an error.

A list breaks down where the library reports the end of the calendar, and nowhere else
(`listInWords_cases`); a sweep never does (`run_sweepInWords`).  Both hold of any store.  The tallies of a
range are added up in words, too, and there it matters what is stored: a day has one tally at most, so
each sum is a tally that could be read (`foldlM_addByDayInWords?`).

Sorting is no calculation, but it breaks down as well where comparisons contradict each other
(`Consistent`).
-/

namespace FleetLedger

open Ledger Word

/-! ## Calls on a machine -/

/-- Adds the counts of another tally. -/
def Tally.absorbInWords? (t other : Tally) : Option Tally := do
  let total ← signed? (t.total + other.total)
  let succeeded ← signed? (t.succeeded + other.succeeded)
  let failed ← signed? (t.failed + other.failed)
  return { t with total, succeeded, failed }

namespace Ledger

variable {m : Type → Type} [Monad m] {α β : Type}

/-- A call that may break down: then it gives neither a result nor an error. -/
abbrev Reckoning (m : Type → Type) := ExceptT Error (OptionT m)

/-- What a call comes to that calculates nothing. -/
def steady (action : ExceptT Error m α) : Reckoning m α :=
  ExceptT.mk (OptionT.mk (some <$> action.run))

/-- A calculation, which may break down, or be refused. -/
def reckoned (r : Option (Outcome α)) : Reckoning m α := ExceptT.mk (OptionT.mk (pure r))

/-- The number of rows before a page. -/
def skipInWords? (page size : Nat) : Option Nat := do
  let before ← unsigned? ((max page 1 : Nat) - 1 : Int)
  return min (before * size) greatestSkip

/-- One page of executions. -/
def listInWords (l : Ledger m) (q : Query) (page size : Nat) (sort : List SortKey) :
    Reckoning m Page := do
  if size = 0 then throw emptyPage
  let filter ← reckoned (.ok <$> q.filterInWords?)
  let collection := if q.latest then latestRows else history
  let total ← steady (l.documents.count collection filter)
  let skip ← reckoned (.ok <$> skipInWords? page size)
  let selection : Selection :=
    { exclude := Execution.bulky
      sort := if sort.isEmpty then [.down "begin_time"] else sort
      skip
      limit := some size }
  let docs ← steady (l.documents.find collection filter selection)
  let items ← steady (settled (executionsOf q.latest docs))
  return { items, total }

/-- Adds a tally to what there is for its day. -/
def addByDayInWords? (sums : Table Tally) (t : Tally) : Option (Table Tally) :=
  match t.date with
  | none => some sums
  | some day => do
    let sum ← ((sums.get? day).getD (.ofDay day)).absorbInWords? t
    return sums.insert day sum

/-- The tally of each day of a range. -/
def dailyStatsInWords (l : Ledger m) (first last : Date) : Reckoning m (List Tally) := do
  let days ← reckoned (Date.throughInWords? first last)
  let keys := days.map Date.text
  let docs ← steady (l.documents.find tallies (daysFilter keys) { sort := [.up "date"] })
  let all ← steady (settled (talliesOf docs))
  let sums ← reckoned (.ok <$> all.foldlM addByDayInWords? [])
  return takeDays sums keys

/-- Removes what is due. -/
def sweepInWords (l : Ledger m) (w : Window) : Reckoning m Nat := do
  let _ ← steady (settled w.span)
  let now ← steady (liftM l.now)
  let cutoff ← reckoned (cutoffInWords? now w)
  let instant ← reckoned (.ok <$> now.instantInWords?)
  steady (l.documents.deleteMany history (dueFilter instant cutoff))

/-! ## Lists -/

/-- In words of 64 bits the product is cut off where they end. -/
lemma skipInWords?_eq {page : Nat} (h : page < 2 ^ 64) (size : Nat) :
    skipInWords? page size = some (min ((max page 1 - 1) * size) greatestSkip) := by
  have hbefore : unsigned? ((max page 1 : Nat) - 1 : Int) = some (max page 1 - 1) := by
    rw [unsigned?, if_pos (by omega)]
    congr 1
    omega
  rw [skipInWords?, hbefore]
  rfl

variable [LawfulMonad m]

lemma run_steady_bind (action : ExceptT Error m α) (f : α → Reckoning m β) :
    (steady action >>= f).run.run = action.run >>= fun
      | .ok a => (f a).run.run
      | .error e => pure (some (.error e)) := by
  have hrun : (steady action).run.run = some <$> action.run := rfl
  rw [ExceptT.run_bind, OptionT.run_bind, Option.elimM, hrun, bind_map_left]
  congr 1
  funext r
  cases r <;> rfl

lemma run_reckoned_bind (r : Option (Outcome α)) (f : α → Reckoning m β) :
    (reckoned r >>= f).run.run = match r with
      | some (.ok a) => (f a).run.run
      | some (.error e) => pure (some (.error e))
      | none => pure none := by
  have hrun : (reckoned r : Reckoning m α).run.run = pure r := rfl
  rw [ExceptT.run_bind, OptionT.run_bind, Option.elimM, hrun, pure_bind]
  rcases r with _ | (e | a) <;> rfl

/-- Where a call looks at something, so does the call on a machine. -/
lemma run_steady_same (action : ExceptT Error m α) {f : α → Reckoning m β}
    {g : α → ExceptT Error m β}
    (h : ∀ a, (f a).run.run = some <$> (g a).run) :
    (steady action >>= f).run.run = some <$> (action >>= g).run := by
  rw [run_steady_bind, ExceptT.run_bind, map_bind]
  congr 1
  funext r
  cases r with
  | ok a => exact h a
  | error e => exact (map_pure (f := m) some (Except.error e)).symm

/-- What a call within a list fails with, the list fails with. -/
lemma run_within_bind (action : ExceptT Error m α) {f : α → ExceptT PageFault m β}
    {g : α → ExceptT Error m β} (h : ∀ a, (f a).run = Except.mapError .failed <$> (g a).run) :
    (list.within action >>= f).run = Except.mapError .failed <$> (action >>= g).run := by
  have hrun : (list.within action).run = Except.mapError .failed <$> action.run := rfl
  rw [ExceptT.run_bind, hrun, bind_map_left, ExceptT.run_bind, map_bind]
  congr 1
  funext r
  cases r with
  | ok a => exact h a
  | error e => exact (map_pure (f := m) (Except.mapError PageFault.failed) (Except.error e)).symm

/-- The page that a search finds. -/
def searched (l : Ledger m) (q : Query) (filter : Filter) (selection : Selection) :
    ExceptT Error m Page := do
  let total ← l.documents.count q.view filter
  let docs ← l.documents.find q.view filter selection
  let items ← settled (executionsOf q.latest docs)
  return { items, total }

section Lists

variable (l : Ledger m) {q : Query} {filter : Filter} (page : Nat) {size : Nat} (sort : List SortKey)

/-- A listing with a filter searches, and fails only as the search does. -/
lemma run_list_of_filter (hsize : size ≠ 0) (hfilter : q.filter? = some filter) :
    (l.list q page size sort).run
      = Except.mapError .failed <$> (l.searched q filter (selectionOf page size sort)).run := by
  simp only [Ledger.list, hfilter, if_neg hsize]
  refine run_within_bind _ fun total => ?_
  refine run_within_bind _ fun docs => ?_
  refine run_within_bind _ fun items => ?_
  exact (map_pure (f := m) (Except.mapError PageFault.failed) (Except.ok _)).symm

/-- A listing in words searches as well, for any page number that is a word. -/
lemma run_listInWords_of_filter {page : Nat} (hpage : page < 2 ^ 64) (hsize : size ≠ 0)
    (hfilter : q.filter? = some filter) :
    (l.listInWords q page size sort).run.run
      = some <$> (l.searched q filter (selectionOf page size sort)).run := by
  simp only [listInWords, if_neg hsize, q.filterInWords?_eq, hfilter, skipInWords?_eq hpage]
  refine (run_reckoned_bind _ _).trans ?_
  refine run_steady_same _ fun total => ?_
  refine (run_reckoned_bind _ _).trans ?_
  refine run_steady_same _ fun docs => ?_
  refine run_steady_same _ fun items => ?_
  exact (map_pure (f := m) some (Except.ok _)).symm

/-- **A list breaks down at the end of the calendar**, where the library reports that, and nowhere else:
any other list has an answer, whatever the store. -/
theorem listInWords_cases (q : Query) {page : Nat} (hpage : page < 2 ^ 64) (size : Nat)
    (sort : List SortKey) :
    (size ≠ 0 ∧ q.filter? = none) ∧ (l.listInWords q page size sort).run.run = pure none
        ∧ (l.list q page size sort).run = pure (.error .endOfCalendar)
      ∨ ¬ (size ≠ 0 ∧ q.filter? = none) ∧ ∃ answer : ExceptT Error m Page,
        (l.listInWords q page size sort).run.run = some <$> answer.run
        ∧ (l.list q page size sort).run = Except.mapError .failed <$> answer.run := by
  by_cases hsize : size = 0
  · refine Or.inr ⟨fun h => h.1 hsize, throw emptyPage, ?_, ?_⟩
    · simp [listInWords, hsize]
    · simp [Ledger.list, hsize, Except.mapError]
  cases hfilter : q.filter? with
  | none =>
      refine Or.inl ⟨⟨hsize, rfl⟩, ?_, ?_⟩
      · simp only [listInWords, if_neg hsize, q.filterInWords?_eq, hfilter]
        exact run_reckoned_bind _ _
      · simp [Ledger.list, hsize, hfilter]
  | some filter =>
      refine Or.inr ⟨fun h => Option.some_ne_none _ h.2,
        l.searched q filter (selectionOf page size sort), ?_, ?_⟩
      · exact l.run_listInWords_of_filter sort hpage hsize hfilter
      · exact l.run_list_of_filter page sort hsize hfilter

end Lists

/-! ## Sweeps -/

lemma run_settled_bind (r : Outcome α) (f : α → ExceptT Error m β) :
    (settled r >>= f).run = match r with
      | .ok a => (f a).run
      | .error e => pure (.error e) := by
  rw [ExceptT.run_bind, settled, ExceptT.run_mk, pure_bind]
  cases r <;> rfl

/-- **A sweep never breaks down**, whatever the store and whatever its clock shows. -/
theorem run_sweepInWords (l : Ledger m) {w : Window} (hnanos : w.nanos < 1000000000) :
    (l.sweepInWords w).run.run = some <$> (l.sweep w).run := by
  rw [sweepInWords, sweep, sweepFilter, bind_assoc]
  refine run_steady_same _ fun _ => ?_
  rw [bind_assoc]
  refine run_steady_same _ fun now => ?_
  rw [bind_assoc, run_reckoned_bind, run_settled_bind, cutoffInWords?_eq now hnanos]
  cases cutoff now w with
  | error e => exact (map_pure (f := m) some (Except.error e)).symm
  | ok t =>
      simp only [now.instantInWords?_eq, pure_bind]
      exact run_reckoned_bind _ _

end Ledger

/-! ## Tallies of days -/

/-- Where nothing was added yet, a tally that can be read is the sum. -/
lemma Tally.absorbInWords?_ofDay {c : Count} (hfit : c.Fits) (day : String) :
    (ofDay day).absorbInWords? c.tally = some ((ofDay day).absorb c.tally) := by
  simp only [Count.Fits] at hfit
  have htotal : signed? (0 + ((c.succeeded + c.failed : Nat) : Int))
      = some (0 + ((c.succeeded + c.failed : Nat) : Int)) := signed?_eq (by omega)
  have hsucceeded : signed? (0 + (c.succeeded : Int)) = some (0 + (c.succeeded : Int)) :=
    signed?_eq (by omega)
  have hfailed : signed? (0 + (c.failed : Int)) = some (0 + (c.failed : Int)) :=
    signed?_eq (by omega)
  simp only [absorbInWords?, absorb, ofDay, Count.tally, htotal, hsucceeded, hfailed,
    Option.bind_eq_bind, Option.bind_some]
  rfl

/-- **Where each day has one tally, adding up never breaks down.** -/
theorem foldlM_addByDayInWords? {counts : List Count} {sums : Table Tally}
    (hn : (counts.map Count.period).Nodup) (hfit : ∀ c ∈ counts, c.Fits)
    (hnew : ∀ c ∈ counts, ∀ day, c.period = .day day → sums.get? day = none) :
    (counts.map Count.tally).foldlM addByDayInWords? sums
      = some ((counts.map Count.tally).foldl addByDay sums) := by
  induction counts generalizing sums with
  | nil => rfl
  | cons c rest ih =>
      obtain ⟨hc, hrest⟩ := List.nodup_cons.mp hn
      have hstep : addByDayInWords? sums c.tally = some (addByDay sums c.tally) := by
        rw [addByDayInWords?, addByDay]
        cases hperiod : c.period with
        | allTime => simp [Count.tally, hperiod, Period.date?]
        | day day =>
            have hdate : c.tally.date = some day := by rw [Count.tally, hperiod, Period.date?]
            simp only [hdate, hnew c List.mem_cons_self day hperiod, Option.getD_none,
              Tally.absorbInWords?_ofDay (hfit c List.mem_cons_self)]
            rfl
      rw [List.map_cons, List.foldlM_cons, hstep, List.foldl_cons]
      refine ih hrest (fun d hd => hfit d (List.mem_cons_of_mem c hd)) ?_
      intro d hd day hday
      have hold := hnew d (List.mem_cons_of_mem c hd) day hday
      rw [addByDay]
      cases hdate : c.tally.date with
      | none => exact hold
      | some other =>
          have hne : other ≠ day := by
            rintro rfl
            refine hc (List.mem_map.mpr ⟨d, hd, ?_⟩)
            rw [hday]
            cases hperiod : c.period with
            | allTime => simp [Count.tally, hperiod, Period.date?] at hdate
            | day key => simpa [Count.tally, hperiod, Period.date?] using hdate.symm
          rwa [Table.get?_insert, if_neg hne]

/-! ## Comparing -/

/-- Comparisons of documents do not contradict each other: turned around they are opposite, and what is
not later than something is not later than whatever that is not later than. -/
def Consistent (keys : List SortKey) (docs : List Document) : Prop :=
  (∀ a ∈ docs, ∀ b ∈ docs, Document.order keys b a = (Document.order keys a b).swap)
    ∧ ∀ a ∈ docs, ∀ b ∈ docs, ∀ c ∈ docs, Document.order keys a b ≠ .gt →
      Document.order keys b c ≠ .gt → Document.order keys a c ≠ .gt

/-- Documents with values of one kind for each key can be sorted. -/
lemma Uniform.consistent {keys : List SortKey} {docs : List Document} (h : Uniform keys docs) :
    Consistent keys docs := by
  refine ⟨fun a ha b hb => Document.order_swap h ha hb, ?_⟩
  -- at later and later places, not later means earlier
  have hiff {a b : Document} (ha : a ∈ docs) (hb : b ∈ docs) {i j : Nat} (hij : i < j) :
      Document.order keys a b ≠ .gt ↔ Earlier keys (a, i) (b, j) := by
    rw [Document.earlier_iff h ha hb, Nat.compare_eq_lt.mpr hij]
    cases Document.order keys a b <;> simp
  intro a ha b hb c hc hab hbc
  have hearlier := ((hiff ha hb (by omega : 0 < 1)).mp hab).trans
    ((hiff hb hc (by omega : 1 < 2)).mp hbc)
  exact (hiff ha hc (by omega)).mpr hearlier

/-- What a query looks at can be sorted by any keys. -/
lemma Books.Kept.consistent_view {b : Books} {s : Memory} (h : b.Kept s) (q : Query)
    (keys : List SortKey) : Consistent keys (s.rows q.view) := by
  rw [h.rows_view q]
  exact (uniform_spell q.latest keys _).consistent

lemma Books.Kept.consistent_tallies {b : Books} {s : Memory} (h : b.Kept s) :
    Consistent [.up "date"] (s.rows tallies) := by
  refine Uniform.consistent fun k hk => ⟨.text, fun d hd => ?_⟩
  obtain ⟨c, -, hshown⟩ := exists_of_forall₂ h.counts hd
  rw [List.mem_singleton.mp hk, SortKey.value, SortKey.up, Document.getOrNull, hshown.date]
  cases c.period.date? with
  | none => exact Json.OfKind.null
  | some key => exact Json.OfKind.text key

/-! ## What breaks down -/

/-- Only a query up to the last day of the calendar has no filter. -/
lemma Query.filter?_eq_none_iff {q : Query} : q.filter? = none ↔ q.lastDay = some Date.last := by
  constructor
  · intro hnone
    by_contra hday
    obtain ⟨filter, hfilter⟩ := exists_filter hday
    rw [hnone] at hfilter
    cases hfilter
  · intro hday
    rw [filter?, hday]
    rfl

section InMemory

variable {α β : Type}

lemma run_steady_of_ok {action : ExceptT Error (StateM Memory) α}
    {f : α → Reckoning (StateM Memory) β} {s s' : Memory} {a : α} (h : action.run.run s = (.ok a, s')) :
    (steady action >>= f).run.run.run s = (f a).run.run.run s' := by
  rw [run_steady_bind, StateT.run_bind, h]
  rfl

/-- **The tallies of days never break down** where a store keeps books. -/
theorem Books.Kept.run_dailyStatsInWords {b : Books} {s : Memory} (h : b.Kept s) (htidy : b.Tidy)
    (hfit : ∀ key, (b.countOf (.day key)).Fits) (clock : Reading) (fresh : FreshId)
    (first last : Date) : ∃ answer : Outcome (List Tally),
      ((inMemory clock fresh).dailyStatsInWords first last).run.run.run s = (some answer, s)
      ∧ ((inMemory clock fresh).dailyStats first last).run.run s = (answer, s) := by
  rw [dailyStatsInWords, run_reckoned_bind, Date.throughInWords?_eq]
  cases hdays : Date.through first last with
  | error e => exact ⟨.error e, rfl, run_dailyStats_refused clock fresh s hdays⟩
  | ok days =>
      obtain ⟨counts, hperm, hfits, htallies⟩ :=
        h.talliesOf_days htidy fun key (_ : key ∈ days.map Date.text) => hfit key
      have hn : (counts.map Count.period).Nodup :=
        ((hperm.map Count.period).nodup_iff).mpr
          (htidy.counts.sublist (List.Sublist.map _ List.filter_sublist))
      have hnew : ∀ c ∈ counts, ∀ day, c.period = .day day →
          Table.get? ([] : Table Tally) day = none := fun _ _ _ _ => rfl
      have hsums := foldlM_addByDayInWords? hn hfits hnew
      have hfound : ((inMemory clock fresh).documents.find tallies (daysFilter (days.map Date.text))
          { sort := [.up "date"] }).run.run s
          = (.ok (s.find tallies (daysFilter (days.map Date.text)) { sort := [.up "date"] }), s) :=
        rfl
      have hread : (settled (talliesOf (s.find tallies (daysFilter (days.map Date.text))
          { sort := [.up "date"] })) : ExceptT Error (StateM Memory) (List Tally)).run.run s
          = (.ok (counts.map Count.tally), s) := by
        rw [htallies]
        rfl
      rw [FleetLedger.run_dailyStats clock fresh s hdays, htallies]
      refine ⟨_, (run_steady_of_ok hfound).trans ((run_steady_of_ok hread).trans ?_), rfl⟩
      rw [run_reckoned_bind, hsums]
      rfl

end InMemory

/-- **Nothing but the end of the calendar breaks a call down.**  Whatever was done to the ledger, a list
has an answer, a result or an error, for any days, page, size and order, unless its query ends on the last
day of the calendar: then nothing is answered, though the page is not empty.  The tallies of a range have
an answer for any two dates, and so has a sweep for any window and whatever the clock shows.  The answers
are those of the library.  Sorting compares without contradictions.

What was recorded is counted in 63 bits. -/
theorem only_end_of_calendar_breaks_down (turns : List Turn)
    (hfit : (recordings turns).length < 2 ^ 63) (clock : Reading) (fresh : FreshId) :
    (∀ (q : Query) (page size : Nat) (sort : List SortKey), page < 2 ^ 64 →
      Consistent (sortKeys sort) ((run turns).rows q.view)
      ∧ if size ≠ 0 ∧ q.lastDay = some Date.last then
          ((inMemory clock fresh).listInWords q page size sort).run.run.run (run turns)
            = (none, run turns)
        else ∃ (answer : Outcome Page) (s : Memory),
          ((inMemory clock fresh).listInWords q page size sort).run.run.run (run turns)
            = (some answer, s)
          ∧ ((inMemory clock fresh).list q page size sort).run.run (run turns)
            = (answer.mapError .failed, s))
      ∧ (∀ first last : Date, Consistent [.up "date"] ((run turns).rows tallies)
        ∧ ∃ answer : Outcome (List Tally),
          ((inMemory clock fresh).dailyStatsInWords first last).run.run.run (run turns)
            = (some answer, run turns)
          ∧ ((inMemory clock fresh).dailyStats first last).run.run (run turns)
            = (answer, run turns))
      ∧ ∀ w : Window, w.nanos < 1000000000 → ∃ (answer : Outcome Nat) (s : Memory),
        ((inMemory clock fresh).sweepInWords w).run.run.run (run turns) = (some answer, s)
        ∧ ((inMemory clock fresh).sweep w).run.run (run turns) = (answer, s) := by
  have hkept := kept_run turns
  have htidy := tidy_booksOf turns
  refine ⟨?_, ?_, ?_⟩
  · intro q page size sort hpage
    refine ⟨hkept.consistent_view q _, ?_⟩
    rcases (inMemory clock fresh).listInWords_cases q hpage size sort with
      ⟨hend, hwords, -⟩ | ⟨hend, answer, hwords, hlist⟩ <;> rw [Query.filter?_eq_none_iff] at hend
    · rw [if_pos hend, hwords]
      rfl
    · rw [if_neg hend, hwords, hlist]
      exact ⟨_, _, rfl, rfl⟩
  · intro first last
    have hcounts : ∀ key, ((booksOf turns).countOf (.day key)).Fits := fun key =>
      countOf_booksOf turns (.day key) ▸ Count.fits_of hfit (.day key)
    exact ⟨hkept.consistent_tallies,
      hkept.run_dailyStatsInWords htidy hcounts clock fresh first last⟩
  · intro w hnanos
    rw [(inMemory clock fresh).run_sweepInWords hnanos]
    exact ⟨_, _, rfl, rfl⟩

/-- The first day of the calendar. -/
def Date.first : Date where
  count := firstCount
  first_le := Int.le_refl _
  le_last := by decide

/-- All that ended by the last day of the calendar. -/
def byLastDay : Query := { lastDay := some Date.last }

/-- After the two days a list by the last day breaks down, while the longest window there is, and the
whole calendar, have answers. -/
theorem breakdowns_twoDays : (recordings twoDays).length < 2 ^ 63
    ∧ ∀ (clock : Reading) (fresh : FreshId),
      ((inMemory clock fresh).listInWords byLastDay 1 10 []).run.run.run (run twoDays)
        = (none, run twoDays)
      ∧ (∃ answer, ((inMemory clock fresh).dailyStatsInWords Date.first Date.last).run.run.run
          (run twoDays) = (some answer, run twoDays))
      ∧ ∃ answer s, ((inMemory clock fresh).sweepInWords
          { seconds := 18446744073709551615, nanos := 999999999 }).run.run.run (run twoDays)
            = (some answer, s) := by
  have hfit : (recordings twoDays).length < 2 ^ 63 := by decide
  refine ⟨hfit, fun clock fresh => ?_⟩
  obtain ⟨hlist, hdaily, hsweep⟩ := only_end_of_calendar_breaks_down twoDays hfit clock fresh
  obtain ⟨-, hbroken⟩ := hlist byLastDay 1 10 [] (by decide)
  obtain ⟨-, answer, hanswer, -⟩ := hdaily Date.first Date.last
  obtain ⟨swept, s, hswept, -⟩ :=
    hsweep { seconds := 18446744073709551615, nanos := 999999999 } (by decide)
  rw [if_pos ⟨by decide, rfl⟩] at hbroken
  exact ⟨hbroken, ⟨answer, hanswer⟩, swept, s, hswept⟩

/-- A list that is well asked for and has no answer. -/
theorem list_without_answer : ¬ ∀ (turns : List Turn) (clock : Reading) (fresh : FreshId) (q : Query)
    (page size : Nat) (sort : List SortKey), page < 2 ^ 64 → size < 2 ^ 64 →
    ∃ (answer : Outcome Page) (s : Memory),
      ((inMemory clock fresh).listInWords q page size sort).run.run.run (run turns)
        = (some answer, s) := by
  intro hanswered
  obtain ⟨answer, s, hanswer⟩ := hanswered twoDays backup.endTime.reading
    (RecordId.Source.fresh {} backup.endTime) byLastDay 1 10 [] (by decide) (by decide)
  cases hanswer

end FleetLedger
