import Mathlib.Algebra.BigOperators.Group.List.Basic
import FleetLedger.Proofs.Increments
import FleetLedger.Proofs.Readings

/-!
# Tallies add up whatever rows there are

The ledger keeps one row for each period.  What it reads does not rest on that: rows may come twice, in any
order, without a date, or belong to no tally at all, as when several services write to one collection or
rows were copied by hand.  **`stats_additive`** says what is read of any rows that can be read as tallies.
For all time it is the sum over all rows of that name, for a day the sum over all rows with just its key,
and it makes no difference how the counts are spread over rows (`Regrouped`).

A row that can be read gives the counts that its fields show, and zero for those it lacks
(`Document.eq_tally_of_decode`); so sums are taken of fields, without a decoder (`totalOf`).  A search for
several days finds a day's rows among those of others and sorts them, but it neither drops nor repeats one
(`tallyOf_found`).

Sums here have no bound; where they fit into 64 bits, they are those that are read.
-/

namespace FleetLedger

open Ledger

/-! ## Rows and what they count -/

namespace Document

/-- The text in a field; none if the field is missing or holds no text. -/
def text? (d : Document) (field : String) : Option String := (d.get? field).bind Json.string?

lemma text?_eq_some_iff {d : Document} {field s : String} :
    d.text? field = some s ↔ d.get? field = some (.string s) := by
  rw [text?, Option.bind_eq_some_iff]
  constructor
  · rintro ⟨v, hfield, hv⟩
    cases v with
    | string t => rwa [← Option.some.inj hv]
    | _ => cases hv
  · intro h
    exact ⟨_, h, rfl⟩

/-- What a row shows as a tally: a count that is missing is zero. -/
def tally (d : Document) : Tally where
  total := Update.count d "total"
  succeeded := Update.count d "successed"
  failed := Update.count d "failed"
  date := d.text? "date"

open Decoding in
/-- What a decoder reads as a counter is the count that an update finds. -/
lemma count_of_run {d : Document} {field : String} {n : Int}
    (h : (withDefault field 0 int64).run d = .ok n) : n = Update.count d field := by
  rw [Update.count]
  rcases exists_of_run_withDefault h with ⟨hfield, rfl⟩ | ⟨v, hfield, hread⟩
  · rw [hfield]
    rfl
  · cases v with
    | int m =>
        simp only [int64, integer] at hread
        split at hread
        case isTrue hm =>
            rw [hfield, Option.bind_some, Json.signed?, if_pos hm, ← Except.ok.inj hread]
            rfl
        case isFalse => cases hread
    | _ => cases hread

open Decoding in
lemma text?_of_run {d : Document} {field : String} {s : Option String}
    (h : (optional field string).run d = .ok s) : s = d.text? field := by
  rw [text?]
  rcases exists_of_run_withDefault h with ⟨hfield, rfl⟩ | ⟨v, hfield, hread⟩
  · rw [hfield]
    rfl
  · rw [hfield]
    cases v with
    | null => exact (Except.ok.inj hread).symm
    | string t => exact (Except.ok.inj hread).symm
    | _ => cases hread

open Decoding Decoder in
/-- **A row that can be read** gives the tally that it shows. -/
theorem eq_tally_of_decode {d : Document} {key : String} {t : Tally}
    (h : d.decode Tally.decoder key = .ok t) : t = d.tally := by
  obtain ⟨_, _, h₁, hdate, rfl⟩ := exists_of_run_seq (run_of_decode h)
  obtain ⟨_, _, h₂, hfailed, rfl⟩ := exists_of_run_seq h₁
  obtain ⟨_, _, h₃, hsucceeded, rfl⟩ := exists_of_run_seq h₂
  obtain ⟨_, htotal, rfl⟩ := exists_of_run_map h₃
  rw [tally, count_of_run htotal, count_of_run hsucceeded, count_of_run hfailed, text?_of_run hdate]

end Document

/-- The sum of a counter over some rows. -/
def totalOf (field : String) (rows : List Document) : Int :=
  (rows.map (Update.count · field)).sum

namespace Period

/-- A row is of a period if it has its name, and its key where it is a day. -/
def has (p : Period) (d : Document) : Bool :=
  d.text? "name" == some p.name && p.date?.all fun key => d.text? "date" == some key

/-- **The sum of all rows of a period.** -/
def summed (p : Period) (rows : List Document) : Tally where
  total := totalOf "total" (rows.filter p.has)
  succeeded := totalOf "successed" (rows.filter p.has)
  failed := totalOf "failed" (rows.filter p.has)
  date := p.date?

lemma has_allTime_iff {d : Document} :
    allTime.has d = true ↔ d.text? "name" = some Ledger.allTime := by
  simp [has, name, date?]

/-- The rows of a day carry the name of the daily counters and the text of the day. -/
lemma has_day_iff {key : String} {d : Document} :
    (day key).has d = true ↔ d.text? "name" = some daily ∧ d.text? "date" = some key := by
  simp [has, name, date?]

/-- The filter for a period selects its rows. -/
lemma holds_filter_eq_has (p : Period) (d : Document) : p.filter.holds d = p.has d := by
  rw [Bool.eq_iff_iff]
  cases p with
  | allTime => simp [filter, has, name, date?, Document.text?_eq_some_iff]
  | day key => simp [filter, has, name, date?, Document.text?_eq_some_iff]

end Period

lemma totalOf_append (field : String) (rows rows' : List Document) :
    totalOf field (rows ++ rows') = totalOf field rows + totalOf field rows' := by
  rw [totalOf, List.map_append, List.sum_append]
  rfl

lemma totalOf_perm (field : String) {rows rows' : List Document} (h : rows.Perm rows') :
    totalOf field rows = totalOf field rows' := (h.map _).sum_eq

/-! ## Rows that are spread otherwise -/

/-- Some rows stand for one: they have its name and its date, and their counts add up to its counts. -/
structure AddUpTo (parts : List Document) (row : Document) : Prop where
  name : ∀ d ∈ parts, d.text? "name" = row.text? "name"
  date : ∀ d ∈ parts, d.text? "date" = row.text? "date"
  counts : ∀ field ∈ ["total", "successed", "failed"],
    totalOf field parts = Update.count row field

/-- The same counts in other rows: rows may be reordered, and one may be split into several. -/
inductive Regrouped : List Document → List Document → Prop where
  | reordered {rows rows' : List Document} (h : rows.Perm rows') : Regrouped rows rows'
  | split {row : Document} {parts rest : List Document} (h : AddUpTo parts row) :
      Regrouped (row :: rest) (parts ++ rest)
  | trans {rows rows' rows'' : List Document} (h : Regrouped rows rows')
      (h' : Regrouped rows' rows'') : Regrouped rows rows''

/-- Where some rows add up to one, they do so for each period, as all of them are of the same. -/
lemma AddUpTo.totalOf_filter {parts : List Document} {row : Document} (h : AddUpTo parts row)
    (p : Period) {field : String} (hfield : field ∈ ["total", "successed", "failed"]) :
    totalOf field (parts.filter p.has) = totalOf field ([row].filter p.has) := by
  have hsame : ∀ d ∈ parts, p.has d = p.has row := fun d hd => by
    rw [Period.has, Period.has, h.name d hd, h.date d hd]
  rw [List.filter_congr hsame]
  cases hrow : p.has row with
  | false => simp [hrow]
  | true =>
      have hcounts := h.counts field hfield
      simpa [hrow, totalOf] using hcounts

/-- **Sums do not depend on how counts are spread** over rows. -/
theorem Regrouped.totalOf_eq {rows rows' : List Document} (h : Regrouped rows rows') (p : Period)
    {field : String} (hfield : field ∈ ["total", "successed", "failed"]) :
    totalOf field (rows.filter p.has) = totalOf field (rows'.filter p.has) := by
  induction h with
  | reordered h => exact totalOf_perm field (h.filter p.has)
  | @split row parts rest h =>
      rw [List.filter_append, totalOf_append, h.totalOf_filter p hfield, ← totalOf_append,
        ← List.filter_append, List.singleton_append]
  | trans _ _ ih ih' => exact ih.trans ih'

/-- **Regrouping counts** among rows of the same period leaves the sums of every period. -/
theorem Regrouped.summed_eq {rows rows' : List Document} (h : Regrouped rows rows') (p : Period) :
    p.summed rows = p.summed rows' := by
  rw [Period.summed, Period.summed, Tally.mk.injEq]
  exact ⟨h.totalOf_eq p (by simp), h.totalOf_eq p (by simp), h.totalOf_eq p (by simp), rfl⟩

/-! ## What is read -/

/-- Absorbing rows one after another adds the totals of their fields. -/
lemma foldl_absorb_tally (rows : List Document) (t : Tally) :
    (rows.map Document.tally).foldl Tally.absorb t
      = { t with
          total := t.total + totalOf "total" rows
          succeeded := t.succeeded + totalOf "successed" rows
          failed := t.failed + totalOf "failed" rows } := by
  induction rows generalizing t with
  | nil => simp [totalOf]
  | cons d rows ih =>
      rw [List.map_cons, List.foldl_cons, ih]
      simp [Tally.absorb, Document.tally, totalOf, Int.add_assoc]

/-- Where every row can be read, what is read of each is its tally. -/
lemma talliesOf_of_forall {rows : List Document}
    (h : ∀ d ∈ rows, ∃ t, d.decode Tally.decoder tallies = .ok t) :
    talliesOf rows = .ok (rows.map Document.tally) := by
  refine mapM_ok_of_forall₂ (List.forall₂_map_right_iff.mpr (List.forall₂_same.mpr ?_))
  intro d hd
  obtain ⟨t, ht⟩ := h d hd
  rw [ht, Document.eq_tally_of_decode ht]

/-- The filter for some days selects the rows of these days. -/
lemma holds_daysFilter_iff {keys : List String} {d : Document} :
    (daysFilter keys).holds d = true
      ↔ d.text? "name" = some daily ∧ ∃ key ∈ keys, d.text? "date" = some key := by
  simp [daysFilter, Document.text?_eq_some_iff]

/-- **A search for days finds the rows of each of them**, in some order and among others. -/
theorem tallyOf_found {rows found : List Document} {keys : List String} {key : String}
    (hkey : key ∈ keys) (hfound : found.Perm (rows.filter (daysFilter keys).holds)) :
    tallyOf (found.map Document.tally) key = (Period.day key).summed rows := by
  have hdate : ((fun t : Tally => t.date == some key) ∘ Document.tally)
      = fun d : Document => d.text? "date" == some key := rfl
  have hrows : (rows.filter (daysFilter keys).holds).filter (fun d => d.text? "date" == some key)
      = rows.filter (Period.day key).has := by
    rw [List.filter_filter]
    refine List.filter_congr fun d _ => ?_
    rw [Bool.eq_iff_iff, Bool.and_eq_true, beq_iff_eq, holds_daysFilter_iff, Period.has_day_iff]
    exact ⟨fun h => ⟨h.2.1, h.1⟩, fun h => ⟨h.2, h.1, key, hkey, h.2⟩⟩
  have hperm : (found.filter fun d => d.text? "date" == some key).Perm
      (rows.filter (Period.day key).has) := hrows ▸ hfound.filter _
  rw [tallyOf, List.filter_map, hdate, foldl_absorb_tally, Period.summed]
  simp only [Tally.ofDay, totalOf_perm _ hperm, Int.zero_add]
  rfl

/-- All rows with the name of a tally can be read as one. -/
def Memory.TalliesReadable (s : Memory) : Prop :=
  ∀ d ∈ s.rows tallies, d.text? "name" = some allTime ∨ d.text? "name" = some daily →
    ∃ t, d.decode Tally.decoder tallies = .ok t

section Readable

variable {s : Memory} (hread : s.TalliesReadable) (clock : Reading) (fresh : FreshId)
include hread

/-- Statistics of all time are the sums over the rows of all time. -/
lemma run_stats_readable : (inMemory clock fresh).stats.run.run s
    = (.ok (Period.allTime.summed (s.rows tallies)), s) := by
  have hfound : s.find tallies (.eqString "name" allTime) {}
      = (s.rows tallies).filter Period.allTime.has := by
    rw [find_unsorted]
    exact List.filter_congr fun d _ => Period.allTime.holds_filter_eq_has d
  have htallies : talliesOf ((s.rows tallies).filter Period.allTime.has) = .ok _ :=
    talliesOf_of_forall fun d hd => by
      obtain ⟨hmem, hhas⟩ := List.mem_filter.mp hd
      exact hread d hmem (Or.inl (Period.has_allTime_iff.mp hhas))
  rw [run_stats, hfound, htallies]
  refine congrArg (fun t => (Except.ok t, s)) ((foldl_absorb_tally _ _).trans ?_)
  simp [Period.summed, Period.date?]

/-- Statistics by the day are, for each day, the sums over the rows of that day. -/
lemma run_dailyStats_readable {first last : Date} {days : List Date}
    (hdays : Date.through first last = .ok days) :
    ((inMemory clock fresh).dailyStats first last).run.run s
      = (.ok (days.map fun d => (Period.day d.text).summed (s.rows tallies)), s) := by
  have hfound := find_sorted s tallies (daysFilter (days.map Date.text)) [.up "date"]
  have htallies := talliesOf_of_forall fun d hd => by
    obtain ⟨hmem, hholds⟩ := List.mem_filter.mp (hfound.mem_iff.mp hd)
    exact hread d hmem (Or.inr (holds_daysFilter_iff.mp hholds).1)
  rw [run_dailyStats_of_tallies clock fresh s hdays htallies]
  refine congrArg (fun ts => (Except.ok ts, s)) (List.map_congr_left fun d hd => ?_)
  exact tallyOf_found (List.mem_map_of_mem hd) hfound

end Readable

/-- **Tallies add up whatever rows there are.**  Let all rows with the name of a tally be readable.  The
tally for all time is the sum over all rows with that name.  The tallies of a range of days are one for each
day from the first to the last, in order, and each is the sum over all rows of days that carry its key.
Neither depends on the order of rows, nor on the rows that counts are spread over.  A range that ends before
it begins is refused. -/
theorem stats_additive (s : Memory) (hread : s.TalliesReadable) (clock : Reading)
    (fresh : FreshId) :
    (inMemory clock fresh).stats.run.run s = (.ok (Period.allTime.summed (s.rows tallies)), s)
      ∧ (∀ first last : Date, first.count ≤ last.count → ∃ ts,
        ((inMemory clock fresh).dailyStats first last).run.run s = (.ok ts, s)
        ∧ (ts.length : Int) = last.count - first.count + 1
        ∧ ∀ i < ts.length, ∃ d : Date, d.count = first.count + i
          ∧ ts[i]? = some ((Period.day d.text).summed (s.rows tallies)))
      ∧ (∀ s' : Memory, s'.TalliesReadable → Regrouped (s.rows tallies) (s'.rows tallies) →
        ((inMemory clock fresh).stats.run.run s').1 = ((inMemory clock fresh).stats.run.run s).1
        ∧ ∀ first last : Date, (((inMemory clock fresh).dailyStats first last).run.run s').1
          = (((inMemory clock fresh).dailyStats first last).run.run s).1)
      ∧ ∀ first last : Date, last.count < first.count →
        ((inMemory clock fresh).dailyStats first last).run.run s
          = (.error (.validation
              ("End date " ++ last.text ++ " is before begin date " ++ first.text)), s) := by
  refine ⟨?_, ?_, ?_, ?_⟩
  · exact run_stats_readable hread clock fresh
  · intro first last hle
    have hdays := Date.through_eq_ok_iff.mpr ⟨hle, rfl⟩
    refine ⟨_, run_dailyStats_readable hread clock fresh hdays, ?_, fun i hi => ?_⟩
    · rw [List.length_map]
      exact Date.length_through hdays
    · rw [List.length_map] at hi
      refine ⟨_, Date.count_getElem_through hdays hi, ?_⟩
      rw [List.getElem?_map, List.getElem?_eq_getElem hi]
      rfl
  · intro s' hread' hrows
    refine ⟨?_, fun first last => ?_⟩
    · rw [run_stats_readable hread, run_stats_readable hread', hrows.summed_eq]
    · cases hdays : Date.through first last with
      | ok days =>
          rw [run_dailyStats_readable hread _ _ hdays, run_dailyStats_readable hread' _ _ hdays]
          simp only [hrows.summed_eq]
      | error e => rw [run_dailyStats_refused _ _ _ hdays, run_dailyStats_refused _ _ _ hdays]
  · intro first last hlt
    exact run_dailyStats_refused clock fresh s (if_pos hlt)

/-- The first day of the year 2000. -/
def newYear : Date := { count := 10957 }

/-- Two rows for all time and two for one day, a day without a date, and a row that is no tally. -/
def scatteredRows : List Document :=
  [[("name", .string "job"), ("successed", .int 2), ("total", .int 2)],
    [("date", .string newYear.text), ("failed", .int 1), ("name", .string "job-day"),
      ("total", .int 1)],
    [("name", .string "notes"), ("total", .string "none")],
    [("name", .string "job-day"), ("total", .int 7)],
    [("failed", .int 1), ("name", .string "job"), ("total", .int 1)],
    [("date", .string newYear.text), ("name", .string "job-day"), ("successed", .int 2),
      ("total", .int 2)]]

/-- A store with these rows, in whatever way they came about. -/
def scattered : Memory := Memory.insertMany {} tallies scatteredRows

/-- Two rows of all time are added up, and two of one day; the others do not count. -/
theorem stats_scattered : scattered.TalliesReadable ∧ ∀ (clock : Reading) (fresh : FreshId),
    (inMemory clock fresh).stats.run.run scattered
        = (.ok { total := 3, succeeded := 2, failed := 1 }, scattered)
      ∧ ∃ ts, ((inMemory clock fresh).dailyStats newYear newYear).run.run scattered
          = (.ok ts, scattered)
        ∧ ts[0]? = some { total := 3, succeeded := 2, failed := 1, date := some newYear.text } := by
  have hread : scattered.TalliesReadable := by
    have hrows : scattered.rows tallies = scatteredRows := rfl
    rw [Memory.TalliesReadable, hrows, scatteredRows]
    simp only [List.forall_mem_cons]
    refine ⟨fun _ => ⟨_, rfl⟩, fun _ => ⟨_, rfl⟩, fun h => ?_, fun _ => ⟨_, rfl⟩, fun _ => ⟨_, rfl⟩,
      fun _ => ⟨_, rfl⟩, List.forall_mem_nil _⟩
    exact absurd h (by decide)
  refine ⟨hread, fun clock fresh => ?_⟩
  obtain ⟨hstats, hdaily, -⟩ := stats_additive scattered hread clock fresh
  refine ⟨hstats.trans rfl, ?_⟩
  obtain ⟨ts, hrun, hlength, hall⟩ := hdaily newYear newYear (Int.le_refl _)
  obtain ⟨d, hcount, hentry⟩ := hall 0 (by omega)
  obtain rfl : d = newYear := Date.count_inj.mp hcount
  exact ⟨ts, hrun, hentry.trans rfl⟩

end FleetLedger
