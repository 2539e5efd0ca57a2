import Mathlib.Data.List.Perm.Basic
import FleetLedger.Proofs.DateText
import FleetLedger.Proofs.DayRanges
import FleetLedger.Proofs.Operations
import FleetLedger.Proofs.Postings

/-!
# Reading the tallies

Both ways to read tallies look up documents, decode them and add up what they find, as if there
could be several documents for one period.  Where a store keeps books there is at most one, and what
is read is its count: `Kept.run_stats` for all time, `Kept.run_dailyStats` for the days of a range.
The order in which a search returns the documents of several days makes no difference.

Days are added up in one pass, by their keys, and each sum is taken out once.  So the same key twice
would leave nothing for the second day, but the days of a range have different keys
(`nodup_texts`), and each gets the sum of its own tallies, `tallyOf` (`takeDays_foldl_addByDay`).

Counters that left the range of 63 bits cannot be read, so both need the counts to be within it
(`Count.Fits`).
-/

namespace FleetLedger

open Ledger

/-- The count can be read. -/
def Count.Fits (c : Count) : Prop := c.succeeded + c.failed < 2 ^ 63

/-- A document shows some count of a list. -/
abbrev Shows (docs : List Document) (counts : List Count) : Prop :=
  List.Forall₂ (fun d c => Count.Shown c d) docs counts

/-- The store has counted so many executions for a period: there is one document, which shows that,
or none where there was nothing to count. -/
def Memory.Counted (s : Memory) (c : Count) : Prop :=
  (s.rows tallies).filter c.period.filter.holds = [] ∧ c.succeeded = 0 ∧ c.failed = 0
    ∨ ∃ d, (s.rows tallies).filter c.period.filter.holds = [d] ∧ c.Shown d

/-! ## Sums by day -/

/-- All that was tallied for a day. -/
def tallyOf (all : List Tally) (day : String) : Tally :=
  (all.filter (·.date == some day)).foldl Tally.absorb (.ofDay day)

/-- What one pass adds for a day are the tallies of that day, in order. -/
lemma get?_foldl_addByDay (all : List Tally) (sums : Table Tally) (day : String) :
    ((all.foldl addByDay sums).get? day).getD (.ofDay day)
      = (all.filter (·.date == some day)).foldl Tally.absorb ((sums.get? day).getD (.ofDay day)) := by
  induction all generalizing sums with
  | nil => rfl
  | cons t rest ih =>
      rw [List.foldl_cons, ih, addByDay, List.filter_cons]
      cases hdate : t.date with
      | none => rfl
      | some other =>
          by_cases hday : other = day
          · subst hday
            simp [Table.get?_insert]
          · simp [Table.get?_insert, hday]

/-- Where no day comes twice, each finds what there is for it. -/
lemma takeDays_eq {days : List String} (hn : days.Nodup) (sums : Table Tally) :
    takeDays sums days = days.map fun day => (sums.get? day).getD (.ofDay day) := by
  induction days generalizing sums with
  | nil => rfl
  | cons day days ih =>
      obtain ⟨hday, hdays⟩ := List.nodup_cons.mp hn
      rw [takeDays, ih hdays, List.map_cons]
      refine congrArg _ (List.map_congr_left fun other hother => ?_)
      have hne : day ≠ other := fun he => hday (he ▸ hother)
      rw [Table.get?_erase, if_neg hne]

/-- **Each day gets the sum of its own tallies.** -/
theorem takeDays_foldl_addByDay {days : List String} (hn : days.Nodup) (all : List Tally) :
    takeDays (all.foldl addByDay []) days = days.map (tallyOf all) := by
  rw [takeDays_eq hn]
  exact List.map_congr_left fun day _ => get?_foldl_addByDay all [] day

/-- The days of a range have different texts. -/
lemma nodup_texts {first last : Date} {days : List Date}
    (hdays : Date.through first last = .ok days) : (days.map Date.text).Nodup := by
  refine List.pairwise_map.mpr ((Date.pairwise_through hdays).imp fun {d d'} hlt htext => ?_)
  rw [Date.text_injective htext] at hlt
  omega

/-- Where all that a search finds can be read, the days of a range get what was tallied for them. -/
lemma run_dailyStats_of_tallies (clock : Reading) (fresh : FreshId) (s : Memory)
    {first last : Date} {days : List Date} (hdays : Date.through first last = .ok days)
    {all : List Tally} (hall : talliesOf (s.find tallies (daysFilter (days.map Date.text))
      { sort := [.up "date"] }) = .ok all) :
    ((inMemory clock fresh).dailyStats first last).run.run s
      = (.ok (days.map fun d => tallyOf all d.text), s) := by
  have hsums := takeDays_foldl_addByDay (nodup_texts hdays) all
  rw [List.map_map] at hsums
  rw [run_dailyStats clock fresh s hdays, hall]
  exact congrArg (fun ts => (Except.ok ts, s)) hsums

/-! ## Lists of tallies -/

/-- Rows that show counts are read as their tallies. -/
lemma talliesOf_eq {docs : List Document} {counts : List Count} (h : Shows docs counts)
    (hfit : ∀ c ∈ counts, c.Fits) : talliesOf docs = .ok (counts.map Count.tally) := by
  refine mapM_ok_of_forall₂ (List.forall₂_map_right_iff.mpr ?_)
  induction h with
  | nil => exact List.Forall₂.nil
  | @cons d c docs counts hd hrest ih =>
      have hdecode := hd.decode (hfit c List.mem_cons_self)
      refine List.Forall₂.cons ?_ (ih fun c hc => hfit c (List.mem_cons_of_mem _ hc))
      rw [Document.decode, hdecode]
      rfl

lemma Shows.of_perm {docs docs' : List Document} {counts : List Count} (h : Shows docs counts)
    (hp : docs'.Perm docs) : ∃ counts', counts'.Perm counts ∧ Shows docs' counts' := by
  obtain ⟨counts', hdocs, hcounts⟩ := List.perm_comp_forall₂ hp h
  exact ⟨counts', hcounts, hdocs⟩

/-- Selecting rows and counts alike, the rows still show the counts. -/
lemma Shows.filter {docs : List Document} {counts : List Count} (h : Shows docs counts)
    {p : Document → Bool} {q : Count → Bool}
    (hpq : ∀ d c, Count.Shown c d → (p d = true ↔ q c = true)) :
    Shows (docs.filter p) (counts.filter q) :=
  List.rel_filter (fun {d c} hd => hpq d c hd) h

/-- The filter for some days selects the counts of these days. -/
lemma Count.Shown.holds_daysFilter {c : Count} {d : Document} (h : c.Shown d)
    (keys : List String) :
    (daysFilter keys).holds d = true ↔ ∃ key ∈ keys, c.period = .day key := by
  simp only [daysFilter, Filter.holds_and, List.all_cons, List.all_nil, Bool.and_true,
    Bool.and_eq_true, Filter.holds_eqString, Filter.holds_oneOf, h.name, h.date]
  cases c.period <;> simp [Period.name, Period.date?, Ledger.allTime, Ledger.daily]

lemma perm_sort (keys : List SortKey) (docs : List Document) :
    (Document.sort keys docs).Perm docs := List.mergeSort_perm _ _

lemma find_unsorted (s : Memory) (c : String) (f : Filter) :
    s.find c f {} = (s.rows c).filter f.holds := by
  simp [Memory.find, Selection.apply]

/-- A search with an order has what the filter selects, each once. -/
lemma find_sorted (s : Memory) (c : String) (f : Filter) (keys : List SortKey) :
    (s.find c f { sort := keys }).Perm ((s.rows c).filter f.holds) := by
  simp only [Memory.find, Selection.apply, List.drop_zero, List.foldl_nil, List.map_id']
  split
  · exact List.Perm.refl _
  · exact perm_sort keys _

namespace Books

variable {b : Books} {s : Memory}

/-- The rows of a period show its count, if there is one. -/
lemma Kept.shows_period (h : b.Kept s) (htidy : b.Tidy) (p : Period) :
    Shows ((s.rows tallies).filter p.filter.holds) (b.counts.find? (·.period = p)).toList := by
  rw [← filter_key_eq htidy.counts p]
  exact Shows.filter h.counts fun d c hd => by rw [hd.holds_filter, decide_eq_true_iff]

/-- **A period has at most one document.** -/
theorem Kept.length_period_le_one (h : b.Kept s) (htidy : b.Tidy) (p : Period) :
    ((s.rows tallies).filter p.filter.holds).length ≤ 1 := by
  rw [(h.shows_period htidy p).length_eq]
  cases b.counts.find? (·.period = p) <;> simp

/-- What is stored has counted what the books have. -/
lemma Kept.counted (h : b.Kept s) (htidy : b.Tidy) (p : Period) : s.Counted (b.countOf p) := by
  have hshows := h.shows_period htidy p
  have hperiod := b.period_countOf p
  rw [Memory.Counted, hperiod, countOf]
  cases hfound : b.counts.find? (·.period = p) with
  | none =>
      rw [hfound] at hshows
      exact Or.inl ⟨List.forall₂_nil_right_iff.mp hshows, rfl, rfl⟩
  | some c =>
      rw [hfound] at hshows
      obtain ⟨d, _, hd, hrest, hdocs⟩ := List.forall₂_cons_right_iff.mp hshows
      rw [List.forall₂_nil_right_iff.mp hrest] at hdocs
      exact Or.inr ⟨d, hdocs, hd⟩

/-- In tidy books the count of a period is the one in its row. -/
lemma Tidy.countOf_of_mem (h : b.Tidy) {c : Count} (hc : c ∈ b.counts) :
    b.countOf c.period = c := by
  rw [countOf, (find?_key_eq_some_iff h.counts).mpr ⟨hc, rfl⟩]
  rfl

/-- Adding up what there is for a period gives its count. -/
lemma foldl_absorb_find? (b : Books) (p : Period) :
    ((b.counts.find? (·.period = p)).toList.map Count.tally).foldl Tally.absorb { date := p.date? }
      = (b.countOf p).tally := by
  simp only [countOf]
  cases h : b.counts.find? (·.period = p) with
  | none => simp [Count.tally]
  | some c =>
      have hperiod : c.period = p := by simpa using List.find?_some h
      simp [Count.tally, Tally.absorb, hperiod]

/-- **The tally for all time is its count.** -/
theorem Kept.run_stats (h : b.Kept s) (htidy : b.Tidy) (hfit : (b.countOf .allTime).Fits)
    (clock : Reading) (fresh : FreshId) :
    (inMemory clock fresh).stats.run.run s = (.ok (b.countOf .allTime).tally, s) := by
  have hfound : s.find tallies (.eqString "name" allTime) {}
      = (s.rows tallies).filter Period.allTime.filter.holds := find_unsorted ..
  have htallies := talliesOf_eq (h.shows_period htidy .allTime) fun c hc => by
    rw [Option.mem_toList] at hc
    rwa [countOf, hc] at hfit
  rw [FleetLedger.run_stats, hfound, htallies]
  exact congrArg (fun t => (Except.ok t, s)) (b.foldl_absorb_find? .allTime)

/-- Of the counts that a search for days finds, in whatever order, those of one day add up to its
count. -/
lemma tallyOf_perm (htidy : b.Tidy) {keys : List String} {key : String} (hkey : key ∈ keys)
    {counts : List Count}
    (hp : counts.Perm (b.counts.filter fun c => ∃ key ∈ keys, c.period = .day key)) :
    tallyOf (counts.map Count.tally) key = (b.countOf (.day key)).tally := by
  have hday : (b.counts.filter fun c => ∃ key ∈ keys, c.period = .day key).filter
      (fun c => c.period = .day key) = (b.counts.find? (·.period = .day key)).toList := by
    rw [List.filter_filter, ← filter_key_eq htidy.counts]
    refine List.filter_congr fun c _ => ?_
    rw [Bool.and_eq_left_iff_imp]
    simpa using fun hc => ⟨key, hkey, hc⟩
  have hdate : ((fun t : Tally => t.date == some key) ∘ Count.tally)
      = fun c : Count => decide (c.period = .day key) := by
    funext c
    rw [Bool.eq_iff_iff, Function.comp_apply, beq_iff_eq, decide_eq_true_iff]
    cases hc : c.period <;> simp [Count.tally, Period.date?, hc]
  -- one count at most is of the day, so the order of the others makes no difference
  have hone : counts.filter (fun c => c.period = .day key)
      = (b.counts.find? (·.period = .day key)).toList := by
    have hperm := hp.filter fun c => decide (c.period = .day key)
    rw [hday] at hperm
    cases hfound : b.counts.find? (·.period = .day key) with
    | none =>
        rw [hfound] at hperm
        exact hperm.eq_nil
    | some c =>
        rw [hfound] at hperm
        exact List.perm_singleton.mp hperm
  rw [tallyOf, List.filter_map, hdate, hone]
  exact b.foldl_absorb_find? (.day key)

/-- A search for days finds their counts, in whatever order, and they can be read. -/
lemma Kept.talliesOf_days (h : b.Kept s) (htidy : b.Tidy) {keys : List String}
    (hfit : ∀ key ∈ keys, (b.countOf (.day key)).Fits) : ∃ counts : List Count,
      counts.Perm (b.counts.filter fun c => ∃ key ∈ keys, c.period = .day key)
      ∧ (∀ c ∈ counts, c.Fits)
      ∧ talliesOf (s.find tallies (daysFilter keys) { sort := [.up "date"] })
        = .ok (counts.map Count.tally) := by
  have hshows : Shows ((s.rows tallies).filter (daysFilter keys).holds)
      (b.counts.filter fun c => ∃ key ∈ keys, c.period = .day key) :=
    Shows.filter h.counts fun d c hd => by rw [hd.holds_daysFilter, decide_eq_true_iff]
  obtain ⟨counts, hperm, hfound⟩ := Shows.of_perm hshows
    (find_sorted s tallies (daysFilter keys) [.up "date"])
  have hfits : ∀ c ∈ counts, c.Fits := fun c hc => by
    obtain ⟨hmem, hwanted⟩ := List.mem_filter.mp (hperm.mem_iff.mp hc)
    obtain ⟨key, hkey, hperiod⟩ := of_decide_eq_true hwanted
    have hcount := hfit key hkey
    rwa [← hperiod, htidy.countOf_of_mem hmem] at hcount
  exact ⟨counts, hperm, hfits, talliesOf_eq hfound hfits⟩

/-- **The tallies of days are their counts.** -/
theorem Kept.run_dailyStats (h : b.Kept s) (htidy : b.Tidy) {first last : Date} {days : List Date}
    (hdays : Date.through first last = .ok days)
    (hfit : ∀ d ∈ days, (b.countOf (.day d.text)).Fits) (clock : Reading) (fresh : FreshId) :
    ((inMemory clock fresh).dailyStats first last).run.run s
      = (.ok (days.map fun d => (b.countOf (.day d.text)).tally), s) := by
  obtain ⟨counts, hperm, -, htallies⟩ := h.talliesOf_days htidy (List.forall_mem_map.mpr hfit)
  rw [run_dailyStats_of_tallies clock fresh s hdays htallies]
  refine congrArg (fun ts => (Except.ok ts, s)) (List.map_congr_left fun d hd => ?_)
  exact tallyOf_perm htidy (List.mem_map_of_mem hd) hperm

/-- **Every tally adds up.** -/
theorem Kept.decode_row (h : b.Kept s) (htidy : b.Tidy) (hfit : ∀ p, (b.countOf p).Fits)
    {row : Document} (hrow : row ∈ s.rows tallies) :
    ∃ t, row.decode Tally.decoder tallies = .ok t ∧ t.total = t.succeeded + t.failed := by
  obtain ⟨c, hc, hd⟩ := exists_of_forall₂ h.counts hrow
  have hcount := hfit c.period
  rw [htidy.countOf_of_mem hc] at hcount
  refine ⟨c.tally, ?_, Int.natCast_add _ _⟩
  rw [Document.decode, hd.decode hcount]
  rfl

end Books

end FleetLedger
