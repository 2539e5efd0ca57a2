import FleetLedger.Proofs.Scans
import FleetLedger.Proofs.Watches

/-!
# Following a scope

Whoever wants to know what is within a scope, now and from now on, opens a watch, scans the scope, and
makes every change that the watch tells of in what was scanned.  The changes that were made between
the two calls are then made twice.

That does no harm, for a change that is made once more makes no difference (`foldl_after_absorbs`), and
the changes within the scope are all that matters to it (`under_foldl_after`).  What the watch tells of
are these changes, in order (`received_eq`).  Hence **`replay_converges`**.
-/

namespace FleetLedger

open Table

/-- Makes some changes in what was scanned. -/
def replay (snapshot : List KeyValue) (changes : List Event) : List KeyValue :=
  (changes.foldl Entries.after (snapshot.map fun e => (e.key, e.value))).listed

/-- What a scan has found becomes what a later scan finds, by the changes made since, even if some
were made before. -/
lemma replay_scan {t : Entries} (ht : Sorted t) (scope : String) (early late : List Event) :
    replay ((early.foldl Entries.after t).scan scope) ((early ++ late).filter (Event.isUnder scope))
      = ((early ++ late).foldl Entries.after t).scan scope := by
  have hsorted := Entries.sorted_foldl_after ht early
  have hsnapshot : ((early.foldl Entries.after t).scan scope).map (fun e => (e.key, e.value))
      = Entries.under scope (early.foldl Entries.after t) := by
    rw [Entries.scan_eq_filter hsorted, Entries.listed, List.map_map]
    exact List.map_id _
  rw [replay, hsnapshot, ← Entries.under_foldl_after hsorted, List.foldl_append,
    Entries.foldl_after_absorbs ht, List.foldl_append,
    Entries.scan_eq_filter (Entries.sorted_foldl_after hsorted late)]

namespace Rehearsal

lemma sorted_entries_after (capacity : Nat) (now : Timestamp) (acts : List Act) :
    Sorted ((keyStore capacity now).after acts).entries := by
  rw [entries_after]
  exact Entries.sorted_foldl_after sorted_nil _

/-- What a scan finds, if it is answered. -/
def scan? (s : Rehearsal) (scope : String) : Option (List KeyValue) :=
  match ((coordination.scan scope).run.run.run s).1 with
  | some (.ok found) => some found
  | _ => none

lemma scan?_eq (s : Rehearsal) (scope : String) :
    s.scan? scope = if s.keysOut .scan then none else some (s.entries.scan scope) := by
  have hrun := run_keyCall .scan (fun s => (s, s.entries.scan scope)) s
  simp only [scan?, coordination, hrun]
  by_cases h : s.keysOut .scan = true
  · rw [if_pos h, if_pos h]
  · rw [if_neg h, if_neg h]

lemma entries_of_scan? {s : Rehearsal} {scope : String} {found : List KeyValue}
    (h : s.scan? scope = some found) : found = s.entries.scan scope := by
  rw [scan?_eq] at h
  split at h
  · cases h
  · exact (Option.some.inj h).symm

/-- **The first events are the first changes within the scope**, unless the last event is among
them. -/
theorem take_received {s : Rehearsal} {n : Nat} {scope : String} (h : s.watch? n = some { scope })
    (hpast : s.Past n) (acts acts' : List Act)
    (hlength : ((s.changes acts).filter (Event.isUnder scope)).length
      ≤ (s.received n (acts ++ acts')).length)
    (hopen : ∀ e ∈ (s.received n (acts ++ acts')).take
      ((s.changes acts).filter (Event.isUnder scope)).length, e.isClosed = false) :
    (s.received n (acts ++ acts')).take ((s.changes acts).filter (Event.isUnder scope)).length
      = (s.changes acts).filter (Event.isUnder scope) := by
  have hdue : (s.changes acts).filter (Event.isUnder scope)
      <+: (s.changes (acts ++ acts')).filter (Event.isUnder scope) := by
    rw [changes_append, List.filter_append]
    exact List.prefix_append ..
  -- two first parts of the same list, of which the first is long enough
  have htake : ∀ {l : List Event}, l <+: (s.changes (acts ++ acts')).filter (Event.isUnder scope) →
      ((s.changes acts).filter (Event.isUnder scope)).length ≤ l.length →
      l.take ((s.changes acts).filter (Event.isUnder scope)).length
        = (s.changes acts).filter (Event.isUnder scope) := fun hl hle =>
    (List.prefix_iff_eq_take.mp (List.prefix_of_prefix_length_le hdue hl hle)).symm
  rcases received_eq h hpast (acts ++ acts') with hfirst | ⟨passed, reason, hpassed, heq, -⟩
  · exact htake hfirst hlength
  · rw [heq] at hlength hopen ⊢
    rw [List.length_append, List.length_singleton] at hlength
    rcases Nat.lt_or_ge (passed.filter (Event.isUnder scope)).length
        ((s.changes acts).filter (Event.isUnder scope)).length with hlt | hge
    · rw [List.take_of_length_le (by simpa using Nat.succ_le_of_lt hlt)] at hopen
      exact absurd (hopen (.closed reason) (by simp)) (by simp [Event.isClosed])
    · rw [List.take_append_of_le_length hge]
      exact htake (hpassed.filter _) hge

/-- **Watching and then scanning converges.**  Let a watch of any scope be opened at any time at a
store that keeps any number of changes for its watches; later the scope is scanned, and later again,
with anything happening in between and afterwards, in any order.

Once the watch has told of all the changes within the scope that were made up to the second scan, and
has not ended with that, what the first scan has found becomes what the second has found when these
changes are made in it, although those before the first scan are made twice. -/
theorem replay_converges (capacity : Nat) (now : Timestamp) (before : List Act) (scope : String)
    (early late rest : List Act) (snapshot latest : List KeyValue) :
    let n := ((keyStore capacity now).after before).streams
    let s := (keyStore capacity now).after (before ++ [.watch scope])
    let due := (s.changes (early ++ late)).filter (Event.isUnder scope)
    let told := (s.received n (early ++ late ++ rest)).take due.length
    (s.after early).scan? scope = some snapshot →
    (s.after (early ++ late)).scan? scope = some latest →
    told.length = due.length → (∀ e ∈ told, e.isClosed = false) → replay snapshot told = latest := by
  intro n s due told hsnapshot hlatest hlength hopen
  obtain ⟨hpast, hwatch⟩ : s.Past n ∧ s.watch? n = _ := watch?_opened capacity now before scope
  cases hgone : ((keyStore capacity now).after before).keysGone with
  | true =>
      -- the store would not have answered
      have hgone' : (s.after early).keysGone = true := by
        have hs : s.after early
            = ((keyStore capacity now).after before).after ([.watch scope] ++ early) := by
          rw [after_append, ← after_append _ before]
        rw [hs, keysGone_after, hgone, Bool.true_or]
      rw [scan?_eq, if_pos (keysOut_of_gone hgone' .scan)] at hsnapshot
      cases hsnapshot
  | false =>
      rw [hgone] at hwatch
      have hdue : due.length ≤ (s.received n (early ++ late ++ rest)).length := by
        rw [← hlength]
        exact List.length_take_le' _ _
      have htold : told = due := take_received hwatch hpast (early ++ late) rest hdue hopen
      have hfirst := entries_after s early
      have hsecond := entries_after s (early ++ late)
      have hsorted : Sorted s.entries := sorted_entries_after capacity now (before ++ [.watch scope])
      have hdues : due = (s.changes early ++ (s.after early).changes late).filter
          (Event.isUnder scope) := by rw [← changes_append]
      rw [htold, hdues, entries_of_scan? hsnapshot, entries_of_scan? hlatest, hfirst, hsecond,
        changes_append]
      exact replay_scan hsorted scope (s.changes early) ((s.after early).changes late)

/-- A node comes, and before the scan another one comes and the first one goes; then it is back. -/
theorem replay_converges_comings :
    let s := (keyStore 4 { millis := 86400000 }).after [.put "/n/a" "1", .watch "/n/"]
    let early : List Act := [.put "/n/b" "2", .forward 0, .delete "/n/a"]
    let late : List Act := [.put "/g/a" "x", .put "/n/a" "3"]
    let rest : List Act := List.replicate 8 (.forward 0) ++ List.replicate 3 (.receive 0)
    (s.received 0 (early ++ late ++ rest)).take 3
        = [.put "/n/b" "2", .delete "/n/a", .put "/n/a" "3"]
      ∧ replay [⟨"/n/b", "2"⟩] ((s.received 0 (early ++ late ++ rest)).take 3)
        = [⟨"/n/a", "3"⟩, ⟨"/n/b", "2"⟩] := by
  intro s early late rest
  have hdue : ((s.changes (early ++ late)).filter (Event.isUnder "/n/")).length = 3 := by
    decide +kernel
  have h := replay_converges 4 { millis := 86400000 } [.put "/n/a" "1"] "/n/" early late rest
    [⟨"/n/b", "2"⟩] [⟨"/n/a", "3"⟩, ⟨"/n/b", "2"⟩] (by decide +kernel) (by decide +kernel)
    (by decide +kernel) (by decide +kernel)
  exact ⟨by decide +kernel, hdue ▸ h⟩

end Rehearsal

end FleetLedger
