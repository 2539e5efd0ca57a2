import FleetLedger.Proofs.KeyDeeds

/-!
# The membership log

A membership log reads the changes of the presence keys from a watch and reports who came and who went.
Here it reads one event at a time, so that anything may happen between any two of its lines (`Vigil`).
Letting a log of a rehearsal act, which takes everything at once, comes to the same
(`Follows.exists_listen`).

What the logger takes are the occasions of a delivery (`Follows`): the changes that deeds make arrive,
and forwarder and logger have their turns.  So the account of deliveries says what the lines are
(`Follows.lines_cases`), and that they are complete at some time (`Follows.exists_told`).

What the lines are good for does not depend on watches any more.  The last line about a node tells
whether its presence key is there and with what value, if there was none before the first
(`Membership.lastLine?_filterMap`).

The main statement is **`log_replays`**.
-/

namespace FleetLedger

open Delivery (Course Fair Occasion Party)

namespace Membership

/-! ## Lines -/

/-- The line of a change: the bare id of the node, and its process id if it came. -/
def line? (scope : String) : Event → Option Notice
  | .put key value => (Scope.rest? scope key).map (.nodeOnline · value)
  | .delete key => (Scope.rest? scope key).map .nodeOffline
  | .closed _ => none

/-- The node that a line is about. -/
def about? : Notice → Option String
  | .nodeOnline id _ | .nodeOffline id => some id
  | _ => none

/-- The last line about a node. -/
def lastLine? (id : String) (lines : List Notice) : Option Notice :=
  (lines.filter fun l => about? l == some id).getLast?

/-- A line is written for what is in the scope. -/
lemma line?_eq (scope : String) (e : Event) :
    line? scope e = if e.isUnder scope then some (notice scope e) else none := by
  cases e with
  | put key value =>
      by_cases hkey : Scope.covers scope key = true <;>
        simp [line?, notice, Event.isUnder, Event.key?, Scope.bare, Scope.rest?, hkey]
  | delete key =>
      by_cases hkey : Scope.covers scope key = true <;>
        simp [line?, notice, Event.isUnder, Event.key?, Scope.bare, Scope.rest?, hkey]
  | closed reason => rfl

/-- The notices of the changes within a scope are the lines of all changes. -/
lemma notices_filter (scope : String) (changes : List Event) :
    notices scope (changes.filter (Event.isUnder scope)) = changes.filterMap (line? scope) := by
  rw [notices, ← List.filterMap_eq_map', List.filterMap_filter]
  refine List.filterMap_congr fun e _ => ?_
  rw [line?_eq]

lemma lastLine?_concat {id : String} {l : Notice} (h : about? l = some id) (lines : List Notice) :
    lastLine? id (lines ++ [l]) = some l := by
  rw [lastLine?, List.filter_append, List.filter_singleton, beq_iff_eq.mpr h]
  exact List.getLast?_concat

lemma lastLine?_append {id : String} {more : List Notice} (h : ∀ l ∈ more, about? l ≠ some id)
    (lines : List Notice) : lastLine? id (lines ++ more) = lastLine? id lines := by
  have hnone : more.filter (fun l => about? l == some id) = [] :=
    List.filter_eq_nil_iff.mpr fun l hl => by simpa using h l hl
  rw [lastLine?, List.filter_append, hnone, List.append_nil, lastLine?]

/-- A line about a node is written for a change of its key. -/
lemma key_of_line? {scope id : String} {e : Event} {l : Notice} (hl : line? scope e = some l)
    (hid : about? l = some id) : e.key? = some (scope ++ id) := by
  cases e with
  | put key value =>
      obtain ⟨name, hname, rfl⟩ := Option.map_eq_some_iff.mp hl
      obtain rfl : name = id := Option.some.inj hid
      exact congrArg some (Scope.rest?_eq_some_iff.mp hname)
  | delete key =>
      obtain ⟨name, hname, rfl⟩ := Option.map_eq_some_iff.mp hl
      obtain rfl : name = id := Option.some.inj hid
      exact congrArg some (Scope.rest?_eq_some_iff.mp hname)
  | closed reason => cases hl

/-- No change has the line that tells why a watch was closed. -/
lemma closed_notMem_lines (scope : String) (changes : List Event) (reason : String) :
    .membershipClosed reason ∉ changes.filterMap (line? scope) := fun hmem => by
  obtain ⟨e, -, hline⟩ := List.mem_filterMap.mp hmem
  cases e with
  | put key value =>
      obtain ⟨name, -, hname⟩ := Option.map_eq_some_iff.mp hline
      cases hname
  | delete key =>
      obtain ⟨name, -, hname⟩ := Option.map_eq_some_iff.mp hline
      cases hname
  | closed reason' => cases hline

lemma get?_after_of_ne {e : Event} {key : String} (h : e.key? ≠ some key) (entries : Entries) :
    (entries.after e).get? key = entries.get? key := by
  cases e with
  | put other value =>
      exact (Table.get?_insert ..).trans (if_neg fun he => h (congrArg some he))
  | delete other =>
      exact (Table.get?_erase ..).trans (if_neg fun he => h (congrArg some he))
  | closed reason => rfl

/-- A change of a node's key has a line about the node, which says whether the key is there now, and
with what value. -/
lemma exists_line {scope id : String} {e : Event} (h : e.key? = some (scope ++ id))
    (entries : Entries) :
    ∃ l, line? scope e = some l ∧ about? l = some id
      ∧ ∀ value, l = .nodeOnline id value
        ↔ (entries.after e).get? (scope ++ id) = some value := by
  cases e with
  | put key v =>
      obtain rfl : key = scope ++ id := Option.some.inj h
      have hafter : (entries.after (.put (scope ++ id) v)).get? (scope ++ id) = some v :=
        (Table.get?_insert ..).trans (if_pos rfl)
      refine ⟨.nodeOnline id v, ?_, rfl, fun value => ?_⟩
      · rw [line?, Scope.rest?_append]
        rfl
      · rw [hafter]
        simp
  | delete key =>
      obtain rfl : key = scope ++ id := Option.some.inj h
      have hafter : (entries.after (.delete (scope ++ id))).get? (scope ++ id) = none :=
        (Table.get?_erase ..).trans (if_pos rfl)
      refine ⟨.nodeOffline id, ?_, rfl, fun value => ?_⟩
      · rw [line?, Scope.rest?_append]
        rfl
      · rw [hafter]
        simp
  | closed reason => cases h

/-- **The lines of all changes tell who is there**: a node is, if the last line about it says so, and
with the value that this line gives. -/
theorem lastLine?_filterMap {scope : String} {entries : Entries}
    (habsent : ∀ id, entries.get? (scope ++ id) = none) (changes : List Event) (id value : String) :
    lastLine? id (changes.filterMap (line? scope)) = some (.nodeOnline id value)
      ↔ (changes.foldl Entries.after entries).get? (scope ++ id) = some value := by
  induction changes using List.reverseRecOn with
  | nil =>
      rw [List.foldl_nil, habsent]
      exact ⟨nofun, nofun⟩
  | append_singleton changes e ih =>
      rw [List.filterMap_append, List.foldl_append, List.foldl_cons, List.foldl_nil]
      by_cases hkey : e.key? = some (scope ++ id)
      · obtain ⟨l, hline, habout, hsays⟩ := exists_line hkey (changes.foldl Entries.after entries)
        rw [List.filterMap_cons_some hline, List.filterMap_nil, lastLine?_concat habout,
          Option.some_inj]
        exact hsays value
      · -- a change of another key has no line about this node
        have hother : ∀ l ∈ [e].filterMap (line? scope), about? l ≠ some id := fun l hl hid => by
          obtain ⟨e', he', hline⟩ := List.mem_filterMap.mp hl
          rw [List.mem_singleton.mp he'] at hline
          exact hkey (key_of_line? hline hid)
        rw [lastLine?_append hother, ih, get?_after_of_ne hkey]

/-! ## The last event -/

/-- Membership is over once the end was among the events. -/
lemma isOver_iff {events : List Event} :
    Membership.isOver events = true ↔ ∃ reason, .closed reason ∈ events := by
  rw [Membership.isOver, List.any_eq_true]
  constructor
  · rintro ⟨e, he, hclosed⟩
    cases e with
    | closed reason => exact ⟨reason, he⟩
    | put => cases hclosed
    | delete => cases hclosed
  · rintro ⟨reason, h⟩
    exact ⟨_, h, rfl⟩

/-- **When the last event was taken, nothing is left to do.** -/
theorem over_cases {ring : Nat} {scope : String} {os : List (Occasion Event)}
    (h : isOver (Course.after (Watch.rules ring scope) {} os).taken = true) :
    (Course.after (Watch.rules ring scope) {} os).delivery.phase = .ended
      ∧ (Course.after (Watch.rules ring scope) {} os).delivery.delivered = [] := by
  have haccounted := Delivery.accounted (Watch.rules ring scope) os
  obtain ⟨reason, hmem⟩ := isOver_iff.mp h
  generalize Course.after (Watch.rules ring scope) {} os = c at haccounted hmem
  have hfirst : c.taken <+: c.sent := c.taken_prefix_sent
  -- the last event is none of the changes within the scope
  have hnot : ∀ passed : List Event,
      ¬ c.taken <+: passed.filterMap (Watch.rules ring scope).pick := fun passed hpart => by
    rw [Rehearsal.filterMap_pick] at hpart
    cases (List.mem_filter.mp (hpart.subset hmem)).2
  rw [Delivery.Accounted] at haccounted
  cases hphase : c.delivery.phase with
  | looking =>
      rw [hphase] at haccounted
      obtain ⟨passed, -, hsent⟩ := haccounted
      exact absurd (hsent ▸ hfirst) (hnot passed)
  | holding e =>
      rw [hphase] at haccounted
      obtain ⟨passed, -, hsent⟩ := haccounted
      exact absurd (hfirst.trans (hsent ▸ List.prefix_append ..)) (hnot passed)
  | closing reason' =>
      rw [hphase] at haccounted
      obtain ⟨passed, hsent, -⟩ := haccounted
      exact absurd (hsent ▸ hfirst) (hnot passed)
  | ended =>
      rw [hphase] at haccounted
      obtain ⟨passed, reason', hsent, -⟩ := haccounted
      refine ⟨rfl, ?_⟩
      rcases List.prefix_concat_iff.mp (hsent ▸ hfirst) with hall | hpart
      · have hlength := congrArg List.length (hall.trans hsent.symm)
        rw [Course.sent, List.length_append] at hlength
        exact List.eq_nil_of_length_eq_zero (by omega)
      · exact absurd hpart (hnot passed)

/-- A watch whose last event was taken stays as it is, whoever has a turn. -/
lemma meet_of_over {ring : Nat} {scope : String} {os : List (Occasion Event)}
    (h : isOver (Course.after (Watch.rules ring scope) {} os).taken = true) (t : Party) :
    Course.after (Watch.rules ring scope) {} (os ++ [t.occasion])
      = Course.after (Watch.rules ring scope) {} os := by
  obtain ⟨hphase, hdelivered⟩ := over_cases h
  rw [Course.after_concat]
  refine Delivery.Idle.meet ⟨?_, hdelivered⟩ t
  rw [Delivery.step?, hphase]

end Membership

/-! ## The logger -/

/-- A fleet with a membership log that reads one event after the other, and the lines of the log. -/
structure Vigil where
  fleet : Rehearsal
  logger : Listener
  lines : List Notice := []

/-- What happens during a vigil. -/
inductive Vigil.Move where
  | deed (d : Rehearsal.KeyDeed)
  /-- The forwarder of the watch acts, or the logger takes an event. -/
  | turn (t : Party)
  /-- The key-value store is gone. -/
  | lose

namespace Vigil

/-- The logger takes the next event and reports it; with the last event it ends. -/
def log (v : Vigil) : Vigil :=
  if v.logger.finished then v
  else
    match v.fleet.receiveOnce v.logger.stream with
    | (fleet, none) => { v with fleet }
    | (fleet, some e) =>
      let line := Membership.notice v.logger.scope e
      let fleet := fleet.report [line]
      if e.isClosed then
        { fleet := fleet.closeWatch v.logger.stream
          logger := { v.logger with finished := true }
          lines := v.lines ++ [line] }
      else { v with fleet, lines := v.lines ++ [line] }

section Moves

variable (keys : KeySpace)

/-- A move is made. -/
def meet (v : Vigil) : Move → Vigil
  | .deed d => { v with fleet := d.perform keys v.fleet }
  | .turn .forwarder => { v with fleet := v.fleet.forwardOnce v.logger.stream }
  | .turn .watcher => v.log
  | .lose => { v with fleet := v.fleet.loseKeys }

/-- What becomes of a vigil by some moves. -/
def after (v : Vigil) (moves : List Move) : Vigil := moves.foldl (meet keys) v

/-- The change that a move makes. -/
def Move.change? (v : Vigil) : Move → Option Event
  | .deed d => d.change? keys v.fleet
  | .turn _ | .lose => none

/-- The changes that some moves make, in order. -/
def changes (v : Vigil) : List Move → List Event
  | [] => []
  | m :: moves => (m.change? keys v).toList ++ changes (v.meet keys m) moves

/-- What a move means to the watch that the logger reads. -/
def Move.occasion? (v : Vigil) : Move → Option (Occasion Event)
  | .deed d => (d.change? keys v.fleet).map .arrive
  | .turn t => some t.occasion
  | .lose => some (.endSource Watch.goneReason)

/-- What the watch that the logger reads meets with. -/
def occasions (v : Vigil) : List Move → List (Occasion Event)
  | [] => []
  | m :: moves => (m.occasion? keys v).toList ++ occasions (v.meet keys m) moves

/-- The logger has seen what its watch has delivered on some occasions. -/
structure Follows (ring : Nat) (os : List (Occasion Event)) (v : Vigil) : Prop where
  ring_eq : v.fleet.ring = ring
  scope_eq : v.logger.scope = keys.nodes
  prompt : v.fleet.removalTime = 0
  lines_eq : v.lines
    = Membership.notices keys.nodes (Course.after (Watch.rules ring keys.nodes) {} os).taken
  finished_eq : v.logger.finished
    = Membership.isOver (Course.after (Watch.rules ring keys.nodes) {} os).taken
  watch_eq : v.fleet.watch? v.logger.stream
    = if v.logger.finished then none
      else some ⟨keys.nodes, (Course.after (Watch.rules ring keys.nodes) {} os).delivery⟩

variable {keys} {ring : Nat} {os : List (Occasion Event)} {v : Vigil}

/-- While the logger runs, its watch has come where the course has. -/
lemma Follows.watch_of_open (h : Follows keys ring os v) (hopen : v.logger.finished = false) :
    v.fleet.watch? v.logger.stream
      = some ⟨keys.nodes, (Course.after (Watch.rules ring keys.nodes) {} os).delivery⟩ :=
  h.watch_eq.trans (if_neg (ne_true_of_eq_false hopen))

/-- A logger that has finished has closed its watch. -/
lemma Follows.watch_of_finished (h : Follows keys ring os v) (hdone : v.logger.finished = true) :
    v.fleet.watch? v.logger.stream = none :=
  h.watch_eq.trans (if_pos hdone)

/-- Where nothing is taken from the watch, logger and lines stay as they are. -/
lemma Follows.untaken (h : Follows keys ring os v) {fleet : Rehearsal} {os' : List (Occasion Event)}
    (hring : fleet.ring = v.fleet.ring) (hprompt : fleet.removalTime = v.fleet.removalTime)
    (htaken : (Course.after (Watch.rules ring keys.nodes) {} os').taken
      = (Course.after (Watch.rules ring keys.nodes) {} os).taken)
    (hwatch : fleet.watch? v.logger.stream = if v.logger.finished then none
      else some ⟨keys.nodes, (Course.after (Watch.rules ring keys.nodes) {} os').delivery⟩) :
    Follows keys ring os' { v with fleet } where
  ring_eq := hring.trans h.ring_eq
  scope_eq := h.scope_eq
  prompt := hprompt.trans h.prompt
  lines_eq := htaken.symm ▸ h.lines_eq
  finished_eq := htaken.symm ▸ h.finished_eq
  watch_eq := hwatch

/-- What happens to the keys keeps the logger on its course. -/
lemma Follows.deed (h : Follows keys ring os v) (d : Rehearsal.KeyDeed) :
    Follows keys ring (os ++ (Move.occasion? keys v (.deed d)).toList) (v.meet keys (.deed d)) := by
  have hchanged := d.changed keys v.fleet h.prompt
  rw [Move.occasion?, meet]
  cases hchange : d.change? keys v.fleet with
  | none =>
      rw [hchange] at hchanged
      rw [Option.map_none, Option.toList_none, List.append_nil]
      exact h.untaken hchanged.ring hchanged.removalTime rfl
        ((hchanged.watch? _).trans h.watch_eq)
  | some e =>
      rw [hchange] at hchanged
      rw [Option.map_some, Option.toList_some]
      refine h.untaken hchanged.ring hchanged.removalTime (by rw [Course.after_concat]; rfl)
        ((hchanged.watch? _).trans ?_)
      refine (Rehearsal.watch?_changedBy v.fleet v.logger.stream e).trans ?_
      rw [Course.after_concat, h.watch_eq]
      cases v.logger.finished <;> rfl

/-- The loss of the store keeps the logger on its course, as the end of the source. -/
lemma Follows.lose (h : Follows keys ring os v) :
    Follows keys ring (os ++ (Move.occasion? keys v .lose).toList) (v.meet keys .lose) := by
  rw [Move.occasion?, Option.toList_some]
  refine h.untaken rfl rfl (by rw [Course.after_concat]; rfl) ?_
  refine (Rehearsal.watch?_loseKeys v.fleet v.logger.stream).trans ?_
  rw [Course.after_concat, h.watch_eq]
  cases v.logger.finished <;> rfl

lemma Follows.forward (h : Follows keys ring os v) (hopen : v.logger.finished = false) :
    Follows keys ring (os ++ [.forward]) (v.meet keys (.turn .forwarder)) := by
  have heffect := (Rehearsal.Act.forward v.logger.stream).effect v.fleet
  have hmeans : (Rehearsal.Act.forward v.logger.stream).occasion? v.fleet v.logger.stream
      = some .forward := if_pos rfl
  have hacts :=
    Rehearsal.follows_perform (h.watch_of_open hopen) (a := .forward v.logger.stream) (by simp)
  rw [hmeans, h.ring_eq, Option.toList_some, ← Course.after_append] at hacts
  exact h.untaken heffect.ring heffect.removalTime (hacts.2.trans (List.append_nil _))
    (hacts.1.trans (if_neg (ne_true_of_eq_false hopen)).symm)

/-- **The logger reports what it takes**, and ends with the last event. -/
theorem Follows.take (h : Follows keys ring os v) (hopen : v.logger.finished = false) :
    Follows keys ring (os ++ [.take]) v.log := by
  have heffect := (Rehearsal.Act.receive v.logger.stream).effect v.fleet
  have hmeans : (Rehearsal.Act.receive v.logger.stream).occasion? v.fleet v.logger.stream
      = some .take := if_pos rfl
  have hacts :=
    Rehearsal.follows_perform (h.watch_of_open hopen) (a := .receive v.logger.stream) (by simp)
  rw [hmeans, h.ring_eq, Option.toList_some, ← Course.after_append] at hacts
  have hring := heffect.ring
  have hprompt := heffect.removalTime
  have hfinished := hopen.symm.trans h.finished_eq
  simp only [Rehearsal.Act.perform] at hacts hring hprompt
  rw [log, if_neg (ne_true_of_eq_false hopen)]
  generalize v.fleet.receiveOnce v.logger.stream = found at hacts hring hprompt
  obtain ⟨fleet, e?⟩ := found
  obtain ⟨hwatch, htaken⟩ := hacts
  cases e? with
  | none =>
      exact h.untaken hring hprompt (htaken.trans (List.append_nil _))
        (hwatch.trans (if_neg (ne_true_of_eq_false hopen)).symm)
  | some e =>
      have hfrom : (Rehearsal.Happening.received v.logger.stream e).takenFrom? v.logger.stream
          = some e := if_pos rfl
      simp only [Option.map_some, Option.bind_some, hfrom, Option.toList_some] at htaken
      have hlines : v.lines ++ [Membership.notice v.logger.scope e] = Membership.notices keys.nodes
          (Course.after (Watch.rules ring keys.nodes) {} (os ++ [.take])).taken := by
        rw [htaken, h.lines_eq, h.scope_eq, Membership.notices, Membership.notices, List.map_append]
        rfl
      have hover : e.isClosed = Membership.isOver
          (Course.after (Watch.rules ring keys.nodes) {} (os ++ [.take])).taken := by
        rw [Membership.isOver] at hfinished ⊢
        rw [htaken, List.any_append, ← hfinished]
        simp
      cases he : e.isClosed with
      | true =>
          rw [he] at hover
          simp only [he, if_true]
          have hclosed := Rehearsal.watch?_closeWatch
            (fleet.report [Membership.notice v.logger.scope e]) v.logger.stream v.logger.stream
          exact ⟨hring.trans h.ring_eq, h.scope_eq, hprompt.trans h.prompt, hlines, hover,
            hclosed.trans (if_pos rfl)⟩
      | false =>
          rw [he] at hover
          simp only [he]
          exact ⟨hring.trans h.ring_eq, h.scope_eq, hprompt.trans h.prompt, hlines,
            hopen.trans hover, hwatch.trans (if_neg (ne_true_of_eq_false hopen)).symm⟩

lemma log_of_finished (hdone : v.logger.finished = true) : v.log = v := if_pos hdone

lemma Follows.turn (h : Follows keys ring os v) (t : Party) :
    Follows keys ring (os ++ [t.occasion]) (v.meet keys (.turn t)) := by
  cases hdone : v.logger.finished with
  | false =>
      cases t with
      | forwarder => exact h.forward hdone
      | watcher => exact h.take hdone
  | true =>
      have hsame := Membership.meet_of_over (h.finished_eq.symm.trans hdone) t
      have hmeet : v.meet keys (.turn t) = v := by
        cases t with
        | forwarder => rw [meet, Rehearsal.forwardOnce, h.watch_of_finished hdone]
        | watcher => rw [meet, log_of_finished hdone]
      rw [hmeet]
      exact ⟨h.ring_eq, h.scope_eq, h.prompt, hsame ▸ h.lines_eq, hsame ▸ h.finished_eq,
        hsame ▸ h.watch_eq⟩

/-- Every move keeps the logger on its course. -/
lemma Follows.meet (h : Follows keys ring os v) (m : Move) :
    Follows keys ring (os ++ (m.occasion? keys v).toList) (v.meet keys m) := by
  cases m with
  | deed d => exact h.deed d
  | turn t => exact h.turn t
  | lose => exact h.lose

lemma Follows.after (h : Follows keys ring os v) (moves : List Move) :
    Follows keys ring (os ++ v.occasions keys moves) (v.after keys moves) := by
  induction moves generalizing os v with
  | nil => exact (List.append_nil os).symm ▸ h
  | cons m moves ih =>
      have hlater := ih (h.meet m)
      rw [List.append_assoc] at hlater
      exact hlater

/-! ## The changes -/

/-- A move brings the change that it makes. -/
lemma Move.item?_occasion? (m : Move) :
    (m.occasion? keys v).bind Occasion.item? = m.change? keys v := by
  cases m with
  | deed d =>
      rw [Move.occasion?, Move.change?]
      cases d.change? keys v.fleet <;> rfl
  | turn t => exact t.item?_occasion
  | lose => rfl

/-- **What arrives at the watch are the changes.** -/
theorem arrivals_occasions (keys : KeySpace) (v : Vigil) (moves : List Move) :
    Delivery.arrivals (v.occasions keys moves) = v.changes keys moves := by
  induction moves generalizing v with
  | nil => rfl
  | cons m moves ih =>
      have hfirst : Delivery.arrivals (m.occasion? keys v).toList = (m.change? keys v).toList := by
        rw [← m.item?_occasion?, Delivery.arrivals]
        cases m.occasion? keys v with
        | none => rfl
        | some o => cases ho : o.item? <;> simp [ho]
      rw [Delivery.arrivals] at hfirst
      rw [occasions, changes, Delivery.arrivals, List.filterMap_append, hfirst]
      exact congrArg _ (ih _)

/-- Writing lines touches no key. -/
lemma entries_log (v : Vigil) : v.log.fleet.entries = v.fleet.entries := by
  have hentries := ((Rehearsal.Act.receive v.logger.stream).effect v.fleet).entries
  have hsame : (v.fleet.receiveOnce v.logger.stream).1.entries = v.fleet.entries := by
    refine hentries.trans ?_
    simp only [Rehearsal.Act.perform]
    cases (v.fleet.receiveOnce v.logger.stream).2 <;> rfl
  rw [log]
  split
  · rfl
  · split
    · rename_i hnone
      rw [hnone] at hsame
      exact hsame
    · rename_i hsome
      rw [hsome] at hsame
      dsimp only
      split <;> exact hsame

/-- The entries are as the change of the move leaves them, if it makes one. -/
lemma Follows.entries_meet (h : Follows keys ring os v) (m : Move) :
    (v.meet keys m).fleet.entries = (m.change? keys v).toList.foldl Entries.after v.fleet.entries := by
  cases m with
  | deed d =>
      refine (d.changed keys v.fleet h.prompt).entries.trans ?_
      rw [Move.change?]
      cases d.change? keys v.fleet <;> rfl
  | turn t =>
      cases t with
      | forwarder => exact ((Rehearsal.Act.forward v.logger.stream).effect v.fleet).entries
      | watcher => exact v.entries_log
  | lose => rfl

/-- **The entries are what the changes have made of them.** -/
theorem Follows.entries_after (h : Follows keys ring os v) (moves : List Move) :
    (v.after keys moves).fleet.entries
      = (v.changes keys moves).foldl Entries.after v.fleet.entries := by
  induction moves generalizing os v with
  | nil => rfl
  | cons m moves ih =>
      rw [changes, List.foldl_append, ← h.entries_meet]
      exact ih (h.meet m)

/-! ## The lines -/

/-- The logger has ended when it has reported the last event. -/
lemma Follows.finished_iff (h : Follows keys ring os v) :
    v.logger.finished = true ↔ ∃ reason, .membershipClosed reason ∈ v.lines := by
  rw [h.finished_eq, Membership.isOver_iff, h.lines_eq, Membership.notices]
  constructor
  · rintro ⟨reason, hmem⟩
    exact ⟨reason, List.mem_map.mpr ⟨_, hmem, rfl⟩⟩
  · rintro ⟨reason, hmem⟩
    obtain ⟨e, he, hnotice⟩ := List.mem_map.mp hmem
    cases e with
    | closed reason' => exact ⟨reason', he⟩
    | put => cases hnotice
    | delete => cases hnotice

/-- **A logger that has ended reports nothing more.** -/
theorem after_of_finished (hdone : v.logger.finished = true) (moves : List Move) :
    (v.after keys moves).lines = v.lines ∧ (v.after keys moves).logger = v.logger := by
  induction moves generalizing v with
  | nil => exact ⟨rfl, rfl⟩
  | cons m moves ih =>
      have hmet : (v.meet keys m).lines = v.lines ∧ (v.meet keys m).logger = v.logger := by
        cases m with
        | deed d => exact ⟨rfl, rfl⟩
        | turn t =>
            cases t with
            | forwarder => exact ⟨rfl, rfl⟩
            | watcher =>
                rw [meet, log_of_finished hdone]
                exact ⟨rfl, rfl⟩
        | lose => exact ⟨rfl, rfl⟩
      obtain ⟨hlines, hlogger⟩ := ih (v := v.meet keys m) (hmet.2.symm ▸ hdone)
      exact ⟨hlines.trans hmet.1, hlogger.trans hmet.2⟩

/-- The forwarder looks, and more changes wait for it than the store keeps. -/
def Lags (v : Vigil) : Prop :=
  ∃ w, v.fleet.watch? v.logger.stream = some w ∧ w.delivery.phase = .looking
    ∧ v.fleet.ring < w.delivery.waiting.length

/-- What the watch has met with by some time it has met with after some of the moves. -/
lemma exists_moves {moves : List Move} {met : List (Occasion Event)}
    (h : met <+: v.occasions keys moves) :
    ∃ sooner later, moves = sooner ++ later ∧ v.occasions keys sooner = met := by
  induction moves generalizing v met with
  | nil => exact ⟨[], [], rfl, (List.prefix_nil.mp h).symm⟩
  | cons m moves ih =>
      rcases met with _ | ⟨o, met⟩
      · exact ⟨[], m :: moves, rfl, rfl⟩
      · rw [occasions] at h
        cases ho : m.occasion? keys v with
        | none =>
            rw [ho] at h
            obtain ⟨sooner, later, rfl, hmet⟩ := ih h
            exact ⟨m :: sooner, later, rfl, by rw [occasions, ho, hmet]; rfl⟩
        | some o' =>
            rw [ho] at h
            obtain ⟨rfl, hmore⟩ := List.cons_prefix_cons.mp h
            obtain ⟨sooner, later, rfl, hmet⟩ := ih hmore
            exact ⟨m :: sooner, later, rfl, by rw [occasions, ho, hmet]; rfl⟩

/-- The source ends only with the store. -/
lemma lose_of_mem_occasions {moves : List Move} {reason : String}
    (h : .endSource reason ∈ v.occasions keys moves) : .lose ∈ moves := by
  induction moves generalizing v with
  | nil => cases h
  | cons m moves ih =>
      rw [occasions, List.mem_append, Option.mem_toList] at h
      rcases h with h | h
      · cases m with
        | deed d =>
            obtain ⟨e, -, he⟩ := Option.map_eq_some_iff.mp h
            cases he
        | turn t =>
            cases t <;> cases h
        | lose => exact List.mem_cons_self
      · exact List.mem_cons_of_mem m (ih h)

/-- **When the watch breaks off, its forwarder has lagged or the store is gone.** -/
theorem Follows.lags_or_lose (h : Follows keys ring [] v) {moves : List Move} {passed : List Event}
    {reason : String}
    (hbroke : Delivery.BrokeOff (Watch.rules ring keys.nodes) (v.occasions keys moves) passed
      reason) :
    (∃ sooner later, moves = sooner ++ later ∧ (v.after keys sooner).Lags) ∨ .lose ∈ moves := by
  obtain ⟨met, hmet, hlooking, -, hcause⟩ := hbroke
  obtain ⟨sooner, later, rfl, rfl⟩ := exists_moves hmet
  rcases hcause with ⟨skipped, hskipped, -⟩ | ⟨-, hend⟩
  · have hsooner := h.after sooner
    rw [List.nil_append] at hsooner
    have hopen : (v.after keys sooner).logger.finished = false := by
      refine Bool.eq_false_iff.mpr fun hdone => ?_
      obtain ⟨hended, -⟩ := Membership.over_cases (hsooner.finished_eq.symm.trans hdone)
      cases hlooking.symm.trans hended
    obtain ⟨hlength, hpos⟩ := Delivery.length_of_skipped? rfl hskipped
    refine Or.inl ⟨sooner, later, rfl, _, hsooner.watch_of_open hopen, hlooking, ?_⟩
    rw [hsooner.ring_eq, hlength]
    omega
  · have hmem := lose_of_mem_occasions (Delivery.mem_of_sourceEnd hend)
    exact Or.inr (List.mem_append_left _ hmem)

/-- **The lines are a first part of the lines of all changes**, or the watch has broken off, and the
last line says why. -/
theorem Follows.lines_cases (h : Follows keys ring [] v) (moves : List Move) :
    (v.after keys moves).lines <+: (v.changes keys moves).filterMap (Membership.line? keys.nodes)
      ∨ ∃ first reason, first <+: (v.changes keys moves).filterMap (Membership.line? keys.nodes)
        ∧ (v.after keys moves).lines = first ++ [.membershipClosed reason]
        ∧ ((∃ sooner later, moves = sooner ++ later ∧ (v.after keys sooner).Lags) ∨ .lose ∈ moves) := by
  have hafter := h.after moves
  rw [List.nil_append] at hafter
  rw [hafter.lines_eq, ← arrivals_occasions, ← Membership.notices_filter]
  rcases Delivery.taken_eq (Watch.rules ring keys.nodes) (v.occasions keys moves) with hfirst
    | ⟨passed, reason, heq, hbroke⟩
  · rw [Rehearsal.filterMap_pick] at hfirst
    exact Or.inl (hfirst.map _)
  · rw [Rehearsal.filterMap_pick] at heq
    refine Or.inr ⟨Membership.notices keys.nodes (passed.filter (Event.isUnder keys.nodes)), reason,
      (hbroke.passed_prefix.filter _).map _, ?_, h.lags_or_lose hbroke⟩
    rw [heq, Membership.notices, List.map_append]
    rfl

/-! ## Turns -/

/-- What becomes of a vigil after so many turns of a schedule. -/
def paced (keys : KeySpace) (v : Vigil) (schedule : ℕ → Party) : ℕ → Vigil
  | 0 => v
  | n + 1 => (v.paced keys schedule n).meet keys (.turn (schedule n))

/-- However the parties take turns, the logger stays on its course. -/
lemma Follows.paced (h : Follows keys ring os v) (schedule : ℕ → Party) (n : ℕ) :
    Follows keys ring (os ++ (List.range n).map (Party.occasion ∘ schedule))
      (v.paced keys schedule n) := by
  induction n with
  | zero =>
      rw [List.range_zero, List.map_nil, List.append_nil]
      exact h
  | succ n ih =>
      have hnext := ih.turn (schedule n)
      rw [List.append_assoc] at hnext
      rw [List.range_succ, List.map_append]
      exact hnext

/-- **At any pace the lines of all changes are logged at some time**, unless the watch breaks off, and
nothing more is logged then. -/
theorem Follows.exists_told (h : Follows keys ring [] v) (moves : List Move) {schedule : ℕ → Party}
    (hfair : Fair schedule) :
    ∃ n, ((((v.after keys moves).paced keys schedule n).lines
          = (v.changes keys moves).filterMap (Membership.line? keys.nodes))
        ∨ ∃ reason, .membershipClosed reason ∈ ((v.after keys moves).paced keys schedule n).lines)
      ∧ ∀ m ≥ n, ((v.after keys moves).paced keys schedule m).lines
        = ((v.after keys moves).paced keys schedule n).lines := by
  have hafter := h.after moves
  rw [List.nil_append] at hafter
  have hmeets : ∀ n, Course.after (Watch.rules ring keys.nodes) {}
      (v.occasions keys moves ++ (List.range (n + 1)).map (Party.occasion ∘ schedule))
      = (Course.after (Watch.rules ring keys.nodes) {}
        (v.occasions keys moves ++ (List.range n).map (Party.occasion ∘ schedule))).meet
          (Watch.rules ring keys.nodes) (schedule n).occasion := fun n => by
    rw [List.range_succ, List.map_append, ← List.append_assoc]
    exact Course.after_concat ..
  obtain ⟨n, hidle, hstays⟩ := Delivery.exists_idle (f := fun n => Course.after
    (Watch.rules ring keys.nodes) {}
    (v.occasions keys moves ++ (List.range n).map (Party.occasion ∘ schedule))) hmeets hfair
  have hpaced := hafter.paced schedule
  refine ⟨n, ?_, fun m hm => ?_⟩
  · have harrivals : Delivery.arrivals
        (v.occasions keys moves ++ (List.range n).map (Party.occasion ∘ schedule))
          = v.changes keys moves := by
      rw [Delivery.arrivals, List.filterMap_append, ← Delivery.arrivals, ← Delivery.arrivals,
        ← List.map_map, Delivery.arrivals_turns, List.append_nil, arrivals_occasions]
    have htaken := Delivery.taken_of_idle hidle
    rw [harrivals] at htaken
    rcases htaken with hall | ⟨passed, reason, heq, -⟩
    · refine Or.inl ((hpaced n).lines_eq.trans ?_)
      rw [hall, Rehearsal.filterMap_pick, Membership.notices_filter]
    · refine Or.inr ((hpaced n).finished_iff.mp ((hpaced n).finished_eq.trans ?_))
      exact Membership.isOver_iff.mpr ⟨reason, heq ▸ List.mem_concat_self⟩
  · rw [(hpaced m).lines_eq, (hpaced n).lines_eq]
    exact congrArg (fun c => Membership.notices keys.nodes c.taken) (hstays m hm)

lemma occasions_turns (keys : KeySpace) (v : Vigil) (turns : List Party) :
    v.occasions keys (turns.map .turn) = turns.map Party.occasion := by
  induction turns generalizing v with
  | nil => rfl
  | cons t turns ih => exact congrArg (t.occasion :: ·) (ih _)

lemma changes_turns (keys : KeySpace) (v : Vigil) (turns : List Party) :
    v.changes keys (turns.map .turn) = [] := by
  rw [← arrivals_occasions, occasions_turns, Delivery.arrivals_turns]

lemma stream_log (v : Vigil) : v.log.logger.stream = v.logger.stream := by
  rw [log]
  split
  · rfl
  · split
    · rfl
    · dsimp only
      split <;> rfl

lemma stream_after (keys : KeySpace) (v : Vigil) (moves : List Move) :
    (v.after keys moves).logger.stream = v.logger.stream := by
  induction moves generalizing v with
  | nil => rfl
  | cons m moves ih =>
      refine (ih (v.meet keys m)).trans ?_
      cases m with
      | deed d => rfl
      | turn t =>
          cases t with
          | forwarder => rfl
          | watcher => exact v.stream_log
      | lose => rfl

/-- What taking everything leaves of a watch. -/
lemma takeAll_spec {s : Rehearsal} {n : Nat} {w : Watch} (h : s.watch? n = some w) :
    (s.takeAll n).2 = (w.delivery.drain (Watch.rules s.ring w.scope)).1
      ∧ (s.takeAll n).1.entries = s.entries
      ∧ (s.takeAll n).1.watch? n
        = some { w with delivery := (w.delivery.drain (Watch.rules s.ring w.scope)).2.1 } := by
  rw [Rehearsal.takeAll, h]
  refine ⟨rfl, rfl, ?_⟩
  exact (Rehearsal.watch?_setWatch s n n _).trans (by rw [if_pos rfl, h]; rfl)

/-- What a membership log leaves that is let act. -/
lemma listen_spec (s : Rehearsal) {l : Listener} (hopen : l.finished = false) :
    (s.listen l).2 = { l with finished := Membership.isOver (s.takeAll l.stream).2 }
      ∧ (s.listen l).1.entries = (s.takeAll l.stream).1.entries
      ∧ (s.listen l).1.watch? l.stream
        = if Membership.isOver (s.takeAll l.stream).2 then none
          else (s.takeAll l.stream).1.watch? l.stream := by
  obtain ⟨stream, scope, finished⟩ := l
  obtain rfl : finished = false := hopen
  rw [Rehearsal.listen, if_neg Bool.false_ne_true]
  generalize s.takeAll stream = taken
  obtain ⟨t, events⟩ := taken
  dsimp only
  cases Membership.isOver events with
  | false => exact ⟨rfl, rfl, rfl⟩
  | true => exact ⟨rfl, rfl, (Rehearsal.watch?_closeWatch _ stream stream).trans (if_pos rfl)⟩

/-- **The membership log of a rehearsal has its turns**: when it is let act, it takes everything at once
and reports it, and forwarder and logger come to the same by turns. -/
theorem Follows.exists_listen (h : Follows keys ring os v) (hopen : v.logger.finished = false) :
    ∃ turns : List Party,
      let w := v.after keys (turns.map .turn)
      let listened := v.fleet.listen v.logger
      w.logger = listened.2
        ∧ w.lines = v.lines ++ Membership.notices keys.nodes (v.fleet.takeAll v.logger.stream).2
        ∧ w.fleet.entries = listened.1.entries
        ∧ w.fleet.watch? v.logger.stream = listened.1.watch? v.logger.stream := by
  obtain ⟨os', hos', hdrain⟩ := Delivery.exists_drain (Watch.rules ring keys.nodes)
    (Course.after (Watch.rules ring keys.nodes) {} os).delivery
    (Course.after (Watch.rules ring keys.nodes) {} os).taken
  obtain ⟨turns, rfl⟩ := Delivery.exists_turns hos'
  obtain ⟨htaken, hkept, htakenWatch⟩ := takeAll_spec (h.watch_of_open hopen)
  obtain ⟨hlogger, hentries, hwatch⟩ := listen_spec v.fleet hopen
  rw [h.ring_eq] at htaken htakenWatch
  rw [htaken] at hlogger hwatch ⊢
  rw [hkept] at hentries
  rw [htakenWatch] at hwatch
  have hw := h.after (turns.map .turn)
  rw [occasions_turns] at hw
  have hover : (v.after keys (turns.map .turn)).logger.finished
      = Membership.isOver ((Course.after (Watch.rules ring keys.nodes) {} os).delivery.drain
        (Watch.rules ring keys.nodes)).1 := by
    have hnot := h.finished_eq.symm.trans hopen
    rw [Membership.isOver] at hnot
    rw [hw.finished_eq, Course.after_append, hdrain, Membership.isOver, List.any_append, hnot]
    rfl
  refine ⟨turns, ?_, ?_, ?_, ?_⟩
  · rw [hlogger, ← hover]
    have hscope := hw.scope_eq.trans h.scope_eq.symm
    have hstream := stream_after keys v (turns.map .turn)
    generalize v.after keys (turns.map .turn) = w at hscope hstream
    obtain ⟨fleet, ⟨stream, scope, finished⟩, lines⟩ := w
    obtain rfl : stream = v.logger.stream := hstream
    obtain rfl : scope = v.logger.scope := hscope
    rfl
  · rw [hw.lines_eq, h.lines_eq, Course.after_append, hdrain, Membership.notices, List.map_append]
    rfl
  · rw [hentries, h.entries_after, changes_turns]
    rfl
  · have hown := hw.watch_eq
    rw [stream_after, hover, Course.after_append, hdrain] at hown
    exact hown.trans hwatch.symm

end Moves

/-! ## Replaying the log -/

section Replaying

variable (keys : KeySpace) {s opened : Rehearsal} {stream : Nat}

/-- A logger that reads from a watch which was just opened. -/
lemma follows_opened (hfree : s.watch? s.streams = none) (hprompt : s.removalTime = 0)
    (hopened : (Rehearsal.registry keys).watch.run.run.run s = (some (.ok stream), opened)) :
    Follows keys s.ring [] ⟨opened, { stream, scope := keys.nodes }, []⟩
      ∧ opened.entries = s.entries := by
  have hrun := Rehearsal.run_keyCall .watch (fun s => s.openWatch keys.nodes) s
  have hsame : (Rehearsal.keyCall .watch fun s => s.openWatch keys.nodes).run.run.run s
      = (some (.ok stream), opened) := hopened
  rw [hsame] at hrun
  split at hrun
  · cases hrun
  · obtain ⟨hstream, rfl⟩ := Prod.mk.inj hrun
    obtain rfl : stream = s.streams := Except.ok.inj (Option.some.inj hstream)
    refine ⟨⟨rfl, rfl, hprompt, rfl, rfl, ?_⟩, rfl⟩
    have hwatch := Rehearsal.watch?_openWatch s s.streams keys.nodes
    rw [hfree, if_pos rfl] at hwatch
    exact hwatch

/-- **The membership log replays to the set of nodes that are present.**  Let the registry open a watch
when no presence key exists, on a stream whose number is free, and let a logger read it and not be
cancelled.  Then let any moves be made, in any order: nodes register, claim, release and are removed,
anyone puts or deletes any keys, processes start and end, the forwarder of the watch and the logger
have their turns, and the key-value store may be lost.  (Removals from the document store take no time,
which is to say that whatever happens meanwhile counts as happening afterwards.)

The lines of the log are at any time a first part of the lines of all changes of presence keys, which
give the bare ids of nodes.  The one exception is a last line that tells why the watch was closed.
There is none unless at some time the forwarder found more changes waiting than the store keeps, or the
store was lost.

Once the lines of all changes are logged, the nodes whose last line says that they are online are those
whose presence keys are there, and the value in that line is the one under the key.  After the watch was
closed nothing more is logged.  And if forwarder and logger have their turns again and again, all lines
are logged at some time, unless the watch was closed. -/
theorem log_replays (hfree : s.watch? s.streams = none)
    (hopened : (Rehearsal.registry keys).watch.run.run.run s = (some (.ok stream), opened))
    (habsent : ∀ id, s.entries.get? (keys.nodeKey id) = none) (hprompt : s.removalTime = 0)
    (moves : List Move) :
    let start : Vigil := { fleet := opened, logger := { stream, scope := keys.nodes } }
    let v := start.after keys moves
    let due := (start.changes keys moves).filterMap (Membership.line? keys.nodes)
    (v.lines <+: due
        ∨ ∃ first reason, first <+: due ∧ v.lines = first ++ [.membershipClosed reason]
          ∧ ((∃ sooner later, moves = sooner ++ later ∧ (start.after keys sooner).Lags)
            ∨ .lose ∈ moves))
      ∧ (due <+: v.lines → ∀ id value,
        Membership.lastLine? id v.lines = some (.nodeOnline id value)
          ↔ v.fleet.entries.get? (keys.nodeKey id) = some value)
      ∧ (∀ reason, .membershipClosed reason ∈ v.lines →
        ∀ later, (v.after keys later).lines = v.lines)
      ∧ ∀ schedule, Fair schedule → ∃ n,
        ((v.paced keys schedule n).lines = due
            ∨ ∃ reason, .membershipClosed reason ∈ (v.paced keys schedule n).lines)
          ∧ ∀ m ≥ n, (v.paced keys schedule m).lines = (v.paced keys schedule n).lines := by
  intro start v due
  obtain ⟨hstart, hentries⟩ := follows_opened keys hfree hprompt hopened
  have hlines := hstart.lines_cases moves
  have hv : Follows keys s.ring _ v := hstart.after moves
  refine ⟨hlines, fun hall id value => ?_, fun reason hmem later => ?_,
    fun schedule hfair => hstart.exists_told moves hfair⟩
  · have hpresent := Membership.lastLine?_filterMap (hentries.symm ▸ habsent)
      (start.changes keys moves) id value
    rw [← hstart.entries_after moves] at hpresent
    refine Iff.trans ?_ hpresent
    -- a last line that tells why the watch was closed is about no node
    have hlast : Membership.lastLine? id v.lines = Membership.lastLine? id due := by
      rcases hlines with hpart | ⟨first, reason, hfirst, heq, -⟩
      · exact congrArg _ (hall.eq_of_length_le hpart.length_le).symm
      · rw [heq] at hall ⊢
        have hclosed : ∀ l ∈ [Notice.membershipClosed reason], Membership.about? l ≠ some id :=
          fun l hl => by
            rw [List.mem_singleton.mp hl]
            exact nofun
        rw [Membership.lastLine?_append hclosed]
        rcases List.prefix_concat_iff.mp hall with hwhole | hpart
        · have hmem : .membershipClosed reason ∈ due := hwhole ▸ List.mem_concat_self
          exact absurd hmem (Membership.closed_notMem_lines _ _ reason)
        · exact congrArg _ (hpart.eq_of_length_le hfirst.length_le).symm
    rw [hlast]
  · exact (after_of_finished (hv.finished_iff.mpr ⟨reason, hmem⟩) later).1

end Replaying

/-- Two processes at an empty key-value store. -/
def idleFleet : Rehearsal where
  now := { millis := 518400000 }
  live := [7, 8]

/-- A logger that reads from the first watch of an empty key-value store. -/
def firstVigil : Vigil where
  fleet := (idleFleet.openWatch "/jobwatch/node/").1
  logger := { stream := 0, scope := "/jobwatch/node/" }

/-- A node comes, and its process dies; another process of the node finds its key and removes it, and
another node comes.  Meanwhile something else is put elsewhere, and the logger reads along. -/
def comings : List Move :=
  [.deed (.claim { id := "n1", pid := 7, ip := "10.0.0.1", hostname := "alpha" }),
    .turn .forwarder, .turn .forwarder, .deed (.put "/jobwatch/group/g" "x"), .deed (.kill 7),
    .deed (.register { id := "n1", pid := 9, ip := "10.0.0.1", hostname := "alpha" }),
    .turn .watcher, .deed (.claim { id := "n2", pid := 8, ip := "10.0.0.2", hostname := "beta" })]
    ++ List.replicate 5 (.turn .forwarder) ++ List.replicate 2 (.turn .watcher)

/-- Of workers that come and go the log tells in order, and ends where the entries do. -/
theorem log_replays_comings :
    let v := firstVigil.after {} comings
    v.lines = [.nodeOnline "n1" "7", .nodeOffline "n1", .nodeOnline "n2" "8"]
      ∧ ∀ id value, Membership.lastLine? id v.lines = some (.nodeOnline id value)
        ↔ v.fleet.entries.get? (KeySpace.nodeKey {} id) = some value := by
  intro v
  obtain ⟨-, hreplays, -⟩ := log_replays (s := idleFleet) {} rfl rfl (fun _ => rfl) rfl comings
  have hlines : v.lines = [.nodeOnline "n1" "7", .nodeOffline "n1", .nodeOnline "n2" "8"] := by
    decide +kernel
  refine ⟨hlines, hreplays ?_⟩
  decide +kernel

end Vigil

end FleetLedger
