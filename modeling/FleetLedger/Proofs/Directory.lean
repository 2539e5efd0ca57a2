import FleetLedger.Proofs.Enrollment
import FleetLedger.Proofs.Scans
import FleetLedger.Proofs.Sorting

/-!
# The two ways to read the roster

Listing the nodes takes the presence keys from a scan and cuts the scope off them; finding one node
asks for its key.  Both come to the same, because a presence key is the scope and an id, whatever the
scope is and whatever other keys there are (`contains_present`).  So a node is listed as it is found,
and the roster is listed in the order of ids (**`run_listNodes`**, **`run_findNode`**).

**`roster_through_run`** puts that together with what a run leaves in the roster.
-/

namespace FleetLedger

namespace Table

variable {α : Type}

lemma contains_iff_exists {t : Table α} {name : String} :
    t.contains name = true ↔ ∃ e ∈ t, e.1 = name := by
  rw [contains]
  induction t with
  | nil => simp
  | cons e rest ih =>
      obtain ⟨k, v⟩ := e
      by_cases hk : k = name
      · simp [get?, hk]
      · simp [get?, hk, ih]

end Table

namespace Rehearsal

/-- What is shown of a worker: it is connected when it is alive and its presence key is there. -/
def shown (keys : KeySpace) (s : Rehearsal) (w : Worker) : Node :=
  { w.toNode with connected := w.alive && s.entries.contains (keys.nodeKey w.id) }

section Reads

variable {keys : KeySpace} {s : Rehearsal} {workers : List Worker}

lemma report_nil (s : Rehearsal) : s.report [] = s := by
  rw [report, List.append_nil]

/-- **The scan finds the ids whose presence keys are there.** -/
theorem contains_present (keys : KeySpace) {entries : Entries} (h : Table.Sorted entries)
    (id : String) :
    ((entries.scan keys.nodes).filterMap fun e => Scope.rest? keys.nodes e.key).contains id
      = entries.contains (keys.nodeKey id) := by
  rw [Bool.eq_iff_iff, List.contains_iff_mem, List.mem_filterMap, Table.contains_iff_exists,
    Entries.scan_eq_filter h]
  constructor
  · rintro ⟨e, he, hrest⟩
    obtain ⟨entry, hentry, rfl⟩ := List.mem_map.mp he
    exact ⟨entry, List.mem_of_mem_filter hentry, Scope.rest?_eq_some_iff.mp hrest⟩
  · rintro ⟨entry, hentry, hkey⟩
    have hcovers : Scope.covers keys.nodes entry.1 = true := Scope.covers_iff.mpr ⟨id, hkey⟩
    refine ⟨⟨entry.1, entry.2⟩, ?_, Scope.rest?_eq_some_iff.mpr hkey⟩
    exact List.mem_map.mpr ⟨entry, List.mem_filter.mpr ⟨hentry, hcovers⟩, rfl⟩

lemma decode_row (w : Worker) (place : String) :
    (Roster.row w).decode Node.decoder place = .ok w.identity := by
  rw [Document.decode, Roster.row, (Roster.spelled_entry w.toNode).decode]
  rfl

/-- **The roster is sorted by ids**, for no two of its documents have one. -/
theorem exists_sorted (hids : (workers.map fun w => w.id).Nodup) :
    ∃ sorted : List Worker, sorted.Perm workers ∧ (sorted.map fun w => w.id).Pairwise (· < ·)
      ∧ Document.sort [.up "id"] (workers.map Roster.row) = sorted.map Roster.row := by
  have hvalue : ∀ w, (SortKey.up "id").value (Roster.row w) = .string w.id := by
    intro w
    rw [SortKey.value, Document.getOrNull, SortKey.up, Roster.row,
      (Roster.spelled_entry w.toNode).id]
    rfl
  have huniform : Uniform [.up "id"] (workers.map Roster.row) := by
    intro k hk
    obtain rfl := List.mem_singleton.mp hk
    refine ⟨.text, fun d hd => ?_⟩
    obtain ⟨w, -, rfl⟩ := List.mem_map.mp hd
    rw [hvalue]
    exact Json.OfKind.text _
  obtain ⟨rows, -, hearlier, hrows⟩ := Document.sort_uniform huniform
  have hsorted : Document.sort [.up "id"] (workers.map Roster.row)
      = (workers.mergeSort fun a b =>
          Document.order [.up "id"] (Roster.row a) (Roster.row b) != .gt).map Roster.row := by
    rw [Document.sort, List.map_mergeSort]
    exact fun _ _ _ _ => rfl
  have hperm := List.mergeSort_perm workers fun a b =>
    Document.order [.up "id"] (Roster.row a) (Roster.row b) != .gt
  generalize (workers.mergeSort fun a b =>
    Document.order [.up "id"] (Roster.row a) (Roster.row b) != .gt) = sorted at hsorted hperm
  refine ⟨sorted, hperm, ?_, hsorted⟩
  -- rows that follow are below or have the same id, and no two have the same
  have hbelow : (sorted.map Roster.row).Pairwise fun a b =>
      (SortKey.up "id").Below a b
        ∨ (SortKey.up "id").value a = (SortKey.up "id").value b := by
    rw [← hsorted, ← hrows, List.pairwise_map]
    exact hearlier.imp fun h => h.imp_right And.left
  have hdistinct : (sorted.map fun w => w.id).Nodup := (hperm.map _).nodup_iff.mpr hids
  rw [List.pairwise_map] at hbelow ⊢
  refine (hbelow.and (List.pairwise_map.mp hdistinct)).imp fun {a b} h => ?_
  obtain ⟨hlt | heq, hne⟩ := h
  · have hlt : ((SortKey.up "id").value (Roster.row a)).Below
        ((SortKey.up "id").value (Roster.row b)) := hlt
    rw [hvalue, hvalue] at hlt
    cases hlt with
    | text h => exact h
  · rw [hvalue, hvalue] at heq
    exact absurd (Json.string.inj heq) hne

variable (keys) in
/-- **Listing the nodes** changes nothing, and gives the workers in the order of their ids. -/
theorem run_listNodes (h : Mirrored workers s) :
    ∃ sorted : List Worker, sorted.Perm workers ∧ (sorted.map fun w => w.id).Pairwise (· < ·)
      ∧ ((registry keys).listNodes).run.run.run s
        = (some (.ok (sorted.map (shown keys s))), s) := by
  obtain ⟨sorted, hperm, hascending, hsort⟩ := exists_sorted h.ids
  refine ⟨sorted, hperm, hascending, ?_⟩
  have hscan : ((registry keys).coordination.scan keys.nodes).run.run.run s
      = (some (.ok (s.entries.scan keys.nodes)), s) :=
    run_keyCall_ok (fun s => (s, s.entries.scan keys.nodes)) (h.keys .scan)
  have hdocs : s.documents.find Roster.collection .all { sort := [.up "id"] }
      = sorted.map Roster.row := by
    have hall : (workers.map Roster.row).filter (Filter.holds .all) = workers.map Roster.row :=
      List.filter_eq_self.mpr fun _ _ => rfl
    rw [Memory.find, h.rows, hall]
    exact (List.map_id _).trans hsort
  have hfind : ((registry keys).documents.find Roster.collection .all
      { sort := [.up "id"] }).run.run.run s = (some (.ok (sorted.map Roster.row)), s) := by
    have hcall := run_storeCall .find Roster.collection (fun _ => Filter.notices .all)
      (Memory.store.find Roster.collection .all { sort := [.up "id"] }) s
    rw [if_neg (ne_true_of_eq_false (h.documents .find _ (by decide)))] at hcall
    refine hcall.trans ?_
    rw [← hdocs]
    exact congrArg (Prod.mk _) (report_nil s)
  have hdecoded : (sorted.map Roster.row).mapM (fun d => d.decode Node.decoder (Roster.placeOf d))
      = .ok (sorted.map fun w => w.identity) :=
    mapM_map_eq_ok (f := fun d : Document => d.decode Node.decoder (Roster.placeOf d))
      (fun w => decode_row w _) sorted
  have hlist : (Roster.list (registry keys).documents).run.run.run s
      = (some (.ok (sorted.map fun w => w.identity)), s) := by
    refine (run_bind hfind _).trans ?_
    rw [hdecoded]
    rfl
  refine (run_bind hscan _).trans ((run_bind hlist _).trans ?_)
  refine congrArg (fun nodes : List Node => (some (Except.ok nodes), s)) ?_
  rw [List.map_map]
  refine List.map_congr_left fun w _ => ?_
  exact congrArg (Registry.withPresence w.identity) (contains_present keys h.entries w.id)

/-- **Finding a node** changes nothing, and gives the worker with the id. -/
theorem run_findNode (h : Mirrored workers s) (id : String) :
    ((registry keys).findNode id).run.run.run s
      = (some (match withId id workers with
        | some w => .ok (shown keys s w)
        | none => .error (.notFound "node" id)), s) := by
  have hdoc : s.documents.findOne Roster.collection (Roster.ofId id)
      = (withId id workers).map Roster.row := by
    rw [Memory.findOne, h.rows, List.find?_map, withId]
    refine congrArg (Option.map Roster.row) (congrArg (workers.find? ·) (funext fun w => ?_))
    exact Roster.holds_ofId_entry id w.toNode
  have hone : ((registry keys).documents.findOne Roster.collection (Roster.ofId id)).run.run.run s
      = (some (.ok ((withId id workers).map Roster.row)), s) := by
    have hcall := run_storeCall .findOne Roster.collection (fun _ => (Roster.ofId id).notices)
      (Memory.store.findOne Roster.collection (Roster.ofId id)) s
    rw [if_neg (ne_true_of_eq_false (h.documents .findOne _ (by decide)))] at hcall
    refine hcall.trans ?_
    rw [← hdoc]
    exact congrArg (Prod.mk _) (report_nil s)
  cases hknown : withId id workers with
  | none =>
      rw [hknown] at hone
      have hfind : (Roster.find? (registry keys).documents id).run.run.run s
          = (some (.ok none), s) := run_bind hone _
      exact run_bind hfind _
  | some w =>
      rw [hknown] at hone
      have hfind : (Roster.find? (registry keys).documents id).run.run.run s
          = (some (.ok (some w.identity)), s) := by
        refine (run_bind hone _).trans ?_
        simp only [Option.map_some, decode_row]
        rfl
      refine (run_bind hfind _).trans ?_
      have hid : w.id = id := by simpa using List.find?_some hknown
      -- the key is asked for only if the node is alive
      cases halive : w.alive with
      | false =>
          have hidentity : w.identity.alive = false := halive
          have hshown : Registry.withPresence w.identity false = shown keys s w := by
            simp [Registry.withPresence, shown, Worker.identity, halive]
          simp only [hidentity, Bool.false_eq_true, if_false, hshown]
          rfl
      | true =>
          have hidentity : w.identity.alive = true := halive
          have hget : ((registry keys).coordination.get (keys.nodeKey id)).run.run.run s
              = (some (.ok (s.entries.get? (keys.nodeKey id))), s) :=
            run_keyCall_ok (fun s => (s, s.entries.get? (keys.nodeKey id))) (h.keys .get)
          simp only [hidentity, if_true]
          refine (run_bind hget _).trans ?_
          rw [← hid]
          rfl

/-- Nothing is written while upserts are out, nor where there is no node to be enrolled. -/
lemma documents_enrolling {marked? : Option Node}
    (h : s.isOut .upsert Roster.collection = true ∨ marked? = none) :
    (marked?.elim s s.enrolling).documents = s.documents := by
  cases marked? with
  | none => rfl
  | some n =>
      rw [Option.elim_some, enrolling, if_pos (h.resolve_right (Option.some_ne_none n))]
      rfl

/-- Who has an id does not depend on the order of the workers. -/
lemma withId_perm {workers' : List Worker} (hids : (workers.map fun w => w.id).Nodup)
    (h : workers'.Perm workers) (id : String) : withId id workers' = withId id workers := by
  have hids' : (workers'.map fun w => w.id).Nodup := (h.map _).nodup_iff.mpr hids
  refine Option.ext fun w => ?_
  rw [withId, withId, find?_key_eq_some_iff hids, find?_key_eq_some_iff hids', h.mem_iff]

/-- The documents of a roster that have an id. -/
lemma count_ofId (h : Mirrored workers s) (id : String) :
    s.documents.count Roster.collection (Roster.ofId id) = (withId id workers).toList.length := by
  have hhit : ∀ w : Worker, (Roster.ofId id).holds (Roster.row w) = decide (w.id = id) :=
    fun w => Roster.holds_ofId_entry id w.toNode
  rw [Memory.count, h.rows, List.countP_map, List.countP_eq_length_filter, withId,
    ← filter_key_eq h.ids]
  exact congrArg List.length (List.filter_congr fun w _ => hhit w)

/-- Every document of a roster is that of a worker who is known by its id. -/
lemma known_of_mem_rows (h : Mirrored workers s) {d : Document}
    (hd : d ∈ s.documents.rows Roster.collection) :
    ∃ w, withId w.id workers = some w ∧ (Roster.ofId w.id).holds d = true
      ∧ (∀ place, d.decode Node.decoder place = .ok { w.toNode with connected := false })
      ∧ d.contains "connected" = false := by
  rw [h.rows] at hd
  obtain ⟨w, hw, rfl⟩ := List.mem_map.mp hd
  refine ⟨w, (find?_key_eq_some_iff h.ids).mpr ⟨hw, rfl⟩,
    (Roster.holds_ofId_entry w.id w.toNode).trans (decide_eq_true rfl), decode_row w, ?_⟩
  rw [Table.contains, Roster.row, (Roster.spelled_entry w.toNode).connected]
  rfl

/-- In whatever order workers are listed, they are those who are known by their ids. -/
lemma mem_map_shown_iff (h : Mirrored workers s) {sorted : List Worker}
    (hperm : sorted.Perm workers) (n : Node) :
    n ∈ sorted.map (shown keys s) ↔ ∃ w, withId n.id workers = some w ∧ n = shown keys s w := by
  rw [List.mem_map]
  constructor
  · rintro ⟨w, hw, rfl⟩
    exact ⟨w, (find?_key_eq_some_iff h.ids).mpr ⟨hperm.mem_iff.mp hw, rfl⟩, rfl⟩
  · rintro ⟨w, hw, rfl⟩
    exact ⟨w, hperm.mem_iff.mpr (List.mem_of_find?_eq_some hw), rfl⟩

end Reads

/-- **The roster and its two readings, through any run.**  Let workers start and stop with any
clocks, claim and release presence keys, and let identities be removed, from a fleet with an empty
roster, whatever keys there are; and let upserts be out at any of these times.

Then there is one document in the roster for each id that is known, and none besides.  It is decoded
to the worker that was last written under the id, all fields of it, and it does not say whether that
worker is connected.

A worker that starts is flagged: it is alive, of this version, and up since then.  One that stops is
not alive, and down since then.  All else about it stays as it was.  This is so whether or not upserts
are out; if they are, nothing in the document store changes.  Only a clock that cannot be read breaks
a mark off, and then nothing changes either.

Listing the nodes gives the known workers strictly in the order of their ids.  Each is connected
exactly if it is alive and its presence key is there.  Finding a node gives the one that is listed
with the id, or says that there is none. -/
theorem roster_through_run (keys : KeySpace) {s : Rehearsal} (hserving : Serving s)
    (hnew : s.documents.rows Roster.collection = []) (deeds : List Deed) :
    let s' := afterDeeds keys s deeds
    (∀ id, s'.documents.count Roster.collection (Roster.ofId id)
        = if (identity? id deeds).isSome then 1 else 0)
      ∧ (∀ d ∈ s'.documents.rows Roster.collection, ∃ w, identity? w.id deeds = some w
        ∧ (Roster.ofId w.id).holds d = true
        ∧ (∀ place, d.decode Node.decoder place = .ok { w.toNode with connected := false })
        ∧ d.contains "connected" = false)
      ∧ (∀ (n : Node) (clock : Timestamp) (out : Bool),
        let started := ((registry keys).markStarted n).run.run (s'.during clock out)
        let stopped := ((registry keys).markStopped n).run.run (s'.during clock out)
        (0 ≤ clock.millis →
          started.1 = some { n with alive := true, version := Registry.version, upTime := some clock }
            ∧ stopped.1 = some { n with alive := false, downTime := some clock })
          ∧ (clock.millis < 0 → started.1 = none ∧ stopped.1 = none)
          ∧ (out = true ∨ clock.millis < 0 →
            started.2.documents = s'.documents ∧ stopped.2.documents = s'.documents))
      ∧ ∃ listed, ((registry keys).listNodes).run.run.run s' = (some (.ok listed), s')
        ∧ (listed.map Node.id).Pairwise (· < ·)
        ∧ (∀ n, n ∈ listed ↔ ∃ w, identity? n.id deeds = some w ∧ n = shown keys s' w)
        ∧ ∀ id, ((registry keys).findNode id).run.run.run s'
          = (some (match listed.find? (fun n => n.id = id) with
            | some n => .ok n
            | none => .error (.notFound "node" id)), s') := by
  intro s'
  obtain ⟨workers, hmirrored, hknown⟩ := mirrored_after keys hserving hnew deeds
  obtain ⟨sorted, hperm, hascending, hlist⟩ := run_listNodes keys hmirrored
  have hsorted : ∀ id, withId id sorted = withId id workers :=
    fun id => withId_perm hmirrored.ids hperm id
  refine ⟨fun id => ?_, fun d hd => ?_, fun n clock out => ?_, _, hlist, ?_, fun n => ?_,
    fun id => ?_⟩
  · rw [count_ofId hmirrored, hknown]
    cases identity? id deeds <;> rfl
  · simp only [← hknown]
    exact known_of_mem_rows hmirrored hd
  · have hnow : (s'.during clock out).now.shown? = clock.shown? := rfl
    have hunshown : clock.millis < 0 → clock.shown? = none := fun hbefore =>
      if_neg (Int.not_le.mpr hbefore)
    simp only [run_markStarted, run_markStopped, hnow]
    refine ⟨fun hclock => ?_, fun hbefore => ?_, fun hout => ?_⟩
    · have hshown : clock.shown? = some clock := if_pos hclock
      rw [hshown]
      exact ⟨rfl, rfl⟩
    · rw [hunshown hbefore]
      exact ⟨rfl, rfl⟩
    · have hkept : ∀ mark : Timestamp → Node, (s'.during clock out).isOut .upsert Roster.collection
          = true ∨ clock.shown?.map mark = none := fun mark =>
        hout.imp (isOut_during clock out).trans fun hbefore =>
          congrArg (Option.map mark) (hunshown hbefore)
      exact ⟨documents_enrolling (hkept _), documents_enrolling (hkept _)⟩
  · rw [List.map_map]
    exact hascending
  · simp only [← hknown]
    exact mem_map_shown_iff hmirrored hperm n
  · have hfound : (sorted.map (shown keys s')).find? (fun n => n.id = id)
        = (withId id sorted).map (shown keys s') := List.find?_map ..
    rw [run_findNode hmirrored, hfound, hsorted]
    cases withId id workers <;> rfl

/-- A fleet that has not written its roster yet; node `a` has left a presence key behind. -/
def unlisted : Rehearsal where
  now := { millis := 259200000 }
  entries := [("/jobwatch/node/a", "7"), ("/jobwatch/nodes", "")]

/-- A worker of a node with an id. -/
def workerAt (id : String) : Worker where
  id := id
  pid := 7
  ip := "10.0.0.1"
  hostname := "alpha"
  pid_bounds := by decide

/-- Two workers start; one of them stops while upserts are out, and the other is removed. -/
def dayOfDeeds : List Deed :=
  [.start (workerAt "a") { millis := 259200000 } false, .claim (workerAt "ab").toNode,
    .start (workerAt "ab") { millis := 259200001 } false,
    .stop (workerAt "a") { millis := 259200002 } true, .release (workerAt "ab").toNode,
    .remove "ab"]

/-- Node `a` as it started: its stop was not written. -/
def nodeUp : Node where
  id := "a"
  pid := 7
  ip := "10.0.0.1"
  hostname := "alpha"
  version := "0.1.0"
  upTime := some { millis := 259200000 }
  alive := true

/-- What the day leaves of the two, and what a mark makes of node `a` when upserts are out: it goes
down, and keeps the version and the time at which it came up. -/
theorem roster_through_dayOfDeeds :
    Serving unlisted ∧ unlisted.documents.rows Roster.collection = []
      ∧ let s := afterDeeds {} unlisted dayOfDeeds
        s.documents.count Roster.collection (Roster.ofId "a") = 1
          ∧ s.documents.count Roster.collection (Roster.ofId "ab") = 0
          ∧ (∀ d ∈ s.documents.rows Roster.collection,
            ∀ place, d.decode Node.decoder place = .ok nodeUp)
          ∧ ((registry {}).findNode "a").run.run.run s
            = (some (.ok { nodeUp with connected := true }), s)
          ∧ ((registry {}).findNode "ab").run.run.run s
            = (some (.error (.notFound "node" "ab")), s)
          ∧ let stopped := ((registry {}).markStopped nodeUp).run.run
              (s.during { millis := 259200002 } true)
            stopped.1 = some
                { id := "a", pid := 7, ip := "10.0.0.1", hostname := "alpha", version := "0.1.0",
                  upTime := some { millis := 259200000 },
                  downTime := some { millis := 259200002 }, alive := false }
              ∧ stopped.2.documents = s.documents := by
  have hserving : Serving unlisted := by
    refine ⟨fun call => ?_, fun call collection _ => rfl, rfl, ?_⟩
    · cases call <;> rfl
    · exact List.pairwise_pair.mpr (by decide)
  obtain ⟨hcount, hrows, hmarks, listed, -, -, hlisted, hfind⟩ :=
    roster_through_run {} hserving rfl dayOfDeeds
  -- the day leaves `a` as it started, and nobody else
  have hidentity : ∀ id, identity? id dayOfDeeds
      = if "a" = id then some ((workerAt "a").started { millis := 259200000 }) else none := by
    intro id
    by_cases ha : "a" = id
    · subst ha
      rfl
    · by_cases hab : "ab" = id
      · subst hab
        rfl
      · simp [identity?, dayOfDeeds, Deed.known, Deed.written?, Timestamp.shown?, Worker.started,
          workerAt, ha, hab]
  have hkey : (afterDeeds {} unlisted dayOfDeeds).entries.contains "/jobwatch/node/a" = true := by
    decide +kernel
  have hup : shown {} (afterDeeds {} unlisted dayOfDeeds)
      ((workerAt "a").started { millis := 259200000 }) = { nodeUp with connected := true } :=
    congrArg (fun present => { nodeUp with connected := present }) hkey
  have hlisted : ∀ n, n ∈ listed ↔ n = { nodeUp with connected := true } := by
    intro n
    rw [hlisted, hidentity]
    constructor
    · rintro ⟨w, hw, rfl⟩
      split at hw
      · rw [← Option.some.inj hw, hup]
      · cases hw
    · rintro rfl
      exact ⟨_, if_pos rfl, hup.symm⟩
  refine ⟨hserving, rfl, hcount "a", hcount "ab", fun d hd place => ?_, ?_, ?_, ?_⟩
  · obtain ⟨w, hw, -, hdecoded, -⟩ := hrows d hd
    rw [hidentity] at hw
    split at hw
    · rw [hdecoded, ← Option.some.inj hw]
      rfl
    · cases hw
  · rw [hfind]
    cases hfound : listed.find? (fun n => n.id = "a") with
    | none =>
        have hmem := (hlisted _).mpr rfl
        exact absurd (decide_eq_true rfl) (List.find?_eq_none.mp hfound _ hmem)
    | some n => rw [(hlisted n).mp (List.mem_of_find?_eq_some hfound)]
  · rw [hfind]
    have hnone : listed.find? (fun n => n.id = "ab") = none := by
      refine List.find?_eq_none.mpr fun n hn => ?_
      rw [(hlisted n).mp hn]
      decide
    rw [hnone]
  · obtain ⟨hclock, -, hout⟩ := hmarks nodeUp { millis := 259200002 } true
    exact ⟨(hclock (by decide)).2, (hout (Or.inl rfl)).2⟩

end Rehearsal

end FleetLedger
