import FleetLedger.Proofs.KeyedLists
import FleetLedger.Proofs.Rows
import FleetLedger.Roster

/-!
# The documents of nodes

The roster keeps a node as a document with all of its fields but one: whether it is connected is not
kept (`Roster.entry`).  Which fields there are does not depend on the node, so nothing is left of an
old document when a node is written over it (`merge_entry`): a time that is absent overwrites a time
that was there, because an absent time is kept as null.  From the document the node is read back
(**`Spelled.decode`**).

With that, writing a node into the roster is an amendment of a plain list of nodes under their ids
(**`upsertRows_entry`**).
-/

namespace FleetLedger

/-- A node with a process id of 32 bits. -/
structure Worker extends Node where
  pid_bounds : -2147483648 ≤ pid ∧ pid ≤ 2147483647

/-- A worker as the roster knows it, which does not keep whether it is connected. -/
def Worker.identity (w : Worker) : Node := { w.toNode with connected := false }

namespace Roster

/-! ## Fields -/

/-- What is kept of a node. -/
def fields (n : Node) : List (String × Json) :=
  [("id", .string n.id), ("pid", .int n.pid), ("ip", .string n.ip), ("hostname", .string n.hostname),
    ("version", .string n.version), ("up_time", Node.stamp n.upTime),
    ("down_time", Node.stamp n.downTime), ("alive", .bool n.alive)]

/-- The names of what is kept of a node. -/
def names : List String :=
  ["id", "pid", "ip", "hostname", "version", "up_time", "down_time", "alive"]

lemma map_fst_fields (n : Node) : (fields n).map Prod.fst = names := rfl

/-- The document of a node has these fields, and whether the node is connected. -/
lemma toDocument_eq (n : Node) :
    n.toDocument = (Table.ofList (fields n)).insert "connected" (.bool n.connected) := rfl

lemma get?_entry (n : Node) (name : String) :
    (entry n).get? name = (Table.ofList (fields n)).get? name := by
  rw [entry, Table.get?_erase, toDocument_eq, Table.get?_insert]
  split
  · rename_i h
    subst h
    have hnot : "connected" ∉ (fields n).map Prod.fst := by
      rw [map_fst_fields]
      decide
    exact (Table.get?_merge_of_notMem (t := []) hnot).symm
  · rfl

/-- **A document spells a node**: each field says what the node says, and none says whether it is
connected. -/
structure Spelled (n : Node) (d : Document) : Prop where
  id : d.get? "id" = some (.string n.id)
  pid : d.get? "pid" = some (.int n.pid)
  ip : d.get? "ip" = some (.string n.ip)
  hostname : d.get? "hostname" = some (.string n.hostname)
  version : d.get? "version" = some (.string n.version)
  upTime : d.get? "up_time" = some (Node.stamp n.upTime)
  downTime : d.get? "down_time" = some (Node.stamp n.downTime)
  alive : d.get? "alive" = some (.bool n.alive)
  connected : d.get? "connected" = none

/-- What is kept of a node has these fields and no others. -/
lemma contains_entry (n : Node) (name : String) :
    (entry n).contains name = true ↔ name ∈ names := by
  rw [Table.contains, get?_entry]
  exact Table.contains_ofList (fields n) name

lemma spelled_entry (n : Node) : Spelled n (entry n) := by
  have hnames : ((fields n).map Prod.fst).Nodup := by
    rw [map_fst_fields]
    decide
  have hfield : ∀ {name value}, (name, value) ∈ fields n → (entry n).get? name = some value :=
    fun {name _} h => (get?_entry n name).trans (Table.get?_merge_of_mem hnames h)
  have hconnected : ¬ (entry n).contains "connected" = true := by
    rw [contains_entry]
    decide
  constructor
  case connected => simpa [Table.contains] using hconnected
  all_goals exact hfield (by simp [fields])

lemma sorted_entry (n : Node) : Table.Sorted (entry n) :=
  List.Pairwise.filter _ (Table.sorted_ofList _)

/-- A row is found by the id of its node. -/
lemma holds_ofId_entry (id : String) (n : Node) :
    (ofId id).holds (entry n) = decide (n.id = id) := by
  rw [Bool.eq_iff_iff, ofId, Filter.holds_eqString, (spelled_entry n).id, decide_eq_true_iff]
  simp

/-! ## Reading and writing -/

/-- A time that may be missing is read back. -/
lemma run_stamp {d : Document} {name : String} {t : Option Timestamp}
    (h : d.get? name = some (Node.stamp t)) :
    (Decoding.optional name Decoding.timestamp).run d = .ok t := by
  cases t with
  | none => exact Decoding.run_optional_none (Or.inr h)
  | some t =>
      have hread : Decoding.timestamp (Node.stamp (some t)) = .ok t := Execution.timestamp_stamp t
      exact Decoding.run_optional_some h (by simp [Node.stamp]) hread

/-- A flag that may be missing is read, whether it is there or not. -/
lemma run_flag {d : Document} {name : String} {b : Bool}
    (h : d.get? name = none ∧ b = false ∨ d.get? name = some (.bool b)) :
    (Decoding.withDefault name false Decoding.bool).run d = .ok b :=
  Decoding.run_withDefault (h.imp_right fun h => ⟨_, h, rfl⟩)

/-- **What is kept of a node is read back.** -/
theorem Spelled.decode {w : Worker} {d : Document} (h : Spelled w.toNode d) :
    Node.decoder.run d = .ok w.identity := by
  have hpid : Decoding.int32 (.int w.pid) = .ok w.pid := if_pos w.pid_bounds
  open Decoding Decoder in
  have hfields := run_seq (run_seq (run_seq (run_seq (run_seq (run_seq (run_seq (run_seq
    (run_map (f := Node.mk)
      (run_string h.id))
      (run_required h.pid hpid))
      (run_string h.ip))
      (run_string h.hostname))
      (Execution.run_text (Or.inr h.version)))
      (run_stamp h.upTime))
      (run_stamp h.downTime))
      (run_flag (Or.inr h.alive)))
      (run_flag (Or.inl ⟨h.connected, rfl⟩))
  exact hfields

/-- **Nothing is left of an old document** that a node is written over. -/
theorem merge_entry (old n : Node) : (entry old).merge (entry n) = entry n := by
  refine Table.merge_eq_right (sorted_entry old) (sorted_entry n) fun name h => ?_
  rw [contains_entry] at h ⊢
  exact h

/-- A row that is opened for a node has nothing but what is kept of it. -/
lemma seed_entry (n : Node) : (Update.set (entry n)).seed (ofId n.id) = entry n := by
  refine Table.merge_eq_right (Table.sorted_ofList _) (sorted_entry n) fun name h => ?_
  have hpinned : name ∈ (ofId n.id).equalities.map Prod.fst := (Table.contains_ofList _ _).mp h
  obtain rfl : name = "id" := List.mem_singleton.mp hpinned
  rw [contains_entry]
  decide

/-- The document of a worker. -/
def row (w : Worker) : Document := entry w.toNode

/-- A worker is written over the one with its id, or comes last. -/
def enrolled (w : Worker) (workers : List Worker) : List Worker :=
  amend (fun old => old.id = w.id) (fun _ => w) w workers

/-- **Writing a node into the roster** puts it in the place of the one with its id. -/
theorem upsertRows_entry (w : Worker) (workers : List Worker) :
    Memory.upsertRows (ofId w.id) (.set (entry w.toNode)) (workers.map row)
      = (enrolled w workers).map row := by
  have hhit : ∀ old : Worker, (ofId w.id).holds (row old) = decide (old.id = w.id) :=
    fun old => holds_ofId_entry w.id old.toNode
  have happly : ∀ old : Worker, (Update.set (entry w.toNode)).apply (row old) = row w :=
    fun old => merge_entry old.toNode w.toNode
  have hfresh : (Update.set (entry w.toNode)).seed (ofId w.id) = row w := seed_entry w.toNode
  rw [Memory.upsertRows_eq_amend, hfresh]
  exact amend_map hhit happly workers

end Roster

end FleetLedger
