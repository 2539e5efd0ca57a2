import FleetLedger.Ledger
import FleetLedger.Proofs.Documents

/-!
# The documents of executions

The ledger keeps an execution as a document twice: in the history (`Execution.toDocument`), and as
the latest one of its combination (`Latest.overwriting`).  Both spell the execution field by field,
in the sense of `Execution.Spelled`, and from a document that spells an execution the decoder reads
that execution (`Spelled.decode`).

An update may only touch what it means to touch.  Setting the time for removal gives the document of
the execution with that time (`insert_cleanup_toDocument`), and a row that is overwritten with
another execution becomes the row of that one, with nothing left of the old (`merge_overwriting`).
-/

namespace FleetLedger

/-! ## Executions -/

namespace Execution

/-- **A document spells an execution**: each field that has to be there says what the execution
says, and a field that may be missing is missing only where there is nothing to say. -/
structure Spelled (e : Execution) (d : Document) : Prop where
  id : d.get? "id" = none ∧ e.id = "" ∨ d.get? "id" = some (.string e.id)
  jobId : d.get? "job_id" = some (.string e.jobId)
  jobGroup : d.get? "job_group" = some (.string e.jobGroup)
  user : d.get? "user" = some (.string e.user)
  name : d.get? "name" = some (.string e.name)
  node : d.get? "node" = some (.string e.node)
  hostname : d.get? "hostname" = some (.string e.hostname)
  ip : d.get? "ip" = some (.string e.ip)
  command : d.get? "command" = none ∧ e.command = "" ∨ d.get? "command" = some (.string e.command)
  output : d.get? "output" = none ∧ e.output = "" ∨ d.get? "output" = some (.string e.output)
  success : d.get? "success" = some (.bool e.success)
  beginTime : d.get? "begin_time" = some (stamp e.beginTime)
  endTime : d.get? "end_time" = some (stamp e.endTime)
  cleanup : match e.cleanup with
    | none => d.get? "cleanup" = none ∨ d.get? "cleanup" = some .null
    | some t => d.get? "cleanup" = some (stamp t)

lemma timestamp_stamp (t : Timestamp) : Decoding.timestamp (stamp t) = .ok t := by
  have hrange : -8334601228800000 ≤ t.millis ∧ t.millis ≤ 8210266876799999 :=
    ⟨t.first_le, t.le_last⟩
  simp only [stamp, Decoding.timestamp, Timestamp.ofMillis?, dif_pos hrange]

/-- A text that may be missing is read, whether it is there or not. -/
lemma run_text {d : Document} {name text : String}
    (h : d.get? name = none ∧ text = "" ∨ d.get? name = some (.string text)) :
    (Decoding.withDefault name "" Decoding.string).run d = .ok text :=
  Decoding.run_withDefault (h.imp_right fun h => ⟨_, h, rfl⟩)

/-- **Decoding reads what is spelled**, whatever other fields there are. -/
theorem Spelled.decode {e : Execution} {d : Document} (h : Spelled e d) :
    decoder.run d = .ok e := by
  have hcleanup : (Decoding.optional "cleanup" Decoding.timestamp).run d = .ok e.cleanup := by
    have hspelled := h.cleanup
    cases hc : e.cleanup with
    | none =>
        rw [hc] at hspelled
        exact Decoding.run_optional_none hspelled
    | some t =>
        rw [hc] at hspelled
        exact Decoding.run_optional_some hspelled (by simp [stamp]) (timestamp_stamp t)
  open Decoding Decoder in
  have hfields := run_seq (run_seq (run_seq (run_seq (run_seq (run_seq (run_seq (run_seq (run_seq
    (run_seq (run_seq (run_seq (run_seq (run_map (f := Execution.mk)
      (run_text h.id))
      (run_string h.jobId))
      (run_string h.jobGroup))
      (run_string h.user))
      (run_string h.name))
      (run_string h.node))
      (run_string h.hostname))
      (run_string h.ip))
      (run_text h.command))
      (run_text h.output))
      (run_bool h.success))
      (run_required h.beginTime (timestamp_stamp e.beginTime)))
      (run_required h.endTime (timestamp_stamp e.endTime)))
      hcleanup
  exact hfields

/-! ### The document of an execution -/

/-- Only the id and the time for removal may be left out. -/
lemma names_fields (e : Execution) : e.fields.map Prod.fst
    = (if e.id = "" then [] else ["id"]) ++ ["job_id", "job_group", "user", "name", "node",
        "hostname", "ip", "command", "output", "success", "begin_time", "end_time"]
      ++ (if e.cleanup = none then [] else ["cleanup"]) := by
  by_cases hid : e.id = "" <;> cases hc : e.cleanup <;> simp [fields, hid, hc]

lemma nodup_fields (e : Execution) : (e.fields.map Prod.fst).Nodup := by
  rw [names_fields]
  split <;> split <;> simp

/-- The document of an execution has its fields. -/
lemma get?_toDocument {e : Execution} {name : String} {value : Json}
    (h : (name, value) ∈ e.fields) : e.toDocument.get? name = some value :=
  Table.get?_merge_of_mem e.nodup_fields h

lemma get?_toDocument_eq_none {e : Execution} {name : String}
    (h : name ∉ e.fields.map Prod.fst) : e.toDocument.get? name = none :=
  Table.get?_merge_of_notMem h

lemma sorted_toDocument (e : Execution) : Table.Sorted e.toDocument := Table.sorted_ofList _

/-- A time for removal is in the document only if there is one. -/
lemma get?_cleanup_toDocument (e : Execution) :
    e.toDocument.get? "cleanup" = e.cleanup.map stamp := by
  cases hc : e.cleanup with
  | none => exact get?_toDocument_eq_none (by rw [names_fields]; split <;> simp)
  | some t => exact get?_toDocument (by simp [fields, hc])

lemma spelled_toDocument (e : Execution) : Spelled e e.toDocument where
  id := by
    by_cases hid : e.id = ""
    · refine Or.inl ⟨get?_toDocument_eq_none ?_, hid⟩
      rw [names_fields]
      split <;> simp_all
    · exact Or.inr (get?_toDocument (by simp [fields, hid]))
  jobId := get?_toDocument (by simp [fields])
  jobGroup := get?_toDocument (by simp [fields])
  user := get?_toDocument (by simp [fields])
  name := get?_toDocument (by simp [fields])
  node := get?_toDocument (by simp [fields])
  hostname := get?_toDocument (by simp [fields])
  ip := get?_toDocument (by simp [fields])
  command := Or.inr (get?_toDocument (by simp [fields]))
  output := Or.inr (get?_toDocument (by simp [fields]))
  success := get?_toDocument (by simp [fields])
  beginTime := get?_toDocument (by simp [fields])
  endTime := get?_toDocument (by simp [fields])
  cleanup := by
    rw [get?_cleanup_toDocument]
    cases e.cleanup <;> simp

/-- A time for removal comes last, so it can be told apart from the other fields. -/
lemma toDocument_of_cleanup {e : Execution} {t : Timestamp} (h : e.cleanup = some t) :
    e.toDocument
      = ({ e with cleanup := none } : Execution).toDocument.insert "cleanup" (stamp t) := by
  simp only [toDocument, Table.ofList, Table.merge, fields, h, List.foldl_append, List.foldl_cons,
    List.foldl_nil]

/-- **Setting the time for removal changes nothing else**: what results is the document of the
execution with that time. -/
theorem insert_cleanup_toDocument (e : Execution) (t : Timestamp) :
    e.toDocument.insert "cleanup" (stamp t)
      = ({ e with cleanup := some t } : Execution).toDocument := by
  rw [toDocument_of_cleanup (e := { e with cleanup := some t }) rfl]
  cases hc : e.cleanup with
  | none =>
      have he : ({ e with cleanup := none } : Execution) = e := by rw [← hc]
      simp only [he]
  | some old =>
      rw [toDocument_of_cleanup hc, Table.insert_insert]

/-! ### Combinations -/

/-- What the latest executions are kept by. -/
structure Combination where
  node : String
  hostname : String
  ip : String
  jobId : String
  jobGroup : String
  deriving DecidableEq

/-- The combination of node and job that an execution belongs to. -/
def combination (e : Execution) : Combination := ⟨e.node, e.hostname, e.ip, e.jobId, e.jobGroup⟩

/-- Holds of the documents of a combination. -/
def Combination.filter (c : Combination) : Filter :=
  .and [.eqString "node" c.node, .eqString "hostname" c.hostname, .eqString "ip" c.ip,
    .eqString "job_id" c.jobId, .eqString "job_group" c.jobGroup]

/-- The row for an execution is looked for by its combination. -/
lemma rowFilter_eq (e : Execution) : Latest.rowFilter e = e.combination.filter := rfl

/-- The filter of a combination selects what spells an execution of it. -/
lemma Spelled.holds_filter {e : Execution} {d : Document} (h : Spelled e d) (c : Combination) :
    c.filter.holds d = true ↔ e.combination = c := by
  obtain ⟨node, hostname, ip, jobId, jobGroup⟩ := c
  simp [Combination.filter, combination, h.node, h.hostname, h.ip, h.jobId, h.jobGroup]

end Execution

/-! ## Rows of the latest executions -/

namespace Latest

open Execution

/-- The names of the fields of a row, which are the same for all executions. -/
def rowFields : List String :=
  ["cleanup", "ref_log_id", "job_id", "job_group", "user", "name", "node", "hostname", "ip",
    "command", "output", "success", "begin_time", "end_time"]

/-- A row refers to its execution, and says null where there is no time for removal. -/
lemma get?_overwriting (e : Execution) (name : String) :
    (overwriting e).get? name
      = if name = "ref_log_id" then some (.string e.id)
        else if name = "cleanup" then some ((e.cleanup.map stamp).getD .null)
        else ({ e with id := "" } : Execution).toDocument.get? name := by
  have hcleanup := get?_cleanup_toDocument { e with id := "" }
  simp only [overwriting, ofExecution, toDocument, Document.get?_insertIfMissing,
    Table.get?_insert, hcleanup, eq_comm (b := name)]
  by_cases hname : name = "cleanup"
  · subst hname
    simp
  · simp [hname]

lemma sorted_overwriting (e : Execution) : Table.Sorted (overwriting e) :=
  Document.sorted_insertIfMissing ((sorted_toDocument _).insert _ _) _ _

/-- Whatever the execution, its row has the same fields. -/
lemma contains_overwriting (e : Execution) (name : String) :
    (overwriting e).contains name = true ↔ name ∈ rowFields := by
  rw [overwriting, Document.contains_insertIfMissing, ofExecution, toDocument,
    Table.contains_insert, Execution.toDocument, Table.contains_ofList, names_fields,
    eq_comm (a := "cleanup"), eq_comm (a := "ref_log_id"), rowFields]
  by_cases hname : name = "cleanup"
  · simp [hname]
  · cases e.cleanup <;> simp [hname]

/-- A row spells its execution but for the id. -/
lemma spelled_overwriting (e : Execution) : Spelled { e with id := "" } (overwriting e) := by
  have h := spelled_toDocument { e with id := "" }
  constructor
  case cleanup =>
    rw [get?_overwriting]
    cases e.cleanup <;> simp
  all_goals rw [get?_overwriting, if_neg (by decide), if_neg (by decide)]
  case id => exact h.id
  case jobId => exact h.jobId
  case jobGroup => exact h.jobGroup
  case user => exact h.user
  case name => exact h.name
  case node => exact h.node
  case hostname => exact h.hostname
  case ip => exact h.ip
  case command => exact h.command
  case output => exact h.output
  case success => exact h.success
  case beginTime => exact h.beginTime
  case endTime => exact h.endTime

/-- **A row gives back its execution**, with the id that it points at. -/
theorem decode_overwriting (e : Execution) : decoder.run (overwriting e) = .ok (ofExecution e) := by
  have hsource : (Decoding.required "ref_log_id" Decoding.string).run (overwriting e) = .ok e.id :=
    Decoding.run_string (by simp [get?_overwriting])
  have hrest := Decoding.Decoder.run_map (f := fun x => (⟨x, e.id⟩ : Latest))
    (spelled_overwriting e).decode
  simp only [decoder, Decoding.Decoder.after, hsource]
  exact hrest

/-- **Nothing of an old row survives**: overwritten with an execution, it is the row of that one. -/
theorem merge_overwriting (old e : Execution) :
    (overwriting old).merge (overwriting e) = overwriting e := by
  refine Table.merge_eq_right (sorted_overwriting old) (sorted_overwriting e) fun name h => ?_
  rw [contains_overwriting] at h ⊢
  exact h

/-- A row that is new has the fields of its execution, too: those that the filter pins are among
them. -/
lemma seed_overwriting (e : Execution) :
    (Update.set (overwriting e)).seed (rowFilter e) = overwriting e := by
  refine Table.merge_eq_right (Table.sorted_ofList _) (sorted_overwriting e) fun name h => ?_
  rw [contains_overwriting]
  have hpinned : name ∈ (rowFilter e).equalities.map Prod.fst := (Table.contains_ofList _ _).mp h
  simp only [rowFilter, Filter.equalities, Filter.equalitiesOf, Filter.eqString, List.append_nil,
    List.cons_append, List.nil_append, List.map_cons, List.map_nil, List.mem_cons,
    List.not_mem_nil, or_false] at hpinned
  rcases hpinned with rfl | rfl | rfl | rfl | rfl <;> decide

end Latest

end FleetLedger
