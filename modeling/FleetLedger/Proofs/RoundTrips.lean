import FleetLedger.Coordination.Event
import FleetLedger.Model.Group
import FleetLedger.Model.Tally
import FleetLedger.Proofs.NodeRows
import FleetLedger.Proofs.Pages

/-!
# What is kept is read back

Values of six kinds are kept as documents.  A `Form` is how a kind of value is written and read, and
it names the fields that its decoder looks at.  That it looks at no others (`Decoder.Within`) is
inherited from the fields that a decoder is put together from.  So other fields may be added at will
(`Decoder.Within.decode_merge`), and all that is left to show for each kind is that a document with
just its own fields is read as the value that it was made of.

A row of the latest executions is the document of an execution with a field more, and an execution
does not look at that field; so whatever is read as an execution is, with the field, read as a row
(`Latest.run_insert`).

The main statement is **`kept_values_read_back`**.
-/

namespace FleetLedger

open Decoding

/-! ## What a decoder looks at -/

namespace Decoding

/-- The decoder looks at no fields but these. -/
def Decoder.Within {α : Type} (names : List String) (p : Decoder α) : Prop :=
  ∀ d d' : Document, (∀ name ∈ names, d'.get? name = d.get? name) → p.run d' = p.run d

variable {α β : Type} {names : List String}

/-- A field is read by looking at that field. -/
lemma within_field {name : String} (h : name ∈ names) (absent : Except Fault α)
    (reader : Reader α) : (field name absent reader).Within names := by
  intro d d' hsame
  simp only [field, hsame name h]

namespace Decoder.Within

/-- What becomes of the value read makes no difference to where the decoder looks. -/
lemma map {p : Decoder α} (hp : p.Within names) (f : α → β) : (f <$> p).Within names := by
  intro d d' hsame
  show f <$> p.run d' = f <$> p.run d
  rw [hp d d' hsame]

/-- Two decoders side by side look where each of them looks. -/
lemma seq {p : Decoder (α → β)} {q : Decoder α} (hp : p.Within names) (hq : q.Within names) :
    (p <*> q).Within names := by
  intro d d' hsame
  show (both p q).run d' = (both p q).run d
  simp only [both, hp d d' hsame, hq d d' hsame]

/-- So do two of which the second depends on what the first has read. -/
lemma after {p : Decoder α} {q : α → Decoder β} (hp : p.Within names)
    (hq : ∀ a, (q a).Within names) : (p.after q).Within names := by
  intro d d' hsame
  show (p.run d').bind (fun a => (q a).run d') = (p.run d).bind fun a => (q a).run d
  rw [hp d d' hsame]
  exact congrArg _ (funext fun a => hq a d d' hsame)

lemma mono {p : Decoder α} {more : List String} (hp : p.Within names)
    (h : ∀ name ∈ names, name ∈ more) : p.Within more :=
  fun d d' hsame => hp d d' fun name hname => hsame name (h name hname)

/-- What is read is read beside any other fields. -/
lemma decode_merge {p : Decoder α} {d : Document} {a : α} (hp : p.Within names)
    (h : p.run d = .ok a) (others : List (String × Json)) (key : String)
    (hothers : ∀ e ∈ others, e.1 ∉ names) : Document.decode p key (d.merge others) = .ok a := by
  have hsame : ∀ name ∈ names, (d.merge others).get? name = d.get? name := by
    intro name hname
    refine Table.get?_merge_of_notMem fun hmem => ?_
    obtain ⟨e, he, rfl⟩ := List.mem_map.mp hmem
    exact hothers e he hname
  rw [Document.decode, hp _ _ hsame, h]
  rfl

/-- Writing what is there already changes nothing that is read. -/
lemma run_insert_same {p : Decoder α} {d : Document} {name : String} {value : Json}
    (hp : p.Within names) (h : d.get? name = some value) : p.run (d.insert name value) = p.run d := by
  refine hp _ _ ?_
  intro other _
  rw [Table.get?_insert]
  split
  case isTrue hother => rw [← hother, h]
  case isFalse => rfl

end Decoder.Within

end Decoding

/-! ## Forms -/

/-- How values of a kind are written and read. -/
structure Form (α : Type) where
  toDocument : α → Document
  decoder : Decoder α
  fields : List String
  within : decoder.Within fields

namespace Form

variable {α : Type}

/-- A document is read as a value, whatever other fields are added to it. -/
def Reads (f : Form α) (d : Document) (a : α) : Prop :=
  ∀ (others : List (String × Json)) (key : String), (∀ e ∈ others, e.1 ∉ f.fields) →
    Document.decode f.decoder key (d.merge others) = .ok a

/-- A value can be written, and what is written is read as that value. -/
def Faithful (f : Form α) (a : α) : Prop :=
  ∃ d, Document.ofJson (.object (f.toDocument a)) = .ok d ∧ f.Reads d a

end Form

/-! ## Executions -/

namespace Execution

/-- The fields of an execution. -/
def names : List String :=
  ["id", "job_id", "job_group", "user", "name", "node", "hostname", "ip", "command", "output",
    "success", "begin_time", "end_time", "cleanup"]

/-- Reading an execution looks at its own fields only. -/
lemma within_decoder : decoder.Within names := by
  have hfield : ∀ {α : Type} {name : String} {absent : Except Fault α} {reader : Reader α},
      name ∈ names → (field name absent reader).Within names := fun h => within_field h _ _
  rw [decoder]
  refine .seq (.seq (.seq (.seq (.seq (.seq (.seq (.seq (.seq (.seq (.seq (.seq (.seq (.map ?_ _)
    ?_) ?_) ?_) ?_) ?_) ?_) ?_) ?_) ?_) ?_) ?_) ?_) ?_
  all_goals exact hfield (by decide)

/-- How executions are written and read. -/
def form : Form Execution := ⟨toDocument, decoder, names, within_decoder⟩

/-- A time for removal that is not set may be written as null. -/
lemma Spelled.insert_null {e : Execution} {d : Document} (h : Spelled e d)
    (hcleanup : e.cleanup = none) : Spelled e (d.insert "cleanup" .null) := by
  constructor
  case cleanup =>
    rw [hcleanup, Table.get?_insert]
    exact Or.inr (if_pos rfl)
  all_goals rw [Table.get?_insert, if_neg (by decide)]
  case id => exact h.id
  case jobId => exact h.jobId
  case jobGroup => exact h.jobGroup
  case user => exact h.user
  case name => exact h.name
  case node => exact h.node
  case hostname => exact h.hostname
  case ip => exact h.ip
  case command => exact h.command
  case output => exact h.output
  case success => exact h.success
  case beginTime => exact h.beginTime
  case endTime => exact h.endTime

end Execution

/-! ## Rows of the latest executions -/

namespace Latest

/-- The fields of a row: the pointer to its source, and those of an execution. -/
def names : List String := "ref_log_id" :: Execution.names

/-- Reading a row looks at the pointer and at the fields of an execution only. -/
lemma within_decoder : decoder.Within names := by
  refine .after (within_field (by decide) _ _) fun source => .map ?_ _
  exact Execution.within_decoder.mono fun name h => List.mem_cons_of_mem _ h

/-- How rows of the latest executions are written and read. -/
def form : Form Latest := ⟨toDocument, decoder, names, within_decoder⟩

/-- **A row is read as the execution and its source**, from any document that is read as the
execution. -/
theorem run_insert {d : Document} {e : Execution} (h : Execution.decoder.run d = .ok e)
    (source : String) :
    decoder.run (d.insert "ref_log_id" (.string source)) = .ok ⟨e, source⟩ := by
  have hsource : (required "ref_log_id" string).run (d.insert "ref_log_id" (.string source))
      = .ok source := run_string (by rw [Table.get?_insert, if_pos rfl])
  have hsame : ∀ name ∈ Execution.names,
      (d.insert "ref_log_id" (.string source)).get? name = d.get? name := by
    intro name hname
    rw [Table.get?_insert, if_neg]
    rintro rfl
    exact absurd hname (by decide)
  have hrest := Decoder.run_map (f := fun x => (⟨x, source⟩ : Latest))
    ((Execution.within_decoder _ _ hsame).trans h)
  simp only [decoder, Decoder.after, hsource]
  exact hrest

/-- A row is read from its document. -/
lemma run_toDocument (l : Latest) : decoder.run l.toDocument = .ok l := by
  have hread := l.execution.spelled_toDocument.decode
  rw [toDocument]
  exact run_insert hread l.source

/-- A row whose document lists have shortened is read as the row without the two long texts. -/
lemma run_shortened (l : Latest) :
    decoder.run (shortened l.toDocument) = .ok { l with execution := l.execution.listed } := by
  have hsame : ∀ name ∈ names, (shortened l.toDocument).get? name
      = ((shortened l.execution.toDocument).insert "ref_log_id" (.string l.source)).get? name := by
    intro name _
    simp only [toDocument, get?_shortened, Table.get?_insert]
    split
    case isTrue h => rcases h with rfl | rfl <;> simp
    case isFalse => rfl
  rw [within_decoder _ _ hsame]
  exact run_insert l.execution.spelled_toDocument.shortened.decode l.source

/-- In a row, too, a time for removal that is not set may be written as null. -/
lemma run_insert_null {l : Latest} (hcleanup : l.execution.cleanup = none) :
    decoder.run (l.toDocument.insert "cleanup" .null) = .ok l := by
  have hsame : ∀ name ∈ names, (l.toDocument.insert "cleanup" .null).get? name
      = ((l.execution.toDocument.insert "cleanup" .null).insert "ref_log_id"
        (.string l.source)).get? name := by
    intro name _
    simp only [toDocument, Table.get?_insert]
    split
    case isTrue h =>
      subst h
      simp
    case isFalse => rfl
  rw [within_decoder _ _ hsame]
  exact run_insert (l.execution.spelled_toDocument.insert_null hcleanup).decode l.source

end Latest

/-! ## Tallies -/

/-- A tally whose counts are integers of 64 bits. -/
structure StoredTally extends Tally where
  total_bounds : Json.leastInt ≤ total ∧ total ≤ Json.greatestSigned
  succeeded_bounds : Json.leastInt ≤ succeeded ∧ succeeded ≤ Json.greatestSigned
  failed_bounds : Json.leastInt ≤ failed ∧ failed ≤ Json.greatestSigned

namespace Tally

/-- The fields of a tally. -/
def names : List String := ["total", "successed", "failed", "date"]

lemma within_decoder : decoder.Within names := by
  rw [decoder]
  refine .seq (.seq (.seq (.map ?_ _) ?_) ?_) ?_
  all_goals exact within_field (by decide) _ _

/-- How tallies are written and read. -/
def form : Form Tally := ⟨toDocument, decoder, names, within_decoder⟩

/-- A count is read back if 64 bits hold it. -/
lemma run_count {d : Document} {name : String} {n : Int} (hfield : d.get? name = some (.int n))
    (hbounds : Json.leastInt ≤ n ∧ n ≤ Json.greatestSigned) :
    (withDefault name 0 int64).run d = .ok n :=
  run_withDefault (Or.inr ⟨_, hfield, if_pos hbounds⟩)

/-- A tally is read from its document, with its day or without one. -/
lemma run_toDocument (t : StoredTally) : decoder.run t.toTally.toDocument = .ok t.toTally := by
  obtain ⟨⟨total, succeeded, failed, date⟩, htotal, hsucceeded, hfailed⟩ := t
  have htotalField : (toDocument ⟨total, succeeded, failed, date⟩).get? "total"
      = some (.int total) := by cases date <;> rfl
  have hsucceededField : (toDocument ⟨total, succeeded, failed, date⟩).get? "successed"
      = some (.int succeeded) := by cases date <;> rfl
  have hfailedField : (toDocument ⟨total, succeeded, failed, date⟩).get? "failed"
      = some (.int failed) := by cases date <;> rfl
  have hdate : (optional "date" string).run (toDocument ⟨total, succeeded, failed, date⟩)
      = .ok date := by
    cases date with
    | none => exact run_optional_none (Or.inl rfl)
    | some key => exact run_optional_some (v := .string key) rfl (by simp) rfl
  open Decoder in
  have hfields := run_seq (run_seq (run_seq (run_map (f := Tally.mk)
    (run_count htotalField htotal))
    (run_count hsucceededField hsucceeded))
    (run_count hfailedField hfailed))
    hdate
  exact hfields

end Tally

/-! ## Nodes -/

namespace Node

/-- The fields of a node: those that the roster keeps, and whether it is connected. -/
def names : List String := Roster.names ++ ["connected"]

lemma within_decoder : decoder.Within names := by
  rw [decoder]
  refine .seq (.seq (.seq (.seq (.seq (.seq (.seq (.seq (.map ?_ _) ?_) ?_) ?_) ?_) ?_) ?_) ?_) ?_
  all_goals exact within_field (by decide) _ _

/-- How nodes are written and read. -/
def form : Form Node := ⟨toDocument, decoder, names, within_decoder⟩

/-- A node is read from its document, which here says whether it is connected. -/
lemma run_toDocument (w : Worker) : decoder.run w.toNode.toDocument = .ok w.toNode := by
  have hpid : int32 (.int w.pid) = .ok w.pid := if_pos w.pid_bounds
  have hip : w.toNode.toDocument.get? "ip" = some (.string w.ip) := rfl
  have hhostname : w.toNode.toDocument.get? "hostname" = some (.string w.hostname) := rfl
  have hpidField : w.toNode.toDocument.get? "pid" = some (.int w.pid) := rfl
  have hversion : w.toNode.toDocument.get? "version" = some (.string w.version) := rfl
  have hup : w.toNode.toDocument.get? "up_time" = some (stamp w.upTime) := rfl
  have hdown : w.toNode.toDocument.get? "down_time" = some (stamp w.downTime) := rfl
  have halive : w.toNode.toDocument.get? "alive" = some (.bool w.alive) := rfl
  have hconnected : w.toNode.toDocument.get? "connected" = some (.bool w.connected) := rfl
  have hid : (required "id" string).run w.toNode.toDocument = .ok w.id := run_string rfl
  open Decoder Roster in
  have hfields := run_seq (run_seq (run_seq (run_seq (run_seq (run_seq (run_seq (run_seq
    (run_map (f := Node.mk)
      hid)
      (run_required hpidField hpid))
      (run_string hip))
      (run_string hhostname))
      (Execution.run_text (Or.inr hversion)))
      (run_stamp hup))
      (run_stamp hdown))
      (run_flag (Or.inr halive)))
      (run_flag (Or.inr hconnected))
  exact hfields

/-- Writing the null that an absent time is kept as once more changes nothing. -/
lemma run_insert_null (w : Worker) {name : String} (h : w.toNode.toDocument.get? name = some .null) :
    decoder.run (w.toNode.toDocument.insert name .null) = .ok w.toNode := by
  rw [within_decoder.run_insert_same h]
  exact run_toDocument w

end Node

/-! ## Groups -/

lemma Decoding.mapM_string (texts : List String) :
    (texts.map Json.string).mapM string = .ok texts := by
  induction texts with
  | nil => rfl
  | cons text rest ih =>
      rw [List.map_cons, List.mapM_cons, ih]
      rfl

namespace Group

/-- The fields of a group. -/
def names : List String := ["id", "name", "nids"]

lemma within_decoder : decoder.Within names := by
  rw [decoder]
  refine .seq (.seq (.map ?_ _) ?_) ?_
  all_goals exact within_field (by decide) _ _

/-- How groups are written and read. -/
def form : Form Group := ⟨toDocument, decoder, names, within_decoder⟩

/-- A group is read from its document. -/
lemma run_toDocument (g : Group) : decoder.run g.toDocument = .ok g := by
  have hids : (withDefault "nids" [] (list string)).run g.toDocument = .ok g.nodeIds :=
    run_withDefault (Or.inr ⟨_, rfl, mapM_string g.nodeIds⟩)
  have hid : (required "id" string).run g.toDocument = .ok g.id := run_string rfl
  have hname : (required "name" string).run g.toDocument = .ok g.name := run_string rfl
  exact Decoder.run_seq (Decoder.run_seq (Decoder.run_map (f := Group.mk) hid) hname) hids

end Group

/-! ## Events -/

namespace Event

/-- The fields of an event; each kind of event has some of them. -/
def names : List String := ["op", "key", "value", "reason"]

lemma within_decoder : decoder.Within names := by
  refine .after (within_field (by decide) _ _) fun k => ?_
  cases k with
  | put => exact .seq (.map (within_field (by decide) _ _) _) (within_field (by decide) _ _)
  | delete => exact .map (within_field (by decide) _ _) _
  | closed => exact .map (within_field (by decide) _ _) _

/-- How events are written and read. -/
def form : Form Event := ⟨toDocument, decoder, names, within_decoder⟩

/-- The kind that an event names decides which of its fields are read. -/
lemma run_of_kind {d : Document} {word : String} {k : Kind}
    (hfield : d.get? "op" = some (.string word)) (hkind : kind (.string word) = .ok k) :
    decoder.run d = (decoderOf k).run d := by
  have hop : (required "op" kind).run d = .ok k := run_required hfield hkind
  simp only [decoder, Decoder.after, hop]
  rfl

/-- An event of any kind is read from its document. -/
lemma run_toDocument (ev : Event) : decoder.run ev.toDocument = .ok ev := by
  cases ev with
  | put key value =>
      have hkey : (required "key" string).run (put key value).toDocument = .ok key :=
        run_string rfl
      have hvalue : (required "value" string).run (put key value).toDocument = .ok value :=
        run_string rfl
      rw [run_of_kind (k := .put) rfl rfl]
      exact Decoder.run_seq (Decoder.run_map hkey) hvalue
  | delete key =>
      rw [run_of_kind (k := .delete) rfl rfl]
      exact Decoder.run_map (run_string rfl)
  | closed reason =>
      rw [run_of_kind (k := .closed) rfl rfl]
      exact Decoder.run_map (run_string rfl)

end Event

/-! ## All of them -/

/-- **What is kept is read back.**  A value of any of the six kinds can be written, and its document
is read as that value, whatever fields are added that its kind does not know.  The list view of an
execution or of a row is read as the value without its two long texts, and a time that is absent may
as well be null. -/
theorem kept_values_read_back :
    ((∀ e : Execution, Execution.form.Faithful e) ∧ (∀ l : Latest, Latest.form.Faithful l) ∧
      (∀ t : StoredTally, Tally.form.Faithful t.toTally) ∧
      (∀ w : Worker, Node.form.Faithful w.toNode) ∧ (∀ g : Group, Group.form.Faithful g) ∧
      (∀ ev : Event, Event.form.Faithful ev)) ∧
    ((∀ e : Execution, Execution.form.Reads (shortened e.toDocument) e.listed) ∧
      (∀ l : Latest, Latest.form.Reads (shortened l.toDocument)
        { l with execution := l.execution.listed })) ∧
    ((∀ e : Execution, e.cleanup = none →
        Execution.form.Reads (e.toDocument.insert "cleanup" .null) e) ∧
      (∀ l : Latest, l.execution.cleanup = none →
        Latest.form.Reads (l.toDocument.insert "cleanup" .null) l) ∧
      (∀ w : Worker, w.upTime = none →
        Node.form.Reads (w.toNode.toDocument.insert "up_time" .null) w.toNode) ∧
      (∀ w : Worker, w.downTime = none →
        Node.form.Reads (w.toNode.toDocument.insert "down_time" .null) w.toNode)) := by
  refine ⟨⟨?executions, ?rows, ?tallies, ?nodes, ?groups, ?events⟩, ⟨?listed, ?listedRows⟩,
    ?cleanup, ?cleanupRows, ?upTime, ?downTime⟩
  case executions =>
    intro e
    have hread := e.spelled_toDocument.decode
    exact ⟨e.toDocument, rfl, Execution.within_decoder.decode_merge hread⟩
  case rows =>
    intro l
    exact ⟨l.toDocument, rfl, Latest.within_decoder.decode_merge l.run_toDocument⟩
  case tallies =>
    intro t
    exact ⟨t.toDocument, rfl, Tally.within_decoder.decode_merge (Tally.run_toDocument t)⟩
  case nodes =>
    intro w
    exact ⟨w.toDocument, rfl, Node.within_decoder.decode_merge (Node.run_toDocument w)⟩
  case groups =>
    intro g
    exact ⟨g.toDocument, rfl, Group.within_decoder.decode_merge g.run_toDocument⟩
  case events =>
    intro ev
    exact ⟨ev.toDocument, rfl, Event.within_decoder.decode_merge ev.run_toDocument⟩
  case listed =>
    intro e
    have hread := e.spelled_toDocument.shortened.decode
    exact Execution.within_decoder.decode_merge hread
  case listedRows =>
    intro l
    exact Latest.within_decoder.decode_merge l.run_shortened
  case cleanup =>
    intro e habsent
    have hread := (e.spelled_toDocument.insert_null habsent).decode
    exact Execution.within_decoder.decode_merge hread
  case cleanupRows =>
    intro l habsent
    exact Latest.within_decoder.decode_merge (Latest.run_insert_null habsent)
  case upTime =>
    intro w habsent
    have hnull : w.toNode.toDocument.get? "up_time" = some (Node.stamp w.upTime) := rfl
    rw [habsent] at hnull
    exact Node.within_decoder.decode_merge (Node.run_insert_null w hnull)
  case downTime =>
    intro w habsent
    have hnull : w.toNode.toDocument.get? "down_time" = some (Node.stamp w.downTime) := rfl
    rw [habsent] at hnull
    exact Node.within_decoder.decode_merge (Node.run_insert_null w hnull)

end FleetLedger
