import FleetLedger.Proofs.Counters
import FleetLedger.Proofs.History
import FleetLedger.Proofs.Projection
import FleetLedger.Proofs.Sorting

/-!
# Pages show every row once

A list of executions is asked for page by page, and each page is looked up on its own: it is found,
sorted, cut out and decoded anew.  That pages fit together is due to the order of the rows, which is
the same each time.  It is an order as `Sorting` requires it, for whatever is stored, a field holds
values of one kind (`ofKind_spell`).  Decoding does not need what lists leave out
(`executionsOf_shortened`).

**`pages_complete`** says what a caller sees who goes through the pages.
-/

namespace FleetLedger

open Ledger

/-! ## Cutting a list into pages -/

section Cutting

variable {α : Type} (xs : List α) {size : Nat}

/-- The page of a list with a number; there is none before the first. -/
def pageOf (size number : Nat) : List α := (xs.drop ((max number 1 - 1) * size)).take size

lemma pageOf_map {β : Type} (f : α → β) (size number : Nat) :
    pageOf (xs.map f) size number = (pageOf xs size number).map f := by
  simp only [pageOf, List.map_take, List.map_drop]

/-- Page after page is what the list begins with. -/
lemma flatMap_pageOf (n : Nat) :
    ((List.range n).flatMap fun i => pageOf xs size (i + 1)) = xs.take (n * size) := by
  induction n with
  | zero => simp
  | succ n ih =>
      have hpage : pageOf xs size (n + 1) = (xs.drop (n * size)).take size := by
        rw [pageOf, Nat.max_eq_left (Nat.le_add_left 1 n), Nat.add_sub_cancel]
      rw [List.range_succ, List.flatMap_append, ih, List.flatMap_singleton, hpage, ← List.take_add,
        Nat.succ_mul]

/-- The pages that a list takes are enough for it. -/
lemma le_pageCount_mul (hsize : 0 < size) (total : Nat) :
    total ≤ pageCount total size * size := by
  have hsplit := Nat.div_add_mod (total + (size - 1)) size
  have hrest := Nat.mod_lt (total + (size - 1)) hsize
  rw [pageCount, if_neg (Nat.ne_of_gt hsize), Nat.mul_comm]
  omega

/-- All of them but the last are full. -/
lemma mul_lt_of_lt_pageCount (hsize : 0 < size) {total n : Nat} (h : n < pageCount total size) :
    n * size < total := by
  rw [pageCount, if_neg (Nat.ne_of_gt hsize), Nat.lt_iff_add_one_le,
    Nat.le_div_iff_mul_le hsize, Nat.succ_mul] at h
  omega

/-- All pages but the last are full. -/
lemma length_pageOf (hsize : 0 < size) {number : Nat} (hfirst : 1 ≤ number)
    (h : number < pageCount xs.length size) : (pageOf xs size number).length = size := by
  have hfull := mul_lt_of_lt_pageCount hsize h
  obtain ⟨n, rfl⟩ : ∃ n, number = n + 1 := ⟨number - 1, by omega⟩
  rw [Nat.succ_mul] at hfull
  rw [pageOf, Nat.max_eq_left hfirst, Nat.add_sub_cancel, List.length_take, List.length_drop]
  omega

/-- Behind the last page there is nothing. -/
lemma pageOf_eq_nil (hsize : 0 < size) {number : Nat} (h : pageCount xs.length size < number) :
    pageOf xs size number = [] := by
  have henough := le_pageCount_mul hsize xs.length
  have hskipped : pageCount xs.length size * size ≤ (max number 1 - 1) * size :=
    Nat.mul_le_mul_right size (by omega)
  rw [pageOf, List.drop_eq_nil_of_le (Nat.le_trans henough hskipped), List.take_nil]

end Cutting

/-! ## The rows of a view -/

namespace Execution

/-- An execution as it appears in lists: without what was run and what it printed. -/
def listed (e : Execution) : Execution := { e with command := "", output := "" }

/-- The kind of values that a field holds. -/
def kindOf : String → Json.Kind
  | "success" => .truth
  | "begin_time" | "end_time" | "cleanup" => .whole
  | _ => .text

lemma ofKind_stamp (t : Timestamp) : (stamp t).OfKind .whole := Json.OfKind.whole t.millis_bounds

/-- Each field of an execution has values of one kind. -/
lemma ofKind_fields (e : Execution) : ∀ f ∈ e.fields, f.2.OfKind (kindOf f.1) := by
  have hstamp := ofKind_stamp
  have htext := Json.OfKind.text
  have htruth := Json.OfKind.truth
  intro f hf
  simp only [fields, List.mem_append] at hf
  rcases hf with (hf | hf) | hf
  · split at hf
    · cases hf
    · rw [List.mem_singleton.mp hf]
      exact htext _
  · simp only [List.mem_cons, List.not_mem_nil, or_false] at hf
    rcases hf with rfl | rfl | rfl | rfl | rfl | rfl | rfl | rfl | rfl | rfl | rfl | rfl
    all_goals first | exact htext _ | exact htruth _ | exact hstamp _
  · split at hf
    · rw [List.mem_singleton.mp hf]
      exact hstamp _
    · cases hf

/-- Whatever the field, the document of an execution holds a value of its kind, or none. -/
lemma ofKind_toDocument (e : Execution) (name : String) :
    (e.toDocument.getOrNull name).OfKind (kindOf name) := by
  by_cases h : name ∈ e.fields.map Prod.fst
  · obtain ⟨f, hf, rfl⟩ := List.mem_map.mp h
    rw [Document.getOrNull, get?_toDocument hf]
    exact e.ofKind_fields f hf
  · rw [Document.getOrNull, get?_toDocument_eq_none h]
    exact Json.OfKind.null

end Execution

lemma Latest.ofKind_overwriting (e : Execution) (name : String) :
    ((overwriting e).getOrNull name).OfKind (Execution.kindOf name) := by
  rw [Document.getOrNull, get?_overwriting]
  split
  case isTrue h =>
    subst h
    exact Json.OfKind.text _
  case isFalse =>
    split
    case isTrue h =>
      subst h
      cases e.cleanup with
      | none => exact Json.OfKind.null
      | some t => exact Execution.ofKind_stamp t
    case isFalse => exact Execution.ofKind_toDocument _ name

/-- The collection that a query looks into. -/
def Query.view (q : Query) : String := if q.latest then latestRows else history

/-- An execution as it is stored, in the history or as the latest of its combination. -/
def spell (latest : Bool) (e : Execution) : Document :=
  if latest then Latest.overwriting e else e.toDocument

/-- In either view a field has values of one kind, or null. -/
lemma ofKind_spell (latest : Bool) (e : Execution) (name : String) :
    ((spell latest e).getOrNull name).OfKind (Execution.kindOf name) := by
  cases latest with
  | true => exact Latest.ofKind_overwriting e name
  | false => exact e.ofKind_toDocument name

/-- Executions as they are spelled can be sorted by any fields. -/
lemma uniform_spell (latest : Bool) (keys : List SortKey) (es : List Execution) :
    Uniform keys (es.map (spell latest)) := by
  intro k _
  refine ⟨Execution.kindOf k.field, fun d hd => ?_⟩
  obtain ⟨e, -, rfl⟩ := List.mem_map.mp hd
  exact ofKind_spell latest e k.field

/-- Rows that spell executions are sorted like any list of rows, and spell the same executions then. -/
lemma exists_sorted_spell (latest : Bool) (keys : List SortKey) (es : List Execution) :
    ∃ (rows : List (Document × Nat)) (sorted : List Execution),
      rows.Perm (es.map (spell latest)).zipIdx ∧ sorted.Perm es ∧ rows.Pairwise (Earlier keys)
        ∧ rows.map Prod.fst = sorted.map (spell latest)
        ∧ Document.sort keys (es.map (spell latest)) = sorted.map (spell latest) := by
  obtain ⟨rows, hperm, hearlier, hrows⟩ := Document.sort_uniform (uniform_spell latest keys es)
  have hsorted : Document.sort keys (es.map (spell latest))
      = (es.mergeSort fun a b => Document.order keys (spell latest a) (spell latest b) != .gt).map
          (spell latest) := by
    rw [Document.sort, List.map_mergeSort]
    exact fun _ _ _ _ => rfl
  exact ⟨rows, _, hperm, List.mergeSort_perm _ _, hearlier, hrows.trans hsorted, hsorted⟩

/-- The executions that a view shows. -/
def Books.viewed (b : Books) (latest : Bool) : List Execution :=
  if latest then b.latest else b.history

/-- What a query looks at are the executions of its view, as they are spelled. -/
lemma Books.Kept.rows_view {b : Books} {s : Memory} (h : b.Kept s) (q : Query) :
    s.rows q.view = (b.viewed q.latest).map (spell q.latest) := by
  cases hq : q.latest with
  | true =>
      simp only [Query.view, hq, if_true]
      exact h.latest
  | false =>
      simp only [Query.view, hq]
      exact h.history

/-! ## Decoding what is listed -/

/-- A document without the fields that lists leave out. -/
def shortened (d : Document) : Document := Execution.bulky.foldl Table.erase d

/-- A shortened document has neither the command nor the output. -/
lemma get?_shortened (d : Document) (name : String) :
    (shortened d).get? name
      = if name = "command" ∨ name = "output" then none else d.get? name := by
  simp only [shortened, Execution.bulky, List.foldl_cons, List.foldl_nil, Table.get?_erase]
  by_cases hc : name = "command" <;> by_cases ho : name = "output" <;>
    simp [hc, ho, eq_comm (b := name)]

/-- A shortened document spells the execution as it is listed. -/
lemma Execution.Spelled.shortened {e : Execution} {d : Document} (h : Spelled e d) :
    Spelled e.listed (shortened d) := by
  constructor
  case command => exact Or.inl ⟨by rw [get?_shortened]; simp, rfl⟩
  case output => exact Or.inl ⟨by rw [get?_shortened]; simp, rfl⟩
  all_goals rw [get?_shortened, if_neg (by decide)]
  case id => exact h.id
  case jobId => exact h.jobId
  case jobGroup => exact h.jobGroup
  case user => exact h.user
  case name => exact h.name
  case node => exact h.node
  case hostname => exact h.hostname
  case ip => exact h.ip
  case success => exact h.success
  case beginTime => exact h.beginTime
  case endTime => exact h.endTime
  case cleanup => exact h.cleanup

/-- A row as it appears in lists. -/
def Latest.listed (l : Latest) : Latest := { l with execution := l.execution.listed }

/-- A shortened row is read back as its execution is listed. -/
lemma Latest.decode_shortened (e : Execution) (key : String) :
    (FleetLedger.shortened (overwriting e)).decode decoder key = .ok (ofExecution e).listed := by
  have hsource : (Decoding.required "ref_log_id" Decoding.string).run
      (FleetLedger.shortened (overwriting e)) = .ok e.id :=
    Decoding.run_string (by rw [get?_shortened, if_neg (by decide), get?_overwriting]; rfl)
  have hrest := Decoding.Decoder.run_map (f := fun x => (⟨x, e.id⟩ : Latest))
    (spelled_overwriting e).shortened.decode
  rw [Document.decode]
  simp only [decoder, Decoding.Decoder.after, hsource, Except.bind, hrest]
  rfl

/-- A row that is shortened gives back its execution as it appears in lists. -/
lemma decode_shortened_row (e : Execution) (key : String) :
    Latest.toExecution <$> (shortened (Latest.overwriting e)).decode Latest.decoder key
      = .ok e.listed := by
  rw [Latest.decode_shortened]
  rfl

/-- Executions are read back from what spells them, in either view. -/
lemma executionsOf_spell (latest : Bool) (es : List Execution) :
    executionsOf latest (es.map (spell latest)) = .ok es := by
  cases latest with
  | true =>
      refine mapM_map_ok (fun e => ?_) es
      exact decode_row e latestRows
  | false => exact executionsOf_map_toDocument es

/-- **What lists leave out is not needed to read them.** -/
theorem executionsOf_shortened (latest : Bool) (es : List Execution) :
    executionsOf latest ((es.map (spell latest)).map shortened)
      = .ok (es.map Execution.listed) := by
  rw [List.map_map]
  cases latest with
  | true =>
      refine mapM_map_eq_ok (fun e => ?_) es
      exact decode_shortened_row e latestRows
  | false =>
      refine mapM_map_eq_ok (fun e => ?_) es
      show (shortened e.toDocument).decode Execution.decoder history = _
      rw [Document.decode, e.spelled_toDocument.shortened.decode]
      rfl

/-! ## One page -/

/-- The keys by which a list is sorted: those that were asked for, or the newest first. -/
def sortKeys (sort : List SortKey) : List SortKey :=
  if sort.isEmpty then [.down "begin_time"] else sort

lemma sortKeys_isEmpty (sort : List SortKey) : (sortKeys sort).isEmpty = false := by
  cases sort <;> rfl

/-- A page is cut out of the sorted documents, as long as there are not too many to count. -/
lemma apply_selectionOf {docs : List Document} (hfit : docs.length < 2 ^ 64)
    (number size : Nat) (sort : List SortKey) :
    (selectionOf number size sort).apply docs
      = (pageOf (Document.sort (sortKeys sort) docs) size number).map shortened := by
  have hlength := (perm_sort (sortKeys sort) docs).length_eq
  have hnonempty := sortKeys_isEmpty sort
  have hskip : (Document.sort (sortKeys sort) docs).drop
        (min ((max number 1 - 1) * size) greatestSkip)
      = (Document.sort (sortKeys sort) docs).drop ((max number 1 - 1) * size) := by
    -- whatever is beyond the greatest skip is beyond the last document
    rcases Nat.le_total ((max number 1 - 1) * size) greatestSkip with hle | hle
    · rw [Nat.min_eq_left hle]
    · have hend : (Document.sort (sortKeys sort) docs).length ≤ greatestSkip := by
        rw [hlength, greatestSkip]
        omega
      rw [Nat.min_eq_right hle, List.drop_eq_nil_of_le hend,
        List.drop_eq_nil_of_le (Nat.le_trans hend hle)]
  show (((if (sortKeys sort).isEmpty then docs else Document.sort (sortKeys sort) docs).drop
    (min ((max number 1 - 1) * size) greatestSkip)).take size).map shortened = _
  rw [hnonempty, if_neg Bool.false_ne_true, hskip]
  rfl

section Run

variable (clock : Reading) (fresh : FreshId) (s : Memory)

/-- A listing has the page, and the number of all that the filter selects. -/
lemma run_list {q : Query} {filter : Filter} (hfilter : q.filter? = some filter) {size : Nat}
    (hsize : 0 < size) (number : Nat) (sort : List SortKey) {items : List Execution}
    (hitems : executionsOf q.latest (s.find q.view filter (selectionOf number size sort))
      = .ok items) :
    ((inMemory clock fresh).list q number size sort).run.run s
      = (.ok { items, total := s.count q.view filter }, s) := by
  have hne : size ≠ 0 := Nat.ne_of_gt hsize
  have hcount : (list.within ((inMemory clock fresh).documents.count q.view filter)).run.run s
      = (.ok (s.count q.view filter), s) := rfl
  have hfind : (list.within ((inMemory clock fresh).documents.find q.view filter
        (selectionOf number size sort))).run.run s
      = (.ok (s.find q.view filter (selectionOf number size sort)), s) := rfl
  have hsettled : (list.within (settled (executionsOf q.latest (s.find q.view filter
        (selectionOf number size sort)))) : ExceptT PageFault (StateM Memory) _).run.run s
      = (.ok items, s) := by
    rw [hitems]
    rfl
  simp only [Ledger.list]
  rw [if_neg hne, hfilter]
  exact (run_bind_of_ok hcount).trans ((run_bind_of_ok hfind).trans (run_bind_of_ok hsettled))

end Run

/-! ## All pages -/

/-- Whether an execution is on record after a run: it is left in the history, or it is the one of its
combination that was recorded last. -/
def OnRecord (turns : List Turn) (latest : Bool) (e : Execution) : Prop :=
  if latest then lastOf e.combination (recordings turns) = some e else e ∈ chronicle turns

/-- What a view shows is what is on record. -/
lemma mem_viewed_iff {turns : List Turn} {latest : Bool} {e : Execution} :
    e ∈ (booksOf turns).viewed latest ↔ OnRecord turns latest e := by
  cases latest with
  | true =>
      rw [OnRecord, if_pos rfl, ← latestOf_booksOf]
      exact (tidy_booksOf turns).mem_latest_iff
  | false =>
      rw [OnRecord, if_neg Bool.false_ne_true, ← history_booksOf]
      rfl

/-- The last day of the calendar. -/
def Date.last : Date := { count := 95026236 }

/-- A query has a filter unless it ends on the last day of the calendar. -/
lemma Query.exists_filter {q : Query} (h : q.lastDay ≠ some Date.last) :
    ∃ filter, q.filter? = some filter := by
  rw [filter?]
  cases hday : q.lastDay with
  | none => exact ⟨_, rfl⟩
  | some d =>
      have hlast := d.le_last
      have hfirst := d.first_le
      have hne : d.count ≠ 95026236 := by
        intro he
        refine h (hday.trans (congrArg some ?_))
        cases d
        subst he
        rfl
      have hnext : -96465292 ≤ d.count + 1 ∧ d.count + 1 ≤ 95026236 := by omega
      simp only [Date.nextStart?, Date.next?, Date.ofCount?, dif_pos hnext, Option.map_some]
      exact ⟨_, rfl⟩

/-- **Pages lose nothing and repeat nothing.**  Whatever was done to the ledger, whatever is asked
for and by whatever keys it is sorted, there is one order of the rows that were found, by the keys
and then by their places (`Earlier`), and the pages show the rows in this order, from the first page
to the last one that is needed, each row once.  A row is an execution as it was written down, and the
executions are those on record that the query means.  Every page knows how many rows were found.  All of
the pages but the last are full, those after the last are empty, and there is no page before the
first.  What was run and what it printed is not shown, though it may have been sorted by.

The rows are counted in 64 bits. -/
theorem pages_complete (turns : List Turn) (q : Query) (hday : q.lastDay ≠ some Date.last)
    {size : Nat} (hsize : 0 < size) (sort : List SortKey)
    (hfit : ((run turns).rows q.view).length < 2 ^ 64) :
    ∃ filter found, q.filter? = some filter ∧ found = ((run turns).rows q.view).filter filter.holds
      ∧ ∃ (rows : List (Document × Nat)) (es : List Execution) (pages : Nat → Page),
        rows.Perm found.zipIdx
        ∧ rows.Pairwise (Earlier (sortKeys sort))
        ∧ rows.map Prod.fst = es.map (spell q.latest)
        ∧ (∀ e, e ∈ es ↔ OnRecord turns q.latest e ∧ filter.holds (spell q.latest e) = true)
        ∧ executionsOf q.latest (rows.map Prod.fst) = .ok es
        ∧ (∀ clock fresh number,
          ((inMemory clock fresh).list q number size sort).run.run (run turns)
            = (.ok (pages number), run turns))
        ∧ (∀ number, (pages number).total = found.length)
        ∧ ((List.range (pageCount found.length size)).flatMap fun i => (pages (i + 1)).items)
          = es.map Execution.listed
        ∧ (∀ number, 1 ≤ number → number < pageCount found.length size →
          (pages number).items.length = size)
        ∧ (∀ number, pageCount found.length size < number → (pages number).items = [])
        ∧ pages 0 = pages 1
        ∧ ∀ number, ∀ e ∈ (pages number).items, e.command = "" ∧ e.output = "" := by
  obtain ⟨filter, hfilter⟩ := Query.exists_filter hday
  refine ⟨filter, _, hfilter, rfl, ?_⟩
  generalize hfound : ((run turns).rows q.view).filter filter.holds = found
  have hfew : found.length < 2 ^ 64 :=
    Nat.lt_of_le_of_lt (hfound ▸ List.length_filter_le _ _) hfit
  have htotal : (run turns).count q.view filter = found.length := by
    rw [Memory.count, List.countP_eq_length_filter, hfound]
  -- the rows that were found spell executions, so they have an order
  have hspelled : found = (((booksOf turns).viewed q.latest).filter
      (filter.holds ∘ spell q.latest)).map (spell q.latest) := by
    rw [← hfound, (kept_run turns).rows_view q, List.filter_map]
  obtain ⟨rows, es, hperm, hsame, hearlier, hrows, hsorted⟩ :=
    exists_sorted_spell q.latest (sortKeys sort) (((booksOf turns).viewed q.latest).filter
      (filter.holds ∘ spell q.latest))
  rw [← hspelled] at hperm hsorted
  have hlength : es.length = found.length := by
    have hmapped := congrArg List.length hsorted
    rw [List.length_map, (perm_sort (sortKeys sort) found).length_eq] at hmapped
    exact hmapped.symm
  have hitems : ∀ number, executionsOf q.latest
      ((run turns).find q.view filter (selectionOf number size sort))
        = .ok ((pageOf es size number).map Execution.listed) := by
    intro number
    rw [Memory.find, hfound, apply_selectionOf hfew, hsorted, pageOf_map]
    exact executionsOf_shortened q.latest (pageOf es size number)
  refine ⟨rows, es, fun number =>
    { items := (pageOf es size number).map Execution.listed, total := found.length },
    hperm, hearlier, hrows, fun e => ?_, ?_, ?_, fun _ => rfl, ?_, ?_, ?_, rfl, ?_⟩
  · rw [hsame.mem_iff, List.mem_filter, mem_viewed_iff]
    rfl
  · rw [hrows]
    exact executionsOf_spell q.latest es
  · intro clock fresh number
    rw [run_list clock fresh (run turns) hfilter hsize number sort (hitems number), htotal]
  · rw [← List.map_flatMap, flatMap_pageOf, ← hlength,
      List.take_of_length_le (le_pageCount_mul hsize es.length)]
  · intro number hfirst hnumber
    rw [← hlength] at hnumber
    rw [List.length_map]
    exact length_pageOf es hsize hfirst hnumber
  · intro number hnumber
    rw [← hlength] at hnumber
    exact congrArg (List.map Execution.listed) (pageOf_eq_nil es hsize hnumber)
  · intro number e he
    obtain ⟨e, -, rfl⟩ := List.mem_map.mp he
    exact ⟨rfl, rfl⟩

/-- Both backups, one on each page; they began at the same time, so the one that was recorded first
comes first. -/
theorem pages_twoDays : ({} : Query).lastDay ≠ some Date.last ∧ 0 < 1
    ∧ ((run (twoDays.take 2)).rows ({} : Query).view).length < 2 ^ 64
    ∧ ∃ pages : Nat → Page,
      (∀ clock fresh number,
        ((inMemory clock fresh).list {} number 1 []).run.run (run (twoDays.take 2))
          = (.ok (pages number), run (twoDays.take 2)))
      ∧ (pages 1).total = 2
      ∧ (pages 1).items = [{ backup with id := "0000000003e870008000000000000001", command := "" }]
      ∧ (pages 3).items = [] := by
  have hday : ({} : Query).lastDay ≠ some Date.last := by decide
  have hsize : 0 < 1 := by decide
  have hrows : (run (twoDays.take 2)).rows ({} : Query).view
      = (chronicle (twoDays.take 2)).map Execution.toDocument := by
    rw [(kept_run (twoDays.take 2)).rows_view, ← history_booksOf]
    rfl
  have hfit : ((run (twoDays.take 2)).rows ({} : Query).view).length < 2 ^ 64 := by
    rw [hrows, List.length_map]
    decide
  obtain ⟨filter, found, hfilter, hfound, rows, es, pages, hperm, hearlier, -, -, hread, hpages,
    htotal, hitems, hfull, hrest, -⟩ := pages_complete (twoDays.take 2) {} hday hsize [] hfit
  obtain rfl : Filter.all = filter := Option.some.inj hfilter
  have hall : ∀ d ∈ (chronicle (twoDays.take 2)).map Execution.toDocument,
      Filter.all.holds d = true := fun _ _ => rfl
  rw [hrows, List.filter_eq_self.mpr hall] at hfound
  have hlength : found.length = 2 := by
    rw [hfound, List.length_map]
    rfl
  -- the two rows are in the order in which they were recorded
  have hrecorded : found.zipIdx.Pairwise (Earlier (sortKeys [])) := by
    rw [hfound]
    exact List.pairwise_pair.mpr (Or.inr ⟨rfl, Nat.zero_lt_one⟩)
  have hsorted : rows = found.zipIdx := by
    refine List.Perm.eq_of_pairwise (fun a b _ _ hab hba => ?_) hearlier hrecorded hperm
    exact absurd (hab.trans hba) Earlier.irrefl
  have hes : es = chronicle (twoDays.take 2) := by
    rw [hsorted, List.zipIdx_map_fst, hfound] at hread
    exact Except.ok.inj (hread.symm.trans (executionsOf_map_toDocument _))
  rw [hlength] at hitems hfull hrest
  have hfirst := hfull 1 (Nat.le_refl 1) (by decide)
  obtain ⟨e, he⟩ := List.length_eq_one_iff.mp hfirst
  refine ⟨hday, hsize, hfit, pages, hpages, (htotal 1).trans hlength, ?_, hrest 3 (by decide)⟩
  have hjoined : (pages 1).items ++ ((pages 2).items ++ []) = es.map Execution.listed := hitems
  rw [he, hes] at hjoined
  rw [he]
  exact congrArg (fun e => [e]) (List.cons.inj hjoined).1

end FleetLedger
