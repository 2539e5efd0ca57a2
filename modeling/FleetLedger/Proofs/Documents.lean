import FleetLedger.Document.Stored
import FleetLedger.Document.Update
import FleetLedger.Proofs.Tables

/-!
# Reading documents through their fields

What a document is for the ledger shows in three ways: a filter holds of it or not, a decoder makes
a value of it, and an update changes it.  The laws here state each of them by what `get?` says of
the document, so that no proof about the ledger has to look into a filter, a decoder or a table
again.

* `Filter.holds_eqString`, `holds_oneOf`, `holds_has`, `holds_lte_int` and others — when filters hold.
* `Decoding.Decoder.run_seq` and its companions — a decoder that finds each field gives its value;
  `exists_of_run_seq` and its companions — one that gives a value has found each field.
* `Update.get?_add` — what a counter is after it was added to.
-/

namespace FleetLedger

/-! ## Tables of fields -/

namespace Table

variable {α : Type}

lemma get?_merge_of_notMem {t : Table α} {entries : List (String × α)} {name : String}
    (h : name ∉ entries.map Prod.fst) : (t.merge entries).get? name = t.get? name := by
  induction entries generalizing t with
  | nil => rfl
  | cons e rest ih =>
      simp only [List.map_cons, List.mem_cons, not_or] at h
      have hstep : (t.merge (e :: rest)).get? name = (t.insert e.1 e.2).get? name := ih h.2
      rw [hstep, get?_insert, if_neg (Ne.symm h.1)]

/-- Of entries with different names each is read as it was put. -/
lemma get?_merge_of_mem {t : Table α} {entries : List (String × α)} {name : String} {value : α}
    (hnames : (entries.map Prod.fst).Nodup) (h : (name, value) ∈ entries) :
    (t.merge entries).get? name = some value := by
  induction entries generalizing t with
  | nil => exact absurd h (by simp)
  | cons e rest ih =>
      simp only [List.map_cons, List.nodup_cons] at hnames
      rcases List.mem_cons.mp h with rfl | hmem
      · have hstep : (t.merge ((name, value) :: rest)).get? name
            = (t.insert name value).get? name := get?_merge_of_notMem hnames.1
        rw [hstep, get?_insert, if_pos rfl]
      · exact ih (t := t.insert e.1 e.2) hnames.2 hmem

/-- Of entries with one name the last is read. -/
lemma get?_merge_getLast? (t : Table α) (entries : List (String × α)) (name : String) :
    (t.merge entries).get? name
      = ((entries.filter (·.1 = name)).getLast?.map Prod.snd).or (t.get? name) := by
  induction entries generalizing t with
  | nil => rfl
  | cons e rest ih =>
      have hstep : (t.merge (e :: rest)).get? name
          = ((rest.filter (·.1 = name)).getLast?.map Prod.snd).or
            ((t.insert e.1 e.2).get? name) := ih (t.insert e.1 e.2)
      rw [hstep, get?_insert]
      by_cases h : e.1 = name
      · cases hrest : (rest.filter (·.1 = name)).getLast? <;> simp [h, hrest, List.getLast?_cons]
      · simp [h]

/-- A name of some entries is read as it was put by one of them. -/
lemma exists_get?_merge {t : Table α} {entries : List (String × α)} {name : String}
    (h : name ∈ entries.map Prod.fst) :
    ∃ v, (name, v) ∈ entries ∧ (t.merge entries).get? name = some v := by
  rw [get?_merge_getLast?]
  cases hlast : (entries.filter (·.1 = name)).getLast? with
  | none =>
      obtain ⟨e, he, hname⟩ := List.mem_map.mp h
      have hnone := List.filter_eq_nil_iff.mp (List.getLast?_eq_none_iff.mp hlast) e he
      exact absurd hname (by simpa using hnone)
  | some e =>
      obtain ⟨hmem, hname⟩ := List.mem_filter.mp (List.mem_of_getLast? hlast)
      obtain rfl := of_decide_eq_true hname
      exact ⟨e.2, hmem, rfl⟩

/-- Entries that are made a table first come to the same when they are laid over another. -/
lemma Sorted.merge_ofList {t : Table α} (ht : Sorted t) (entries : List (String × α)) :
    t.merge (ofList entries) = t.merge entries :=
  (ht.merge _).ext (ht.merge _) fun name => by
    rw [get?_merge t (sorted_ofList entries), ofList, get?_merge_getLast?, get?_merge_getLast?,
      get?_nil, Option.or_none]

@[simp] lemma contains_insert (t : Table α) (name other : String) (value : α) :
    (t.insert name value).contains other = true ↔ name = other ∨ t.contains other = true := by
  simp only [contains, get?_insert]
  split <;> simp [*]

@[simp] lemma contains_merge (t : Table α) (entries : List (String × α)) (name : String) :
    (t.merge entries).contains name = true
      ↔ name ∈ entries.map Prod.fst ∨ t.contains name = true := by
  induction entries generalizing t with
  | nil => simp [merge]
  | cons e rest ih =>
      have hstep := ih (t.insert e.1 e.2)
      rw [contains_insert] at hstep
      rw [List.map_cons, List.mem_cons, or_assoc, or_left_comm, eq_comm (a := name)]
      exact hstep

@[simp] lemma contains_ofList (entries : List (String × α)) (name : String) :
    (ofList entries).contains name = true ↔ name ∈ entries.map Prod.fst := by
  rw [ofList, contains_merge]
  simp [contains]

end Table

namespace Document

/-- A field that is there keeps its value. -/
@[simp] lemma get?_insertIfMissing (d : Document) (name other : String) (value : Json) :
    (d.insertIfMissing name value).get? other
      = if name = other then some ((d.get? name).getD value) else d.get? other := by
  rw [insertIfMissing, Table.contains]
  cases hd : d.get? name with
  | none => simp [Table.get?_insert]
  | some v =>
      by_cases h : name = other
      · subst h
        simp [hd]
      · simp [h]

@[simp] lemma contains_insertIfMissing (d : Document) (name other : String) (value : Json) :
    (d.insertIfMissing name value).contains other = true
      ↔ name = other ∨ d.contains other = true := by
  simp only [Table.contains, get?_insertIfMissing]
  split <;> simp [*]

lemma sorted_insertIfMissing {d : Document} (h : Table.Sorted d) (name : String) (value : Json) :
    Table.Sorted (d.insertIfMissing name value) := by
  simp only [insertIfMissing]
  split
  · exact h
  · exact h.insert name value

end Document

/-! ## Filters -/

@[simp] lemma Json.same_string_iff {v : Json} {s : String} :
    v.same (.string s) = true ↔ v = .string s := by
  cases v <;> simp [Json.same]

@[simp] lemma Json.string_same_iff {v : Json} {s : String} :
    (Json.string s).same v = true ↔ v = .string s := by
  cases v with
  | string t => simp [Json.same, eq_comm (a := s)]
  | _ => simp [Json.same]

/-- Two integers of the signed range are compared exactly. -/
lemma Json.order?_int {m n : Int} (hm : leastInt ≤ m ∧ m ≤ greatestSigned)
    (hn : leastInt ≤ n ∧ n ≤ greatestSigned) :
    (Json.int m).order? (.int n) = some (compare m n) := by
  simp only [Json.order?, Json.signed?, if_pos hm, if_pos hn]

namespace Filter

/-- **Induction on filters**: of the parts of a junction it may be taken to be known. -/
theorem induction {P : Filter → Prop} (all : P .all) (eq : ∀ name v, P (.eq name v))
    (isIn : ∀ name vs, P (.isIn name vs)) (gte : ∀ name v, P (.gte name v))
    (lt : ∀ name v, P (.lt name v)) (lte : ∀ name v, P (.lte name v))
    (has : ∀ name present, P (.has name present)) (like : ∀ name pattern, P (.like name pattern))
    (and : ∀ fs, (∀ f ∈ fs, P f) → P (.and fs)) (or : ∀ fs, (∀ f ∈ fs, P f) → P (.or fs))
    (f : Filter) : P f :=
  Filter.rec all eq isIn gte lt lte has like and or (fun _ h => absurd h List.not_mem_nil)
    (fun _ _ hf hfs g hg => (List.mem_cons.mp hg).elim (fun he => he ▸ hf) (hfs g)) f

@[simp] lemma holds_and (fs : List Filter) (d : Document) :
    (and fs).holds d = fs.all fun f => f.holds d := by
  rw [holds]
  induction fs with
  | nil => rfl
  | cons f fs ih => rw [holdAll, ih, List.all_cons]

@[simp] lemma holds_or (fs : List Filter) (d : Document) :
    (or fs).holds d = fs.any fun f => f.holds d := by
  rw [holds]
  induction fs with
  | nil => rfl
  | cons f fs ih => rw [holdAny, ih, List.any_cons]

@[simp] lemma holds_eqString {d : Document} {field value : String} :
    (eqString field value).holds d = true ↔ d.get? field = some (.string value) := by
  rw [eqString, holds, Json.same_string_iff, Document.getOrNull]
  cases d.get? field <;> simp

@[simp] lemma holds_oneOf {d : Document} {field : String} {values : List String} :
    (oneOf field values).holds d = true ↔ ∃ v ∈ values, d.get? field = some (.string v) := by
  rw [oneOf, holds, List.any_map, List.any_eq_true]
  simp only [Function.comp_apply, Json.string_same_iff, Document.getOrNull]
  cases d.get? field <;> simp

/-- Whether a field is there does not depend on its value: an explicit null is there, too. -/
lemma holds_has {d : Document} {field : String} {present : Bool} :
    (has field present).holds d = true ↔ d.contains field = present := by
  rw [holds, beq_iff_eq]

section Bounds

variable {d : Document} {field : String} {m bound : Int} (hfield : d.get? field = some (.int m))
  (hm : Json.leastInt ≤ m ∧ m ≤ Json.greatestSigned)
  (hb : Json.leastInt ≤ bound ∧ bound ≤ Json.greatestSigned)
include hfield hm hb

/-- Integers that 63 bits hold are compared as such. -/
lemma within_int (allowed : Ordering → Bool) :
    within d field (.int bound) allowed = allowed (compare m bound) := by
  rw [within, hfield]
  simp only [Json.order?_int hm hb, Option.map_some, Option.getD_some]

lemma holds_lte_int : (lte field (.int bound)).holds d = true ↔ m ≤ bound := by
  rw [holds, within_int hfield hm hb, bne_iff_ne, ne_eq, Int.compare_eq_gt]
  omega

lemma holds_gte_int : (gte field (.int bound)).holds d = true ↔ bound ≤ m := by
  rw [holds, within_int hfield hm hb, bne_iff_ne, ne_eq, Int.compare_eq_lt]
  omega

lemma holds_lt_int : (lt field (.int bound)).holds d = true ↔ m < bound := by
  rw [holds, within_int hfield hm hb, beq_iff_eq, Int.compare_eq_lt]

end Bounds

lemma holds_eqBool {d : Document} {field : String} {b b' : Bool}
    (hfield : d.get? field = some (.bool b)) : (eq field (.bool b')).holds d = true ↔ b = b' := by
  rw [holds, Document.getOrNull, hfield]
  exact beq_iff_eq

end Filter

/-! ## Decoders -/

namespace Decoding

variable {α β : Type} {d : Document}

namespace Decoder

lemma run_map {f : α → β} {p : Decoder α} {a : α} (hp : p.run d = .ok a) :
    (f <$> p).run d = .ok (f a) := by
  show f <$> p.run d = _
  rw [hp]
  rfl

/-- Where both decoders find what they look for, their values are combined. -/
lemma run_seq {p : Decoder (α → β)} {q : Decoder α} {f : α → β} {a : α} (hp : p.run d = .ok f)
    (hq : q.run d = .ok a) : (p <*> q).run d = .ok (f a) := by
  show (both p q).run d = _
  simp only [both, hp, hq]

end Decoder

/-- A required field is read if it is there and the reader takes its value. -/
lemma run_required {name : String} {reader : Reader α} {v : Json} {a : α}
    (hfield : d.get? name = some v) (hread : reader v = .ok a) :
    (required name reader).run d = .ok a := by
  simp only [required, field, hfield, hread]
  rfl

lemma run_string {name s : String} (h : d.get? name = some (.string s)) :
    (required name string).run d = .ok s := run_required h rfl

lemma run_bool {name : String} {b : Bool} (h : d.get? name = some (.bool b)) :
    (required name bool).run d = .ok b := run_required h rfl

/-- A field with a default is read if it is missing, or if the reader takes its value. -/
lemma run_withDefault {name : String} {standIn a : α} {reader : Reader α}
    (h : d.get? name = none ∧ a = standIn ∨ ∃ v, d.get? name = some v ∧ reader v = .ok a) :
    (withDefault name standIn reader).run d = .ok a := by
  rcases h with ⟨hfield, rfl⟩ | ⟨v, hfield, hread⟩
  · simp only [withDefault, field, hfield]
  · simp only [withDefault, field, hfield, hread]
    rfl

/-- An optional field may be missing or null where there is no value. -/
lemma run_optional_none {name : String} {reader : Reader α}
    (h : d.get? name = none ∨ d.get? name = some .null) :
    (optional name reader).run d = .ok none := by
  refine run_withDefault ?_
  rcases h with h | h
  · exact Or.inl ⟨h, rfl⟩
  · exact Or.inr ⟨.null, h, rfl⟩

lemma run_optional_some {name : String} {reader : Reader α} {v : Json} {a : α}
    (hfield : d.get? name = some v) (hnull : v ≠ .null) (hread : reader v = .ok a) :
    (optional name reader).run d = .ok (some a) := by
  refine run_withDefault (Or.inr ⟨v, hfield, ?_⟩)
  cases v with
  | null => exact absurd rfl hnull
  | _ => exact congrArg (some <$> ·) hread

/-! ### What a decoder has found -/

variable {name : String}

namespace Decoder

lemma exists_of_run_map {f : α → β} {p : Decoder α} {b : β} (h : (f <$> p).run d = .ok b) :
    ∃ a, p.run d = .ok a ∧ f a = b := by
  have hmap : f <$> p.run d = .ok b := h
  cases hp : p.run d with
  | error e =>
      rw [hp] at hmap
      cases hmap
  | ok a =>
      rw [hp] at hmap
      exact ⟨a, rfl, Except.ok.inj hmap⟩

/-- Two decoders in a row have both read something. -/
lemma exists_of_run_seq {p : Decoder (α → β)} {q : Decoder α} {b : β}
    (h : (p <*> q).run d = .ok b) : ∃ f a, p.run d = .ok f ∧ q.run d = .ok a ∧ f a = b := by
  have hboth : (both p q).run d = .ok b := h
  simp only [both] at hboth
  split at hboth
  case h_1 f a hp hq => exact ⟨f, a, hp, hq, Except.ok.inj hboth⟩
  all_goals cases hboth

end Decoder

/-- A required field that was read is there. -/
lemma exists_of_run_required {reader : Reader α} {a : α}
    (h : (required name reader).run d = .ok a) : ∃ v, d.get? name = some v ∧ reader v = .ok a := by
  simp only [required, field] at h
  split at h
  case h_1 => cases h
  case h_2 v hfield =>
      cases hread : reader v with
      | error e =>
          rw [hread] at h
          cases h
      | ok b =>
          rw [hread] at h
          have hb : b = a := Except.ok.inj h
          exact ⟨v, hfield, hread.trans (congrArg Except.ok hb)⟩

/-- A field with a default that was read is missing, and the default given, or it is there. -/
lemma exists_of_run_withDefault {standIn a : α} {reader : Reader α}
    (h : (withDefault name standIn reader).run d = .ok a) :
    d.get? name = none ∧ a = standIn ∨ ∃ v, d.get? name = some v ∧ reader v = .ok a := by
  cases hfield : d.get? name with
  | none =>
      simp only [withDefault, field, hfield] at h
      exact Or.inl ⟨rfl, (Except.ok.inj h).symm⟩
  | some v =>
      have hrequired : (required name reader).run d = .ok a := by
        simpa only [withDefault, required, field, hfield] using h
      obtain ⟨v', hv', hread⟩ := exists_of_run_required hrequired
      rw [hfield] at hv'
      exact Or.inr ⟨v', hv', hread⟩

lemma string_eq_ok {v : Json} {s : String} : string v = .ok s ↔ v = .string s := by
  cases v <;> simp [string]

lemma bool_eq_ok {v : Json} {b : Bool} : bool v = .ok b ↔ v = .bool b := by
  cases v <;> simp [bool]

lemma get?_of_run_string {s : String} (h : (required name string).run d = .ok s) :
    d.get? name = some (.string s) := by
  obtain ⟨v, hfield, hread⟩ := exists_of_run_required h
  rw [hfield, string_eq_ok.mp hread]

lemma get?_of_run_bool {b : Bool} (h : (required name bool).run d = .ok b) :
    d.get? name = some (.bool b) := by
  obtain ⟨v, hfield, hread⟩ := exists_of_run_required h
  rw [hfield, bool_eq_ok.mp hread]

/-- A text that may be missing is empty where it is missing. -/
lemma get?_of_run_text {s : String} (h : (withDefault name "" string).run d = .ok s) :
    d.get? name = none ∧ s = "" ∨ d.get? name = some (.string s) := by
  rcases exists_of_run_withDefault h with habsent | ⟨v, hfield, hread⟩
  · exact Or.inl habsent
  · rw [hfield, string_eq_ok.mp hread]
    exact Or.inr rfl

end Decoding

/-- A document that was decoded was read by its decoder. -/
lemma Document.run_of_decode {α : Type} {decoder : Decoding.Decoder α} {d : Document}
    {key : String} {a : α} (h : d.decode decoder key = .ok a) : decoder.run d = .ok a := by
  rw [decode] at h
  cases hrun : decoder.run d with
  | error fault =>
      rw [hrun] at h
      cases h
  | ok b =>
      rw [hrun] at h
      exact congrArg Except.ok (Except.ok.inj h)

/-! ## Updates -/

namespace Update

/-- A counter that shows nothing counts as zero, and no other field changes. -/
@[simp] lemma get?_add (d : Document) (field other : String) (delta : Int) :
    (add d field delta).get? other
      = if field = other then some (.int (((d.get? field).bind Json.signed?).getD 0 + delta))
        else d.get? other := Table.get?_insert ..

end Update

end FleetLedger
