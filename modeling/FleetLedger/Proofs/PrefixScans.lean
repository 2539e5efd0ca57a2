import Mathlib.Data.List.TakeWhile
import FleetLedger.Proofs.Directory

/-!
# Scans of a whole store

A scan must find every key that starts with the scope, no other, and each once, in the order of keys;
and what is listed as present must be the ids whose presence keys are there.  With any characters in
the keys: the scope may be empty or a key itself, and there may be keys beside it that only start in
the same way.

That nothing is left out is `Entries.scan_eq_filter`.  What is added here is that the order in which
keys stand, character by character, is the order of the bytes that they are written in
(`utf8_lt`), so that it does not matter which of the two a store goes by; and the calls themselves:
**`scan_complete`**.
-/

namespace FleetLedger

/-! ## The order of keys is that of their bytes -/

/-- The bytes of a text. -/
def utf8 (t : String) : List UInt8 := t.toUTF8.data.toList

lemma utf8_eq_flatMap (t : String) : utf8 t = t.toList.flatMap String.utf8EncodeChar := by
  conv => lhs; rw [utf8, ← String.ofList_toList (s := t)]
  rw [String.toUTF8_eq_toByteArray]
  exact List.toList_data_toByteArray

lemma byte_lt_iff {a b : Nat} (ha : a < 256) (hb : b < 256) :
    UInt8.ofNat a < UInt8.ofNat b ↔ a < b := by
  rw [UInt8.lt_iff_toNat_lt, UInt8.toNat_ofNat', UInt8.toNat_ofNat', Nat.mod_eq_of_lt ha,
    Nat.mod_eq_of_lt hb]

lemma byte_inj {a b : Nat} (ha : a < 256) (hb : b < 256) :
    UInt8.ofNat a = UInt8.ofNat b ↔ a = b := by
  rw [← UInt8.toNat_inj, UInt8.toNat_ofNat', UInt8.toNat_ofNat', Nat.mod_eq_of_lt ha,
    Nat.mod_eq_of_lt hb]

/-- The bytes of a lesser character come first, whatever follows them: its first byte is less, or as
many bytes follow and one of them is. -/
lemma encode_append_lt {c d : Char} (h : c < d) (xs ys : List UInt8) :
    String.utf8EncodeChar c ++ xs < String.utf8EncodeChar d ++ ys := by
  have hlt : c.val.toNat < d.val.toNat := h
  have hlast : d.val.toNat < 1114112 := by
    rcases d.valid with hd | ⟨-, hd⟩
    · exact Nat.lt_trans hd (by decide)
    · exact hd
  -- the bytes hold the digits of the code point to base 64
  have hdigit : ∀ {m n : Nat}, m < n → m / 64 < n / 64 ∨ m / 64 = n / 64 ∧ m % 64 < n % 64 := by
    omega
  unfold String.utf8EncodeChar
  generalize c.val.toNat = m at hlt
  generalize d.val.toNat = n at hlt hlast
  dsimp only
  split_ifs <;> try omega
  all_goals
    simp only [List.cons_append, List.cons_lt_cons_iff]
    simp (disch := omega) only [byte_lt_iff, byte_inj]
    rcases hdigit hlt with h1 | h1
    · rcases hdigit h1 with h2 | h2
      · rcases hdigit h2 with h3 | h3 <;> omega
      · omega
    · omega

/-- Characters in order have encodings in order. -/
lemma flatMap_encode_lt {xs ys : List Char} (h : xs < ys) :
    xs.flatMap String.utf8EncodeChar < ys.flatMap String.utf8EncodeChar := by
  induction xs generalizing ys with
  | nil =>
      cases ys with
      | nil => exact absurd h (List.not_lt_nil _)
      | cons d ys =>
          rw [List.flatMap_nil, List.flatMap_cons]
          cases hd : String.utf8EncodeChar d with
          | nil => exact absurd hd String.utf8EncodeChar_ne_nil
          | cons b bs => exact List.nil_lt_cons _ _
  | cons c xs ih =>
      cases ys with
      | nil => exact absurd h (List.not_lt_nil _)
      | cons d ys =>
          rw [List.flatMap_cons, List.flatMap_cons]
          rcases List.cons_lt_cons_iff.mp h with hlt | ⟨rfl, hrest⟩
          · exact encode_append_lt hlt _ _
          · exact List.append_left_lt (ih hrest)

/-- **Texts are in the order of their bytes.** -/
theorem utf8_lt {a b : String} (h : a < b) : utf8 a < utf8 b := by
  rw [utf8_eq_flatMap, utf8_eq_flatMap]
  exact flatMap_encode_lt h

/-- What a sorted table says under a name is what stands there. -/
lemma Table.Sorted.mem_iff {α : Type} {t : Table α} (ht : Sorted t) {name : String} {value : α} :
    (name, value) ∈ t ↔ t.get? name = some value := by
  induction t with
  | nil => simp
  | cons e rest ih =>
      obtain ⟨k, v⟩ := e
      obtain ⟨hlater, hrest⟩ := List.pairwise_cons.mp ht
      by_cases hk : k = name
      · subst hk
        have hnot : (k, value) ∉ rest := fun hmem => String.lt_irrefl k (hlater _ hmem)
        simp [get?, hnot, eq_comm]
      · simp [get?, hk, Ne.symm hk, ih hrest]

namespace Entries

/-! ## What a scan finds -/

/-- **A scan finds the entries of the scope**, with the values that they have. -/
theorem mem_scan_iff {t : Entries} (ht : Table.Sorted t) {scope key value : String} :
    ⟨key, value⟩ ∈ t.scan scope
      ↔ (∃ rest, key = scope ++ rest) ∧ t.get? key = some value := by
  rw [scan_eq_filter ht, ← Scope.covers_iff, ← ht.mem_iff]
  constructor
  · intro hmem
    obtain ⟨e, he, heq⟩ := List.mem_map.mp hmem
    obtain ⟨rfl, rfl⟩ := KeyValue.mk.inj heq
    exact ⟨(List.mem_filter.mp he).2, List.mem_of_mem_filter he⟩
  · rintro ⟨hcovers, hmem⟩
    exact List.mem_map.mpr ⟨(key, value), List.mem_filter.mpr ⟨hmem, hcovers⟩, rfl⟩

/-- A scan gives the entries in the order of their keys. -/
lemma pairwise_scan {t : Entries} (ht : Table.Sorted t) (scope : String) :
    (t.scan scope).Pairwise fun a b => a.key < b.key := by
  rw [scan_eq_filter ht]
  exact List.pairwise_map.mpr (sorted_under ht scope)

end Entries

namespace Rehearsal

/-! ## The calls -/

/-- **Scans are complete and sorted.**  Let the entries of the key-value store be in the order of
their keys, as putting and deleting leave them (`Entries.sorted_after`), and let scans not be out.

The scan of any scope answers and changes nothing.  It gives the entries whose keys start with the
scope and no others, each with the value that it has now, strictly in the order of their keys, by
characters and by bytes.

So what listing the nodes takes for present are exactly the ids whose presence keys are there, for any
node scope: whatever the roster gives, each of its nodes is connected if it is alive and its presence
key is there. -/
theorem scan_complete {s : Rehearsal} (hentries : Table.Sorted s.entries)
    (hscan : s.keysOut .scan = false) :
    (∀ scope, ∃ found : List KeyValue,
        (coordination.scan scope).run.run.run s = (some (.ok found), s)
        ∧ (found.Pairwise fun a b => a.key < b.key)
        ∧ (found.Pairwise fun a b => utf8 a.key < utf8 b.key)
        ∧ (∀ key value, ⟨key, value⟩ ∈ found
          ↔ (∃ rest, key = scope ++ rest) ∧ s.entries.get? key = some value)
        ∧ ∀ id, id ∈ found.filterMap (fun e => Scope.rest? scope e.key)
          ↔ s.entries.contains (scope ++ id) = true)
      ∧ ∀ keys : KeySpace, ((registry keys).listNodes).run.run.run s
        = ((List.map fun n =>
              { n with connected := n.alive && s.entries.contains (keys.nodeKey n.id) })
            <$> Roster.list store).run.run.run s := by
  have hcall : ∀ scope, (coordination.scan scope).run.run.run s
      = (some (.ok (s.entries.scan scope)), s) :=
    fun scope => run_keyCall_ok (fun s => (s, s.entries.scan scope)) hscan
  refine ⟨fun scope => ⟨s.entries.scan scope, hcall scope, ?_, ?_, ?_, ?_⟩, fun keys => ?_⟩
  · exact Entries.pairwise_scan hentries scope
  · exact (Entries.pairwise_scan hentries scope).imp utf8_lt
  · exact fun key value => Entries.mem_scan_iff hentries
  · intro id
    have hpresent := contains_present { nodes := scope } hentries id
    rw [← List.contains_iff_mem, hpresent]
    rfl
  · refine (run_bind (hcall keys.nodes) _).trans ?_
    have hlisted : (fun n : Node => Registry.withPresence n
          (((s.entries.scan keys.nodes).filterMap
            fun e => Scope.rest? keys.nodes e.key).contains n.id))
        = fun n => { n with connected := n.alive && s.entries.contains (keys.nodeKey n.id) } :=
      funext fun n => congrArg (Registry.withPresence n) (contains_present keys hentries n.id)
    rw [← hlisted]
    rfl

/-- A store with a key that is the node scope, two keys within it, and keys on both sides of it. -/
def beside : Rehearsal where
  now := { millis := 345600000 }
  entries := [("/jobwatch/node", "1"), ("/jobwatch/node/", "2"), ("/jobwatch/node/～", "3"),
    ("/jobwatch/node/𝒶", "4"), ("/jobwatch/node0", "5")]

/-- Names just outside of a scope are not found, and those with characters beyond 16 bits are in
their place. -/
theorem scan_complete_beside :
    Table.Sorted beside.entries ∧ beside.keysOut .scan = false
      ∧ ∃ found : List KeyValue,
        (coordination.scan "/jobwatch/node/").run.run.run beside = (some (.ok found), beside)
        ∧ (found.Pairwise fun a b => utf8 a.key < utf8 b.key)
        ∧ ⟨"/jobwatch/node/", "2"⟩ ∈ found ∧ ⟨"/jobwatch/node/𝒶", "4"⟩ ∈ found
        ∧ ⟨"/jobwatch/node0", "5"⟩ ∉ found
        ∧ "～" ∈ found.filterMap (fun e => Scope.rest? "/jobwatch/node/" e.key) := by
  have hsorted : Table.Sorted beside.entries := by
    simp only [Table.Sorted, beside, List.pairwise_cons]
    decide
  obtain ⟨hscan, -⟩ := scan_complete hsorted rfl
  obtain ⟨found, hcall, -, hbytes, hmem, hids⟩ := hscan "/jobwatch/node/"
  refine ⟨hsorted, rfl, found, hcall, hbytes, ?_, ?_, ?_, ?_⟩
  · exact (hmem _ _).mpr ⟨⟨"", rfl⟩, rfl⟩
  · exact (hmem _ _).mpr ⟨⟨"𝒶", rfl⟩, rfl⟩
  · intro h
    have hcovers : Scope.covers "/jobwatch/node/" "/jobwatch/node0" = true :=
      Scope.covers_iff.mpr ((hmem _ _).mp h).1
    exact absurd hcovers (by decide)
  · exact (hids "～").mpr rfl

end Rehearsal

end FleetLedger
