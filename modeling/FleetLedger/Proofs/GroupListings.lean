import FleetLedger.Proofs.JsonTexts
import FleetLedger.Proofs.KeyedLists
import FleetLedger.Proofs.PrefixScans

/-!
# Groups are listed all or not at all

Groups are kept as texts under the keys of a scope.  Listing them scans the scope and reads one text
after the other, and the first that is no group ends it.  As a scan goes in the order of keys, that is
the text with the least key of those that are no groups, whatever else is there; and nothing outside of
the scope is even looked at.

What was kept as a group is read as that group, with any characters in its texts
(`Group.Kept.ofText_text`): its text is read as it was written (`Reads.read?_text`), and the fields of
a text are taken one after the other.  A text need not have the ids of the nodes if there are none.

The main statement is **`groups_listed`**.
-/

namespace FleetLedger

open Json.Parser (Reads ReadsField reads_string reads_array reads_object)

/-! ## Reading in order -/

/-- **Either everything is read, or the first item decides that is not.** -/
theorem mapM_cases {α β ε : Type} (f : α → Except ε β) (xs : List α) :
    (∃ ys, List.Forall₂ (fun x y => f x = .ok y) xs ys ∧ xs.mapM f = .ok ys)
      ∨ ∃ before x after e, xs = before ++ x :: after ∧ (∀ b ∈ before, ∃ y, f b = .ok y)
        ∧ f x = .error e ∧ xs.mapM f = .error e := by
  induction xs with
  | nil => exact Or.inl ⟨[], .nil, rfl⟩
  | cons x xs ih =>
      cases hx : f x with
      | error e =>
          refine Or.inr ⟨[], x, xs, e, rfl, by simp, hx, ?_⟩
          rw [List.mapM_cons, hx]
          rfl
      | ok y =>
          rcases ih with ⟨ys, hall, hread⟩ | ⟨before, x', after, e, rfl, hbefore, hx', hread⟩
          · refine Or.inl ⟨y :: ys, .cons hx hall, ?_⟩
            rw [List.mapM_cons, hx, hread]
            rfl
          · refine Or.inr ⟨x :: before, x', after, e, rfl, ?_, hx', ?_⟩
            · exact List.forall_mem_cons.mpr ⟨⟨y, hx⟩, hbefore⟩
            · rw [List.mapM_cons, hx, hread]
              rfl

/-! ## Texts of groups -/

namespace Group

/-- A group as it is kept: a text under a name.  The text spells the group compactly; an empty list of
nodes may be left out of it. -/
structure Kept where
  name : String
  group : Group
  text : String
  spells : text = (Json.object group.toDocument).text
    ∨ group.nodeIds = [] ∧ text = (Json.object (group.toDocument.erase "nids")).text

lemma mapM_textOf (ids : List String) :
    (ids.map fun id => Json.Written.string (some id)).mapM textOf = .ok ids :=
  mapM_map_ok (f := textOf) (fun _ => rfl) ids

/-- A list of ids is read back from its text. -/
lemma reads_strings (ids : List String) :
    Reads (.strings ids) (.array (ids.map fun id => .string (some id))) := by
  refine reads_array (List.forall₂_map_left_iff.mpr (List.forall₂_map_right_iff.mpr ?_))
  exact List.forall₂_same.mpr fun id _ => reads_string id

/-- A text is read as the group that its value spells. -/
lemma ofText_of_reads {j : Json} {fields : List (Option String × Json.Written)} {g : Group}
    (h : Reads j (.object fields)) (hfields : ofWritten (.object fields) = .ok g) :
    ofText j.text = .ok g := by
  rw [ofText, h.read?_text]
  simp only [hfields]

/-- A group is read back from its text. -/
lemma ofText_text (g : Group) : ofText (Json.object g.toDocument).text = .ok g := by
  have hreads : Reads (.object g.toDocument)
      (.object [(some "id", .string (some g.id)), (some "name", .string (some g.name)),
        (some "nids", .array (g.nodeIds.map fun id => .string (some id)))]) :=
    reads_object (.cons ⟨rfl, reads_string g.id⟩ (.cons ⟨rfl, reads_string g.name⟩
      (.cons ⟨rfl, reads_strings g.nodeIds⟩ .nil)))
  refine ofText_of_reads hreads ?_
  have hids : textsOf (.array (g.nodeIds.map fun id => .string (some id))) = .ok g.nodeIds :=
    mapM_textOf g.nodeIds
  simp only [ofWritten, List.foldlM_cons, List.foldlM_nil, Draft.take, hids]
  rfl

/-- A group without nodes is read back from a text without the list of them. -/
lemma ofText_text_unless_empty (g : Group) (h : g.nodeIds = []) :
    ofText (Json.object (g.toDocument.erase "nids")).text = .ok g := by
  have hreads : Reads (.object (g.toDocument.erase "nids"))
      (.object [(some "id", .string (some g.id)), (some "name", .string (some g.name))]) :=
    reads_object (.cons ⟨rfl, reads_string g.id⟩ (.cons ⟨rfl, reads_string g.name⟩ .nil))
  refine ofText_of_reads hreads ?_
  obtain ⟨id, name, ids⟩ := g
  obtain rfl : ids = [] := h
  rfl

/-- **What is kept is read as the group that it was made of.** -/
theorem Kept.ofText_text (k : Kept) : ofText k.text = .ok k.group := by
  rcases k.spells with h | ⟨hnone, h⟩
  · rw [h, Group.ofText_text]
  · rw [h, ofText_text_unless_empty k.group hnone]

end Group

namespace Registry

/-- The key of an entry does not matter to whether its group can be read. -/
lemma groupOf_eq_ok {e : KeyValue} {g : Group} :
    groupOf e = .ok g ↔ Group.ofText e.value = .ok g := by
  rw [groupOf]
  cases Group.ofText e.value with
  | error fault => exact ⟨nofun, nofun⟩
  | ok g' => simp [Except.mapError]

/-- A value that spells no group is reported with its key and the reason. -/
lemma groupOf_eq_error {e : KeyValue} {error : Error} (h : groupOf e = .error error) :
    ∃ fault, Group.ofText e.value = .error fault ∧ error = .corrupt e.key fault.message := by
  rw [groupOf] at h
  cases hread : Group.ofText e.value with
  | error fault =>
      rw [hread] at h
      exact ⟨fault, rfl, (Except.error.inj h).symm⟩
  | ok g =>
      rw [hread] at h
      cases h

end Registry

namespace Rehearsal

/-! ## Keeping groups -/

/-- Puts the texts of some groups under their names. -/
def keepGroups (keys : KeySpace) (kept : List Group.Kept) : ExceptT Error Action Unit :=
  kept.forM fun k => coordination.put (keys.groups ++ k.name) k.text

section Groups

variable (keys : KeySpace) {s : Rehearsal}

/-- Putting groups under their names merges them into the entries. -/
lemma run_keepGroups (hput : s.keysOut .put = false) (kept : List Group.Kept) :
    ∃ s', (keepGroups keys kept).run.run.run s = (some (.ok ()), s')
      ∧ s'.entries = s.entries.merge (kept.map fun k => (keys.groups ++ k.name, k.text))
      ∧ ∀ call, s'.keysOut call = s.keysOut call := by
  induction kept generalizing s with
  | nil => exact ⟨s, rfl, rfl, fun _ => rfl⟩
  | cons k kept ih =>
      have hfirst : (coordination.put (keys.groups ++ k.name) k.text).run.run.run s
          = (some (.ok ()), s.putKey (keys.groups ++ k.name) k.text) :=
        run_keyCall_ok (fun s => (s.putKey (keys.groups ++ k.name) k.text, ())) hput
      obtain ⟨s', hrun, hentries, hout⟩ := ih (s := s.putKey (keys.groups ++ k.name) k.text) hput
      refine ⟨s', ?_, hentries, hout⟩
      exact (run_bind hfirst _).trans hrun

/-- A scan depends only on what is within the scope. -/
lemma scan_congr {scope : String} {t t' : Entries} (ht : Table.Sorted t) (ht' : Table.Sorted t')
    (h : ∀ name, t.get? (scope ++ name) = t'.get? (scope ++ name)) :
    t.scan scope = t'.scan scope := by
  have hunder : Entries.under scope t = Entries.under scope t' := by
    refine (Entries.sorted_under ht scope).ext (Entries.sorted_under ht' scope) fun key => ?_
    rw [Entries.get?_under, Entries.get?_under]
    split
    case isTrue hcovers =>
      obtain ⟨name, rfl⟩ := Scope.covers_iff.mp hcovers
      exact h name
    case isFalse => rfl
  rw [Entries.scan_eq_filter ht, Entries.scan_eq_filter ht', hunder]

/-- What is kept under different names is all that a scan finds where there was nothing before. -/
lemma scan_kept {entries : Entries} (hsorted : Table.Sorted entries)
    (hnone : ∀ name, entries.get? (keys.groups ++ name) = none) {kept ordered : List Group.Kept}
    (hperm : ordered.Perm kept) (hordered : ordered.Pairwise fun a b => a.name < b.name) :
    Entries.scan (entries.merge (kept.map fun k => (keys.groups ++ k.name, k.text))) keys.groups
      = ordered.map fun k => ⟨keys.groups ++ k.name, k.text⟩ := by
  have hlisted : Table.Sorted (ordered.map fun k => (keys.groups ++ k.name, k.text)) := by
    refine List.pairwise_map.mpr (hordered.imp fun {a b} hlt => ?_)
    have hkeys : (keys.groups ++ a.name).toList < (keys.groups ++ b.name).toList := by
      rw [String.toList_append, String.toList_append]
      exact List.append_left_lt hlt
    exact hkeys
  have hnames : ((kept.map fun k => (keys.groups ++ k.name, k.text)).map Prod.fst).Nodup := by
    refine ((hperm.map _).map _).nodup_iff.mp ?_
    refine List.pairwise_map.mpr (hlisted.imp fun {a b} hlt he => ?_)
    exact String.lt_irrefl b.1 (he ▸ hlt)
  have hmerged := hsorted.merge (kept.map fun k => (keys.groups ++ k.name, k.text))
  have htables : Entries.under keys.groups
      (entries.merge (kept.map fun k => (keys.groups ++ k.name, k.text)))
      = ordered.map fun k => (keys.groups ++ k.name, k.text) := by
    refine (Entries.sorted_under hmerged _).ext hlisted fun key => Option.ext fun value => ?_
    rw [Entries.get?_under, ← hlisted.mem_iff, (hperm.map _).mem_iff]
    split
    case isFalse hnot =>
      refine ⟨nofun, fun hmem => absurd ?_ hnot⟩
      obtain ⟨k, -, heq⟩ := List.mem_map.mp hmem
      exact Scope.covers_iff.mpr ⟨k.name, (Prod.mk.inj heq).1.symm⟩
    case isTrue hcovers =>
      refine ⟨fun hvalue => ?_, fun hmem => Table.get?_merge_of_mem hnames hmem⟩
      -- under a key of the scope there is only what was put there
      by_cases hkey : key ∈ (kept.map fun k => (keys.groups ++ k.name, k.text)).map Prod.fst
      · obtain ⟨e, he, rfl⟩ := List.mem_map.mp hkey
        have hput := Table.get?_merge_of_mem (t := entries) hnames he
        rw [hvalue] at hput
        rwa [Option.some.inj hput]
      · obtain ⟨name, rfl⟩ := Scope.covers_iff.mp hcovers
        rw [Table.get?_merge_of_notMem hkey, hnone] at hvalue
        cases hvalue
  rw [Entries.scan_eq_filter hmerged, htables, Entries.listed, List.map_map]
  rfl

/-- Groups are listed in the order of their keys, unless one cannot be read. -/
lemma run_listGroups (hscan : s.keysOut .scan = false) :
    ((registry keys).listGroups).run.run.run s
      = (some ((s.entries.scan keys.groups).mapM Registry.groupOf), s) := by
  have hcall : (coordination.scan keys.groups).run.run.run s
      = (some (.ok (s.entries.scan keys.groups)), s) :=
    run_keyCall_ok (fun s => (s, s.entries.scan keys.groups)) hscan
  exact run_bind hcall _

/-! ## Listing -/

/-- **Groups are listed all or not at all.**  Let the entries of the key-value store be in the order of
their keys, as putting and deleting leave them (`Entries.sorted_after`), and let scans not be out.

Listing the groups changes nothing.  If every value within the group scope spells a group, it gives
these groups, one for each key, in the order of keys.  Otherwise it fails and names the least key of
those whose values spell none, with the reason, whatever else is there.  Keys outside of the scope do
not matter: where the same is under the keys of the scope, the answer is the same.

Any groups that are put under different names, where there was nothing in the scope before, are listed
as they are in the order of their keys, whatever characters are in their texts; and it makes no
difference if a list of nodes that is empty is left out of a text. -/
theorem groups_listed (hentries : Table.Sorted s.entries) (hscan : s.keysOut .scan = false) :
    (∃ found : List KeyValue, (found.Pairwise fun a b => a.key < b.key)
        ∧ (∀ key value, ⟨key, value⟩ ∈ found
          ↔ (∃ name, key = keys.groups ++ name) ∧ s.entries.get? key = some value)
        ∧ ((∃ groups, List.Forall₂ (fun e g => Group.ofText e.value = .ok g) found groups
            ∧ ((registry keys).listGroups).run.run.run s = (some (.ok groups), s))
          ∨ ∃ e ∈ found, ∃ fault, Group.ofText e.value = .error fault
            ∧ (∀ e' ∈ found, e'.key < e.key → ∃ g, Group.ofText e'.value = .ok g)
            ∧ ((registry keys).listGroups).run.run.run s
              = (some (.error (.corrupt e.key fault.message)), s)))
      ∧ (∀ s' : Rehearsal, Table.Sorted s'.entries → s'.keysOut .scan = false →
        (∀ name, s'.entries.get? (keys.groups ++ name) = s.entries.get? (keys.groups ++ name)) →
        (((registry keys).listGroups).run.run.run s').1
          = (((registry keys).listGroups).run.run.run s).1)
      ∧ (s.keysOut .put = false → (∀ name, s.entries.get? (keys.groups ++ name) = none) →
        ∀ kept ordered : List Group.Kept, ordered.Perm kept →
          (ordered.Pairwise fun a b => a.name < b.name) →
          ∃ s', (keepGroups keys kept).run.run.run s = (some (.ok ()), s')
            ∧ ((registry keys).listGroups).run.run.run s'
              = (some (.ok (ordered.map (·.group))), s')) := by
  refine ⟨⟨s.entries.scan keys.groups, Entries.pairwise_scan hentries _, ?_, ?_⟩, ?_, ?_⟩
  · exact fun key value => Entries.mem_scan_iff hentries
  · rw [run_listGroups keys hscan]
    have hascending := Entries.pairwise_scan hentries keys.groups
    rcases mapM_cases Registry.groupOf (s.entries.scan keys.groups) with ⟨groups, hall, hread⟩
      | ⟨before, e, after, error, hsplit, hbefore, hfault, hread⟩
    · exact Or.inl ⟨groups, hall.imp fun _ _ => Registry.groupOf_eq_ok.mp, by rw [hread]⟩
    · obtain ⟨fault, htext, rfl⟩ := Registry.groupOf_eq_error hfault
      have hmem : e ∈ s.entries.scan keys.groups := hsplit ▸ by simp
      refine Or.inr ⟨e, hmem, fault, htext, fun e' he' hlt => ?_, by rw [hread]⟩
      -- what has a lesser key was read before
      rw [hsplit, List.pairwise_append] at hascending
      rw [hsplit, List.mem_append, List.mem_cons] at he'
      rcases he' with he' | rfl | he'
      · obtain ⟨g, hg⟩ := hbefore e' he'
        exact ⟨g, Registry.groupOf_eq_ok.mp hg⟩
      · exact absurd hlt (String.lt_irrefl _)
      · have hgt := (List.pairwise_cons.mp hascending.2.1).1 e' he'
        exact absurd (String.lt_trans hgt hlt) (String.lt_irrefl _)
  · intro s' hentries' hscan' hsame
    rw [run_listGroups keys hscan, run_listGroups keys hscan',
      scan_congr hentries' hentries hsame]
  · intro hput hnone kept ordered hperm hordered
    obtain ⟨s', hrun, hkept, hout⟩ := run_keepGroups keys hput kept
    refine ⟨s', hrun, ?_⟩
    rw [run_listGroups keys ((hout .scan).trans hscan), hkept,
      scan_kept keys hentries hnone hperm hordered]
    have hread := mapM_map_eq_ok (f := Registry.groupOf) (k := (·.group))
      (g := fun k : Group.Kept => (⟨keys.groups ++ k.name, k.text⟩ : KeyValue))
      (fun k => Registry.groupOf_eq_ok.mpr k.ofText_text) ordered
    rw [hread]

end Groups

/-- A store with a group, two values that are none, and a key outside of the scope. -/
def spoiled : Rehearsal where
  now := { millis := 432000000 }
  entries := [("/jobwatch/group", "[]"), ("/jobwatch/group/a", "[\"a\",\"web\"]"),
    ("/jobwatch/group/b", "[\"b\"]"), ("/jobwatch/group/c", "[]")]

/-- A group whose name needs escapes. -/
def quotedGroup : Group.Kept where
  name := "é"
  group := ⟨"g\u0001", "say \"web\"\n", ["n\\1"]⟩
  text := (Json.object (Group.toDocument ⟨"g\u0001", "say \"web\"\n", ["n\\1"]⟩)).text
  spells := Or.inl rfl

/-- A group without nodes, whose text does not have a list of them. -/
def emptyGroup : Group.Kept where
  name := ""
  group := ⟨"", "", []⟩
  text := "\x7b\"id\":\"\",\"name\":\"\"\x7d"
  spells := Or.inr ⟨rfl, by decide +kernel⟩

/-- Values that are no groups spoil a listing, which names the first of them; a group that needs
escapes and one without nodes are listed. -/
theorem groups_listed_spoiled :
    (Table.Sorted spoiled.entries ∧ spoiled.keysOut .scan = false
      ∧ ∃ fault, ((registry {}).listGroups).run.run.run spoiled
        = (some (.error (.corrupt "/jobwatch/group/b" fault)), spoiled))
    ∧ ∃ s', (keepGroups {} [quotedGroup, emptyGroup]).run.run.run { spoiled with entries := [] }
        = (some (.ok ()), s')
      ∧ ((registry {}).listGroups).run.run.run s'
        = (some (.ok [emptyGroup.group, quotedGroup.group]), s') := by
  have hsorted : Table.Sorted spoiled.entries := by
    simp only [Table.Sorted, spoiled, List.pairwise_cons]
    decide
  refine ⟨⟨hsorted, rfl, ?_⟩, ?_⟩
  · obtain ⟨⟨found, -, hmem, hcases⟩, -⟩ := groups_listed {} hsorted rfl
    have hbad : ∀ g, Group.ofText "[\"b\"]" ≠ .ok g := fun g hg => by
      have hno : (Group.ofText "[\"b\"]").toOption = none := by decide +kernel
      rw [hg] at hno
      cases hno
    have hb : ⟨"/jobwatch/group/b", "[\"b\"]"⟩ ∈ found := (hmem _ _).mpr ⟨⟨"b", rfl⟩, rfl⟩
    rcases hcases with ⟨groups, hall, -⟩ | ⟨e, he, fault, hfault, hless, hrun⟩
    · obtain ⟨g, -, hg⟩ := exists_of_forall₂ hall hb
      exact absurd hg (hbad g)
    · obtain ⟨hscope, hvalue⟩ := (hmem e.key e.value).mp he
      have hentry := hsorted.mem_iff.mpr hvalue
      simp only [spoiled, List.mem_cons, Prod.mk.injEq, List.not_mem_nil, or_false] at hentry
      rcases hentry with ⟨hkey, -⟩ | ⟨-, htext⟩ | ⟨hkey, -⟩ | ⟨hkey, -⟩
      · rw [← Scope.covers_iff, hkey] at hscope
        exact absurd hscope (by decide)
      · have hread : (Group.ofText "[\"a\",\"web\"]").toOption.isSome = true := by decide +kernel
        rw [← htext, hfault] at hread
        cases hread
      · exact ⟨fault.message, hkey ▸ hrun⟩
      · obtain ⟨g, hg⟩ := hless _ hb (hkey ▸ by decide)
        exact absurd hg (hbad g)
  · obtain ⟨-, -, hkept⟩ := groups_listed (s := { spoiled with entries := [] }) {}
      Table.sorted_nil rfl
    exact hkept rfl (fun _ => rfl) _ [emptyGroup, quotedGroup] (.swap ..) (by decide +kernel)

end Rehearsal

end FleetLedger
