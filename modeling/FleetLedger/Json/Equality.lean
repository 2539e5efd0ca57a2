import FleetLedger.Json.Basic
import FleetLedger.Number.Shortest

/-!
# Equality of JSON values

Two values are the same when they are made of the same parts, except that the two floating-point zeros
are one value.  So each value is the same as itself (`same_refl`), and it does not matter which of two
comes first (`same_comm`).  Without floats, sameness is equality (`same_iff_eq`).

A database does not keep apart the kinds of numbers, only their sizes (`alike`), which without floats
comes to the same (`alike_iff_eq`).
-/

namespace FleetLedger.Json

mutual

theorem same_refl : (a : Json) → a.same a = true
  | .null => by rw [same]
  | .bool _ | .int _ | .string _ => by rw [same, beq_self_eq_true]
  | .float _ => by rw [same, Binary64.equal, beq_self_eq_true]
  | .array items => by rw [same, sameItems_refl items]
  | .object fields => by rw [same, sameFields_refl fields]

theorem sameItems_refl : (as : List Json) → sameItems as as = true
  | [] => by rw [sameItems]
  | a :: as => by rw [sameItems, same_refl a, sameItems_refl as, Bool.and_self]

theorem sameFields_refl : (as : List (String × Json)) → sameFields as as = true
  | [] => by rw [sameFields]
  | (_, a) :: as => by
      rw [sameFields, beq_self_eq_true, same_refl a, sameFields_refl as, Bool.and_self, Bool.and_self]

end

mutual

/-- It does not matter which of two values is compared with which. -/
theorem same_comm : (a b : Json) → a.same b = b.same a
  | .null, b => by cases b <;> simp [same]
  | .bool x, b => by cases b <;> simp [same, Bool.beq_comm]
  | .int n, b => by cases b <;> simp [same, BEq.comm]
  | .float x, b => by cases b <;> simp [same, Binary64.equal, BEq.comm]
  | .string text, b => by cases b <;> simp [same, BEq.comm]
  | .array items, b => by
      cases b with
      | array others => simp [same, sameItems_comm items others]
      | _ => simp [same]
  | .object fields, b => by
      cases b with
      | object others => simp [same, sameFields_comm fields others]
      | _ => simp [same]

theorem sameItems_comm : (as bs : List Json) → sameItems as bs = sameItems bs as
  | [], bs => by cases bs <;> simp [sameItems]
  | a :: as, [] => by simp [sameItems]
  | a :: as, b :: bs => by simp [sameItems, same_comm a b, sameItems_comm as bs]

theorem sameFields_comm : (as bs : List (String × Json)) → sameFields as bs = sameFields bs as
  | [], bs => by cases bs <;> simp [sameFields]
  | (k, a) :: as, [] => by simp [sameFields]
  | (k, a) :: as, (l, b) :: bs => by
      simp [sameFields, same_comm a b, sameFields_comm as bs, BEq.comm (a := k)]

end

mutual

/-- There are no floats in the value. -/
def floatFree : Json → Bool
  | float _ => false
  | array items => itemsFloatFree items
  | object fields => fieldsFloatFree fields
  | _ => true

/-- There are no floats in the items of an array. -/
def itemsFloatFree : List Json → Bool
  | [] => true
  | item :: items => floatFree item && itemsFloatFree items

/-- There are no floats in the fields of an object. -/
def fieldsFloatFree : List (String × Json) → Bool
  | [] => true
  | (_, value) :: fields => floatFree value && fieldsFloatFree fields

end

mutual

/-- **Without floats, equality of values is equality of what they are made of.** -/
theorem same_iff_eq : (a b : Json) → a.floatFree = true → (a.same b = true ↔ a = b)
  | .null, b, _ => by cases b <;> simp [same]
  | .bool x, b, _ => by cases b <;> simp [same]
  | .int n, b, _ => by cases b <;> simp [same]
  | .float x, _, h => by simp [floatFree] at h
  | .string text, b, _ => by cases b <;> simp [same]
  | .array items, b, h => by
      rw [floatFree] at h
      cases b with
      | array others => simpa [same] using sameItems_iff_eq items others h
      | _ => simp [same]
  | .object fields, b, h => by
      rw [floatFree] at h
      cases b with
      | object others => simpa [same] using sameFields_iff_eq fields others h
      | _ => simp [same]

theorem sameItems_iff_eq : (as bs : List Json) → itemsFloatFree as = true →
    (sameItems as bs = true ↔ as = bs)
  | [], bs, _ => by cases bs <;> simp [sameItems]
  | a :: as, [], _ => by simp [sameItems]
  | a :: as, b :: bs, h => by
      rw [itemsFloatFree, Bool.and_eq_true] at h
      simp [sameItems, same_iff_eq a b h.1, sameItems_iff_eq as bs h.2]

theorem sameFields_iff_eq : (as bs : List (String × Json)) → fieldsFloatFree as = true →
    (sameFields as bs = true ↔ as = bs)
  | [], bs, _ => by cases bs <;> simp [sameFields]
  | (k, a) :: as, [], _ => by simp [sameFields]
  | (k, a) :: as, (l, b) :: bs, h => by
      rw [fieldsFloatFree, Bool.and_eq_true] at h
      simp [sameFields, same_iff_eq a b h.1, sameFields_iff_eq as bs h.2]

end

/-! ## Equality by size -/

/-- A number as a decimal, `digits · 10 ^ exponent`: an integer, or the shortest that names a float. -/
def decimal? : Json → Option (Int × Int)
  | int n => some (n, 0)
  | float x =>
    let size := x.shortest
    some (if x.negative then -size.digits else size.digits, size.exponent)
  | _ => none

/-- Two decimals are one number. -/
def sameSize (x y : Int × Int) : Bool :=
  let last := min x.2 y.2
  let power := fun (place : Int) => (Nat.pow 10 (place - last).toNat : Int)
  x.1 * power x.2 == y.1 * power y.2

mutual

/-- Equality of values that goes by the size of numbers, whatever their kind. -/
def alike : Json → Json → Bool
  | null, null => true
  | bool a, bool b => a == b
  | string a, string b => a == b
  | array as, array bs => alikeItems as bs
  | object as, object bs => alikeFields as bs
  | a, b =>
    match a.decimal?, b.decimal? with
    | some x, some y => sameSize x y
    | _, _ => false

/-- Equality of arrays, item by item. -/
def alikeItems : List Json → List Json → Bool
  | [], [] => true
  | a :: as, b :: bs => alike a b && alikeItems as bs
  | _, _ => false

/-- Equality of objects, field by field. -/
def alikeFields : List (String × Json) → List (String × Json) → Bool
  | [], [] => true
  | (k, a) :: as, (l, b) :: bs => k == l && alike a b && alikeFields as bs
  | _, _ => false

end

/-- Only null is equal to null. -/
theorem null_alike (v : Json) : null.alike v = true ↔ v = .null := by
  cases v <;> simp [alike, decimal?]

mutual

/-- Without floats, equality by size is equality as well. -/
theorem alike_iff_eq : (a b : Json) → a.floatFree = true → b.floatFree = true →
    (a.alike b = true ↔ a = b)
  | .null, b, _, _ => by cases b <;> simp [alike, decimal?]
  | .bool x, b, _, _ => by cases b <;> simp [alike, decimal?]
  | .int n, b, _, hb => by
      cases b with
      | float x => simp [floatFree] at hb
      | _ => simp [alike, decimal?, sameSize]
  | .float x, _, ha, _ => by simp [floatFree] at ha
  | .string text, b, _, _ => by cases b <;> simp [alike, decimal?]
  | .array items, b, ha, hb => by
      cases b with
      | array others =>
          rw [floatFree] at ha hb
          simpa [alike] using alikeItems_iff_eq items others ha hb
      | _ => simp [alike, decimal?]
  | .object fields, b, ha, hb => by
      cases b with
      | object others =>
          rw [floatFree] at ha hb
          simpa [alike] using alikeFields_iff_eq fields others ha hb
      | _ => simp [alike, decimal?]

theorem alikeItems_iff_eq : (as bs : List Json) → itemsFloatFree as = true →
    itemsFloatFree bs = true → (alikeItems as bs = true ↔ as = bs)
  | [], bs, _, _ => by cases bs <;> simp [alikeItems]
  | a :: as, [], _, _ => by simp [alikeItems]
  | a :: as, b :: bs, ha, hb => by
      rw [itemsFloatFree, Bool.and_eq_true] at ha hb
      simp [alikeItems, alike_iff_eq a b ha.1 hb.1, alikeItems_iff_eq as bs ha.2 hb.2]

theorem alikeFields_iff_eq : (as bs : List (String × Json)) → fieldsFloatFree as = true →
    fieldsFloatFree bs = true → (alikeFields as bs = true ↔ as = bs)
  | [], bs, _, _ => by cases bs <;> simp [alikeFields]
  | (k, a) :: as, [], _, _ => by simp [alikeFields]
  | (k, a) :: as, (l, b) :: bs, ha, hb => by
      rw [fieldsFloatFree, Bool.and_eq_true] at ha hb
      simp [alikeFields, alike_iff_eq a b ha.1 hb.1, alikeFields_iff_eq as bs ha.2 hb.2]

end

/-- Without binary fractions, the store in memory and the database compare values alike. -/
theorem same_eq_alike {a b : Json} (ha : a.floatFree = true) (hb : b.floatFree = true) :
    a.same b = a.alike b := by
  rw [Bool.eq_iff_iff, same_iff_eq a b ha, alike_iff_eq a b ha hb]

end FleetLedger.Json
