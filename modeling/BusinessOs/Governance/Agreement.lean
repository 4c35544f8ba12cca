/- Source: crates/abos-governance-core/src/lib.rs (canonical_value);
   rust/src/bridge.rs (canonicalize, hash_json)
   digest: The two canonical encoders agree exactly on values without null members. -/

import BusinessOs.Core.HashJson
import BusinessOs.Governance.Canonical

set_option autoImplicit false
set_option relaxedAutoImplicit false

namespace BusinessOs.Governance.Agreement

open BusinessOs.Lib BusinessOs.Lib.Bytes BusinessOs.Lib.Json.Tree
open BusinessOs.Lib.Json.Literals BusinessOs.Lib.Json.Compact
open BusinessOs.Core.HashJson BusinessOs.Governance.Canonical

/-- The text that `hash_json` digests: `serde_json::to_string(&canonicalize(payload))`. -/
def hashedText (lit : LiteralPrinter) (payload : Value) : String :=
  String.ofList (compact lit (canonicalize payload))

theorem hashJson_eq (sha256 : List UInt8 → List UInt8) (lit : LiteralPrinter) (payload : Value) :
    hashJson sha256 lit payload = hexEncode (sha256 (utf8 (hashedText lit payload))) := rfl

mutual

/-- Every object iterates its members in key order, at every depth. -/
def KeyOrdered : Value → Prop
  | .array items => ItemsKeyOrdered items
  | .object members => OrderedMap.Sorted members ∧ MembersKeyOrdered members
  | _ => True

def ItemsKeyOrdered : List Value → Prop
  | [] => True
  | v :: vs => KeyOrdered v ∧ ItemsKeyOrdered vs

def MembersKeyOrdered : List (String × Value) → Prop
  | [] => True
  | (_, v) :: ms => KeyOrdered v ∧ MembersKeyOrdered ms

end

mutual

/-- No object has a null-valued member, at any depth. -/
def NullFree : Value → Prop
  | .array items => ItemsNullFree items
  | .object members => MembersNullFree members
  | _ => True

def ItemsNullFree : List Value → Prop
  | [] => True
  | v :: vs => NullFree v ∧ ItemsNullFree vs

def MembersNullFree : List (String × Value) → Prop
  | [] => True
  | (_, v) :: ms => v ≠ .null ∧ NullFree v ∧ MembersNullFree ms

end

/-! A value in key order is its own canonical form. -/

theorem canonicalizeItems_of_ordered {items : List Value} (ordered : ItemsKeyOrdered items)
    (ih : ∀ v ∈ items, KeyOrdered v → canonicalize v = v) : canonicalizeItems items = items := by
  induction items with
  | nil => rfl
  | cons v vs rest =>
    obtain ⟨head, tail⟩ := ordered
    rw [canonicalizeItems, ih v List.mem_cons_self head,
      rest tail fun w member => ih w (List.mem_cons_of_mem _ member)]

theorem canonicalizeMembers_of_ordered {members : List (String × Value)}
    (ordered : MembersKeyOrdered members)
    (ih : ∀ m ∈ members, KeyOrdered m.2 → canonicalize m.2 = m.2) :
    canonicalizeMembers members = members := by
  induction members with
  | nil => rfl
  | cons m ms rest =>
    obtain ⟨k, v⟩ := m
    obtain ⟨head, tail⟩ := ordered
    have value : canonicalize v = v := ih (k, v) List.mem_cons_self head
    rw [canonicalizeMembers, value,
      rest tail fun n member => ih n (List.mem_cons_of_mem _ member)]

theorem canonicalize_of_ordered (v : Value) : KeyOrdered v → canonicalize v = v := by
  induction v using Value.induct with
  | null => exact fun _ => rfl
  | bool b => exact fun _ => rfl
  | number n => exact fun _ => rfl
  | string s => exact fun _ => rfl
  | array items ih =>
    intro ordered
    rw [canonicalize, canonicalizeItems_of_ordered ordered ih]
  | object members ih =>
    rintro ⟨sorted, values⟩
    rw [canonicalize, canonicalizeMembers_of_ordered values ih,
      OrderedMap.ofList_of_sorted sorted]

/-! Removing null members changes every value that has one: it shortens the object. -/

theorem stripMembers_length_le (members : List (String × Value)) :
    (stripMembers members).length ≤ members.length := by
  induction members with
  | nil => exact le_rfl
  | cons m ms ih =>
    obtain ⟨k, v⟩ := m
    rw [stripMembers]
    split_ifs
    · rw [List.length_cons]
      omega
    · rw [List.length_cons, List.length_cons]
      omega

theorem stripItems_eq_iff {items : List Value}
    (ih : ∀ v ∈ items, v.stripNulls = v ↔ NullFree v) :
    stripItems items = items ↔ ItemsNullFree items := by
  induction items with
  | nil => simp [stripItems, ItemsNullFree]
  | cons v vs rest =>
    rw [stripItems, ItemsNullFree, List.cons.injEq, ih v List.mem_cons_self,
      rest fun w member => ih w (List.mem_cons_of_mem _ member)]

theorem stripMembers_eq_self_iff {members : List (String × Value)}
    (ih : ∀ m ∈ members, m.2.stripNulls = m.2 ↔ NullFree m.2) :
    stripMembers members = members ↔ MembersNullFree members := by
  induction members with
  | nil => simp [stripMembers, MembersNullFree]
  | cons m ms rest =>
    obtain ⟨k, v⟩ := m
    have value : v.stripNulls = v ↔ NullFree v := ih (k, v) List.mem_cons_self
    have tail := rest fun n member => ih n (List.mem_cons_of_mem _ member)
    rw [stripMembers, MembersNullFree]
    split_ifs with isNull
    · have shorter : stripMembers ms ≠ (k, v) :: ms := by
        intro same
        have bound := stripMembers_length_le ms
        rw [same, List.length_cons] at bound
        omega
      exact iff_of_false shorter fun free => free.1 (isNull_iff.mp isNull)
    · have present : v ≠ .null := fun null => isNull (isNull_iff.mpr null)
      rw [List.cons.injEq, Prod.mk.injEq, value, tail]
      exact ⟨fun h => ⟨present, h.1.2, h.2⟩, fun h => ⟨⟨rfl, h.2.1⟩, h.2.2⟩⟩

theorem stripNulls_eq_self_iff (v : Value) : v.stripNulls = v ↔ NullFree v := by
  induction v using Value.induct with
  | null => exact iff_of_true rfl trivial
  | bool b => exact iff_of_true rfl trivial
  | number n => exact iff_of_true rfl trivial
  | string s => exact iff_of_true rfl trivial
  | array items ih =>
    rw [Value.stripNulls, Value.array.injEq, stripItems_eq_iff ih, NullFree]
  | object members ih =>
    rw [Value.stripNulls, Value.object.injEq, stripMembers_eq_self_iff ih, NullFree]

/-- Over key-ordered maps the two encoders agree exactly on the values without null members. -/
theorem canonicalValue_eq_hashedText_iff (lit : LiteralPrinter) (v : Value)
    (ordered : KeyOrdered v) : canonicalValue lit v = hashedText lit v ↔ NullFree v := by
  unfold canonicalValue hashedText
  rw [String.ofList_inj, canonicalText_eq, canonicalize_of_ordered v ordered,
    (compact_injective lit).eq_iff]
  exact stripNulls_eq_self_iff v

/-- A null inside an array is kept by both, a null member by one of them only. -/
theorem canonicalValue_eq_hashedText_iff_sample :
    canonicalValue plainPrinter (.object [("a", .array [.null]), ("b", .bool true)]) =
      hashedText plainPrinter (.object [("a", .array [.null]), ("b", .bool true)]) ∧
    canonicalValue plainPrinter (.array [.object [("a", .null), ("b", .bool true)]]) ≠
      hashedText plainPrinter (.array [.object [("a", .null), ("b", .bool true)]]) := by
  have sorted : ∀ v w : Value, OrderedMap.Sorted [("a", v), ("b", w)] := by
    intro v w
    have ab : "a".toList < "b".toList := by decide
    exact List.pairwise_pair.mpr (String.lt_iff_toList_lt.mpr ab)
  constructor
  · refine (canonicalValue_eq_hashedText_iff plainPrinter _ ?_).mpr ?_
    · simp [KeyOrdered, ItemsKeyOrdered, MembersKeyOrdered, sorted]
    · simp [NullFree, ItemsNullFree, MembersNullFree]
  · intro same
    have free := (canonicalValue_eq_hashedText_iff plainPrinter _ ?_).mp same
    · simp [NullFree, ItemsNullFree, MembersNullFree] at free
    · simp [KeyOrdered, ItemsKeyOrdered, MembersKeyOrdered, sorted]

end BusinessOs.Governance.Agreement
