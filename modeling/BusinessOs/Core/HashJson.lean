/- Source: rust/src/bridge.rs (canonicalize, hash_json)
   digest: Payload hashes agree exactly for payloads that agree up to the order of members. -/

import BusinessOs.Lib.Bytes
import BusinessOs.Lib.Json.Compact
import BusinessOs.Lib.OrderedMap
import Mathlib.Data.String.Basic

set_option autoImplicit false
set_option relaxedAutoImplicit false

namespace BusinessOs.Core.HashJson

open BusinessOs.Lib BusinessOs.Lib.Bytes BusinessOs.Lib.Json.Tree
open BusinessOs.Lib.Json.Literals BusinessOs.Lib.Json.Compact

mutual

/-- Rebuild every object through an ordered map. -/
def canonicalize : Value → Value
  | .null => .null
  | .bool b => .bool b
  | .number n => .number n
  | .string s => .string s
  | .array items => .array (canonicalizeItems items)
  | .object members => .object (OrderedMap.ofList (canonicalizeMembers members))

def canonicalizeItems : List Value → List Value
  | [] => []
  | v :: vs => canonicalize v :: canonicalizeItems vs

def canonicalizeMembers : List (String × Value) → List (String × Value)
  | [] => []
  | (k, v) :: ms => (k, canonicalize v) :: canonicalizeMembers ms

end

/-- The digest function and the literal printer are library code. -/
def hashJson (sha256 : List UInt8 → List UInt8) (lit : LiteralPrinter) (payload : Value) :
    String :=
  let serialized := String.ofList (compact lit (canonicalize payload))
  hexEncode (sha256 (utf8 serialized))

mutual

/-- Equal up to the order of object members, at every depth. -/
def EqUpToOrder : Value → Value → Prop
  | .null, .null => True
  | .bool a, .bool b => a = b
  | .number a, .number b => a = b
  | .string a, .string b => a = b
  | .array a, .array b => ItemsEq a b
  | .object a, .object b => ∃ c, c.Perm b ∧ MembersEq a c
  | _, _ => False

def ItemsEq : List Value → List Value → Prop
  | [], [] => True
  | v :: vs, w :: ws => EqUpToOrder v w ∧ ItemsEq vs ws
  | _, _ => False

def MembersEq : List (String × Value) → List (String × Value) → Prop
  | [], [] => True
  | (k, v) :: ms, (l, w) :: ns => k = l ∧ EqUpToOrder v w ∧ MembersEq ms ns
  | _, _ => False

end

mutual

/-- No object repeats a key, at any depth. -/
def DistinctKeys : Value → Prop
  | .array items => DistinctItems items
  | .object members => (members.map Prod.fst).Nodup ∧ DistinctMembers members
  | _ => True

def DistinctItems : List Value → Prop
  | [] => True
  | v :: vs => DistinctKeys v ∧ DistinctItems vs

def DistinctMembers : List (String × Value) → Prop
  | [] => True
  | (_, v) :: ms => DistinctKeys v ∧ DistinctMembers ms

end

theorem distinctItems_iff {items : List Value} :
    DistinctItems items ↔ ∀ v ∈ items, DistinctKeys v := by
  induction items with
  | nil => simp [DistinctItems]
  | cons v vs ih => simp [DistinctItems, ih]

theorem distinctMembers_iff {members : List (String × Value)} :
    DistinctMembers members ↔ ∀ m ∈ members, DistinctKeys m.2 := by
  induction members with
  | nil => simp [DistinctMembers]
  | cons m ms ih => simp [DistinctMembers, ih]

theorem canonicalizeMembers_eq (members : List (String × Value)) :
    canonicalizeMembers members = members.map fun m => (m.1, canonicalize m.2) := by
  induction members with
  | nil => rfl
  | cons m ms ih => rw [canonicalizeMembers, ih, List.map_cons]

theorem canonicalizeMembers_keys (members : List (String × Value)) :
    (canonicalizeMembers members).map Prod.fst = members.map Prod.fst := by
  rw [canonicalizeMembers_eq, List.map_map]
  rfl

/-- A reordering of a mapped list is the map of a reordering. -/
theorem perm_map_iff {α β : Type} {f : α → β} {a : List β} {b : List α} :
    a.Perm (b.map f) ↔ ∃ c : List α, c.Perm b ∧ a = c.map f := by
  constructor
  · intro perm
    induction b generalizing a with
    | nil => exact ⟨[], .refl _, by simpa using perm⟩
    | cons x xs ih =>
      have member : f x ∈ a := perm.mem_iff.mpr List.mem_cons_self
      obtain ⟨left, right, rfl⟩ := List.append_of_mem member
      obtain ⟨c, reorder, halves⟩ := ih ((List.perm_middle.symm.trans perm).cons_inv)
      obtain ⟨l, r, rfl, rfl, rfl⟩ := List.append_eq_map_iff.mp halves
      exact ⟨l ++ x :: r, List.perm_middle.trans (reorder.cons x), by simp⟩
  · rintro ⟨c, perm, rfl⟩
    exact perm.map f

/-- What the order of members does not change about a value's canonical form. -/
def Agrees (v : Value) : Prop :=
  ∀ w, DistinctKeys v → DistinctKeys w → (canonicalize v = canonicalize w ↔ EqUpToOrder v w)

theorem items_agree {vs ws : List Value} (ih : ∀ v ∈ vs, Agrees v)
    (hv : ∀ v ∈ vs, DistinctKeys v) (hw : ∀ w ∈ ws, DistinctKeys w) :
    canonicalizeItems vs = canonicalizeItems ws ↔ ItemsEq vs ws := by
  induction vs generalizing ws with
  | nil => cases ws <;> simp [canonicalizeItems, ItemsEq]
  | cons v vs rest =>
    cases ws with
    | nil => simp [canonicalizeItems, ItemsEq]
    | cons w ws =>
      have head := ih v List.mem_cons_self w (hv v List.mem_cons_self) (hw w List.mem_cons_self)
      have tail := rest (fun x hx => ih x (List.mem_cons_of_mem _ hx))
        (fun x hx => hv x (List.mem_cons_of_mem _ hx))
        (fun x hx => hw x (List.mem_cons_of_mem _ hx))
      simp only [canonicalizeItems, ItemsEq, List.cons.injEq, head, tail]

theorem members_agree {ms ns : List (String × Value)} (ih : ∀ m ∈ ms, Agrees m.2)
    (hm : ∀ m ∈ ms, DistinctKeys m.2) (hn : ∀ n ∈ ns, DistinctKeys n.2) :
    canonicalizeMembers ms = canonicalizeMembers ns ↔ MembersEq ms ns := by
  induction ms generalizing ns with
  | nil => cases ns <;> simp [canonicalizeMembers, MembersEq]
  | cons m ms rest =>
    cases ns with
    | nil => simp [canonicalizeMembers, MembersEq]
    | cons n ns =>
      have head := ih m List.mem_cons_self n.2 (hm m List.mem_cons_self) (hn n List.mem_cons_self)
      have tail := rest (fun x hx => ih x (List.mem_cons_of_mem _ hx))
        (fun x hx => hm x (List.mem_cons_of_mem _ hx))
        (fun x hx => hn x (List.mem_cons_of_mem _ hx))
      simp only [canonicalizeMembers, MembersEq, List.cons.injEq, Prod.mk.injEq, head, tail,
        and_assoc]

/-- Canonical forms agree exactly up to the order of members. -/
theorem canonicalize_eq_iff (v : Value) : Agrees v := by
  induction v using Value.induct with
  | null => intro w; cases w <;> simp [canonicalize, EqUpToOrder]
  | bool b => intro w; cases w <;> simp [canonicalize, EqUpToOrder]
  | number n => intro w; cases w <;> simp [canonicalize, EqUpToOrder]
  | string s => intro w; cases w <;> simp [canonicalize, EqUpToOrder]
  | array items ih =>
    intro w hv hw
    cases w with
    | array others =>
      simp only [canonicalize, EqUpToOrder, Value.array.injEq]
      exact items_agree ih (distinctItems_iff.mp hv) (distinctItems_iff.mp hw)
    | _ => simp [canonicalize, EqUpToOrder]
  | object members ih =>
    intro w hv hw
    cases w with
    | object others =>
      obtain ⟨keysV, valuesV⟩ := hv
      obtain ⟨keysW, valuesW⟩ := hw
      simp only [canonicalize, EqUpToOrder, Value.object.injEq]
      rw [OrderedMap.ofList_eq_iff (by rwa [canonicalizeMembers_keys])
        (by rwa [canonicalizeMembers_keys]), canonicalizeMembers_eq others, perm_map_iff]
      refine exists_congr fun c => and_congr_right fun perm => ?_
      rw [← canonicalizeMembers_eq]
      refine members_agree ih (distinctMembers_iff.mp valuesV) fun n member => ?_
      exact distinctMembers_iff.mp valuesW n (perm.mem_iff.mp member)
    | _ => simp [canonicalize, EqUpToOrder]

/-- With an injective digest, payload hashes agree exactly up to the order of members. -/
theorem hashJson_eq_iff (sha256 : List UInt8 → List UInt8) (lit : LiteralPrinter)
    (sha256_injective : Function.Injective sha256) (p q : Value) (hp : DistinctKeys p)
    (hq : DistinctKeys q) : hashJson sha256 lit p = hashJson sha256 lit q ↔ EqUpToOrder p q := by
  rw [← canonicalize_eq_iff p q hp hq]
  constructor
  · intro same
    have digests := hexEncode_injective same
    have texts := String.ofList_injective (utf8_injective (sha256_injective digests))
    exact compact_injective lit texts
  · intro same
    simp only [hashJson, same]

/-- A payload in canonical order. -/
def sample : Value :=
  .object [("meta", .array [.object [("x", .null), ("y", .number (.posInt 1))]]),
    ("to", .string "ops")]

/-- An injective function that has SHA-256's digest of the sample's text. -/
def sampleSha256 : List UInt8 → List UInt8 :=
  pinned id (utf8 "\x7b\"meta\":[\x7b\"x\":null,\"y\":1\x7d],\"to\":\"ops\"\x7d")
    [169, 214, 110, 241, 90, 68, 5, 237, 113, 149, 254, 129, 255, 7, 141, 233,
      45, 12, 63, 58, 32, 33, 216, 223, 3, 147, 56, 158, 13, 0, 245, 112]

/-- The sample with the outer and the nested members in another order. -/
theorem hashJson_eq_reordered :
    hashJson sampleSha256 plainPrinter
      (.object [("to", .string "ops"),
        ("meta", .array [.object [("y", .number (.posInt 1)), ("x", .null)]])]) =
    hashJson sampleSha256 plainPrinter sample := by
  refine (hashJson_eq_iff sampleSha256 plainPrinter
    (pinned_injective Function.injective_id (by decide)) _ _ ?_ ?_).mpr ?_
  · simp [DistinctKeys, DistinctItems, DistinctMembers]
  · simp [sample, DistinctKeys, DistinctItems, DistinctMembers]
  · simp only [sample, EqUpToOrder]
    refine ⟨_, .swap _ _ _, ?_⟩
    simp only [MembersEq, ItemsEq, EqUpToOrder, true_and, and_true]
    exact ⟨_, .swap _ _ _, by simp [MembersEq, EqUpToOrder]⟩

example : hashJson sampleSha256 plainPrinter sample =
    "a9d66ef15a4405ed7195fe81ff078de92d0c3f3a2021d8df0393389e0d00f570" := by decide

end BusinessOs.Core.HashJson
