/- digest: JSON values, their equality, and the removal of null members. -/

import Mathlib.Data.List.Basic

set_option autoImplicit false
set_option relaxedAutoImplicit false

namespace BusinessOs.Lib.Json.Tree

/-- The bits of an `f64` that is neither infinite nor a NaN. -/
def Finite (bits : UInt64) : Prop := (bits >>> 52) &&& 0x7ff ≠ 0x7ff

instance (bits : UInt64) : Decidable (Finite bits) := inferInstanceAs (Decidable (_ ≠ _))

/-- A number: `u64`, negative `i64`, or finite `f64`. -/
inductive Number
  | posInt (n : UInt64)
  | negInt (n : Int64) (negative : n < 0)
  | float (bits : UInt64) (finite : Finite bits)
  deriving DecidableEq

/-- A JSON value; an object is the list of its members in iteration order. -/
inductive Value
  | null
  | bool (b : Bool)
  | number (n : Number)
  | string (s : String)
  | array (items : List Value)
  | object (members : List (String × Value))

/-- A value occurs in another at some depth. -/
inductive Occurs (v : Value) : Value → Prop
  | here : Occurs v v
  | item {w : Value} {items : List Value} (mem : w ∈ items) (inside : Occurs v w) :
      Occurs v (.array items)
  | member {m : String × Value} {members : List (String × Value)} (mem : m ∈ members)
      (inside : Occurs v m.2) : Occurs v (.object members)

def Value.isNull : Value → Bool
  | .null => true
  | _ => false

mutual

/-- Remove every object member whose value is null, at every depth. -/
def Value.stripNulls : Value → Value
  | .null => .null
  | .bool b => .bool b
  | .number n => .number n
  | .string s => .string s
  | .array items => .array (stripItems items)
  | .object members => .object (stripMembers members)

def stripItems : List Value → List Value
  | [] => []
  | v :: vs => v.stripNulls :: stripItems vs

def stripMembers : List (String × Value) → List (String × Value)
  | [] => []
  | (k, v) :: ms => if v.isNull then stripMembers ms else (k, v.stripNulls) :: stripMembers ms

end

mutual

def Value.decEq : (v w : Value) → Decidable (v = w)
  | .null, .null => isTrue rfl
  | .bool a, .bool b => decidable_of_iff (a = b) (by simp)
  | .number a, .number b => decidable_of_iff (a = b) (by simp)
  | .string a, .string b => decidable_of_iff (a = b) (by simp)
  | .array a, .array b => @decidable_of_iff _ (a = b) (by simp) (decItems a b)
  | .object a, .object b => @decidable_of_iff _ (a = b) (by simp) (decMembers a b)
  | .null, .bool _ | .null, .number _ | .null, .string _ | .null, .array _ | .null, .object _
  | .bool _, .null | .bool _, .number _ | .bool _, .string _ | .bool _, .array _
  | .bool _, .object _ | .number _, .null | .number _, .bool _ | .number _, .string _
  | .number _, .array _ | .number _, .object _ | .string _, .null | .string _, .bool _
  | .string _, .number _ | .string _, .array _ | .string _, .object _ | .array _, .null
  | .array _, .bool _ | .array _, .number _ | .array _, .string _ | .array _, .object _
  | .object _, .null | .object _, .bool _ | .object _, .number _ | .object _, .string _
  | .object _, .array _ => isFalse (by simp)

def decItems : (vs ws : List Value) → Decidable (vs = ws)
  | [], [] => isTrue rfl
  | [], _ :: _ | _ :: _, [] => isFalse (by simp)
  | v :: vs, w :: ws =>
    @decidable_of_iff _ (v = w ∧ vs = ws) (by simp)
      (@instDecidableAnd _ _ (v.decEq w) (decItems vs ws))

def decMembers : (ms ns : List (String × Value)) → Decidable (ms = ns)
  | [], [] => isTrue rfl
  | [], _ :: _ | _ :: _, [] => isFalse (by simp)
  | (k, v) :: ms, (l, w) :: ns =>
    @decidable_of_iff _ (k = l ∧ v = w ∧ ms = ns) (by simp [and_assoc])
      (@instDecidableAnd _ _ (instDecidableEqString k l)
        (@instDecidableAnd _ _ (v.decEq w) (decMembers ms ns)))

end

instance : DecidableEq Value := Value.decEq

/-- Induction over a value, with the hypothesis for every item and every member's value. -/
@[elab_as_elim]
theorem Value.induct {P : Value → Prop} (null : P .null) (bool : ∀ b, P (.bool b))
    (number : ∀ n, P (.number n)) (string : ∀ s, P (.string s))
    (array : ∀ items, (∀ v ∈ items, P v) → P (.array items))
    (object : ∀ members, (∀ m ∈ members, P m.2) → P (.object members)) (v : Value) : P v := by
  refine @Value.rec P (fun items => ∀ v ∈ items, P v) (fun members => ∀ m ∈ members, P m.2)
    (fun m => P m.2) null bool number string array object ?_ ?_ ?_ ?_ (fun _ _ h => h) v
  · simp
  · intro w ws hw hws x member
    rcases List.mem_cons.mp member with rfl | later
    · exact hw
    · exact hws x later
  · simp
  · intro m ms hm hms x member
    rcases List.mem_cons.mp member with rfl | later
    · exact hm
    · exact hms x later

theorem isNull_iff {v : Value} : v.isNull = true ↔ v = .null := by
  cases v <;> simp [Value.isNull]

end BusinessOs.Lib.Json.Tree
