/- digest: What can be read off a JSON value: its members, its text, and its number, which each
     accessor covers in part. -/

import BusinessOs.Lib.Json.Tree
import Mathlib.Algebra.Field.Rat
import Mathlib.Algebra.Order.Ring.Rat

set_option autoImplicit false
set_option relaxedAutoImplicit false

namespace BusinessOs.Lib.Json.Tree

/-- The exact number that the bits of a finite `f64` stand for. -/
def floatValue (bits : UInt64) : ℚ :=
  let exponent := ((bits >>> 52) &&& 0x7ff).toNat
  let fraction := (bits &&& 0xfffffffffffff).toNat
  let magnitude : ℚ :=
    if exponent = 0 then fraction * 2 ^ (-1074 : ℤ)
    else (2 ^ 52 + fraction) * 2 ^ ((exponent : ℤ) - 1075)
  if bits >>> 63 = 0 then magnitude else -magnitude

/-- The number, as mathematics has it. -/
def Number.value : Number → ℚ
  | .posInt n => n.toNat
  | .negInt n _ => n.toInt
  | .float bits _ => floatValue bits

/-- `Number::as_u64`. -/
def Number.asU64 : Number → Option UInt64
  | .posInt n => some n
  | .negInt _ _ | .float _ _ => none

/-- `Number::as_i64`. -/
def Number.asI64 : Number → Option ℤ
  | .posInt n => if n.toNat < 2 ^ 63 then some n.toNat else none
  | .negInt n _ => some n.toInt
  | .float _ _ => none

/-- `Value::get` with a key. -/
def Value.get (v : Value) (key : String) : Option Value :=
  match v with
  | .object members => members.lookup key
  | _ => none

def Value.asStr : Value → Option String
  | .string s => some s
  | _ => none

def Value.asNumber : Value → Option Number
  | .number n => some n
  | _ => none

def Value.asU64 (v : Value) : Option UInt64 := v.asNumber.bind Number.asU64

def Value.asI64 (v : Value) : Option ℤ := v.asNumber.bind Number.asI64

/-- The number under a key, where everything that is not a number counts as zero. -/
def measure (v : Option Value) : ℚ := ((v.bind Value.asNumber).map Number.value).getD 0

/-- What an accessor reads is the value of the number. -/
theorem Number.asI64_value {n : Number} {k : ℤ} (read : n.asI64 = some k) : n.value = k := by
  cases n with
  | posInt n =>
    rw [Number.asI64] at read
    split_ifs at read
    rw [Number.value, ← Option.some.inj read, Int.cast_natCast]
  | negInt n _ => rw [Number.value, Option.some.inj read]
  | float bits _ => exact nomatch read

example : floatValue 0x3ff0000000000000 = 1 ∧ floatValue 0xc056a00000000000 = -181 / 2 ∧
    floatValue 1 = 2 ^ (-1074 : ℤ) := by decide +kernel

end BusinessOs.Lib.Json.Tree
