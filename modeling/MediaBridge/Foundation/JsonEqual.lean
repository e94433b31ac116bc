import MediaBridge.Foundation.Json
import Mathlib.Algebra.Group.Nat.Defs
import Mathlib.Data.Rat.Defs

/-!
# Equality and truth of JSON values

`v == w` and `bool(v)` as Python computes them: numbers are compared by value whatever
their types, and a boolean counts as the number 0 or 1.
-/

namespace MediaBridge.Foundation

namespace Json

/-- What a number is compared by. -/
inductive NumberValue
  | finite (q : ℚ)
  | infinite (negative : Bool)
  | nan
deriving DecidableEq

/-- The value of a double. -/
def floatValue (bits : BitVec 64) : NumberValue :=
  let mantissa : Nat := bits.toNat % 2 ^ 52
  let exponent : Nat := bits.toNat / 2 ^ 52 % 2 ^ 11
  let negative := decide (2 ^ 63 ≤ bits.toNat)
  let sign : ℚ := if negative then -1 else 1
  if exponent = 2047 then
    if mantissa = 0 then .infinite negative else .nan
  else if exponent = 0 then .finite (sign * (mantissa / 2 ^ 1074))
  else .finite (sign * ((2 ^ 52 + mantissa) * 2 ^ exponent / 2 ^ 1075))

/-- The number that a value is, if it is one. -/
def number? : Json → Option NumberValue
  | .bool b => some (.finite (if b then 1 else 0))
  | .int n => some (.finite n)
  | .float bits => some (floatValue bits)
  | _ => none

/-- Two numbers are equal; a NaN equals nothing. -/
def numbersEqual (x y : NumberValue) : Bool := decide (x = y ∧ x ≠ .nan)

mutual

/-- `v == w`. -/
def equal : Json → Json → Bool
  | .null, w => w.isNull
  | .str s, w => decide (w.str? = some s)
  | .arr items, .arr others => equalItems items others
  | .arr _, _ => false
  | .obj fields, .obj others => fields.length == others.length && equalFields fields others
  | .obj _, _ => false
  | .bool b, w => (number? w).any (numbersEqual (.finite (if b then 1 else 0)))
  | .int n, w => (number? w).any (numbersEqual (.finite n))
  | .float bits, w => (number? w).any (numbersEqual (floatValue bits))

/-- Equality of lists. -/
def equalItems : List Json → List Json → Bool
  | [], [] => true
  | v :: rest, w :: others => equal v w && equalItems rest others
  | _, _ => false

/-- Every entry has an equal one under its key. -/
def equalFields : List (Str × Json) → List (Str × Json) → Bool
  | [], _ => true
  | (k, v) :: rest, others =>
      (match Entries.get? others k with
        | some w => equal v w
        | none => false) && equalFields rest others

end

/-- `bool(v)`. -/
def truthy : Json → Bool
  | .null => false
  | .bool b => b
  | .int n => decide (n ≠ 0)
  | .float bits => decide (floatValue bits ≠ .finite 0)
  | .str s => !s.isEmpty
  | .arr items => !items.isEmpty
  | .obj fields => !fields.isEmpty

/-- `v is False`. -/
def isFalse : Json → Bool
  | .bool b => !b
  | _ => false

/-- `v is True`. -/
def isTrue : Json → Bool
  | .bool b => b
  | _ => false

end Json

end MediaBridge.Foundation
