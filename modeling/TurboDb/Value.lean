import TurboDb.Status
import TurboDb.Wire

/-!
Scalar values and their bound types.

A binary64 value is its bit pattern. Values with a reserved word that is not zero,
or with a length but no data, are `malformed` of the kind they announce: every
check rejects them, and some code looks at the kind first.
-/

namespace TurboDb

open ByteOrder Words Wire

inductive Kind
  | null | int64 | uint64 | double | boolean | text | blob
  deriving DecidableEq, Repr

inductive Value
  | null
  | int64 (value : Int64)
  | uint64 (value : UInt64)
  | double (bits : UInt64)
  | boolean (value : UInt8)
  | text (bytes : Bytes)
  | blob (bytes : Bytes)
  | malformed (kind : Kind)
  deriving DecidableEq

structure SqlType where
  kind : Kind
  nullable : Bool
  deriving DecidableEq, Repr

def Value.kind : Value → Kind
  | .null => .null
  | .int64 _ => .int64
  | .uint64 _ => .uint64
  | .double _ => .double
  | .boolean _ => .boolean
  | .text _ => .text
  | .blob _ => .blob
  | .malformed kind => kind

def Value.bool (b : Bool) : Value := .boolean (if b then 1 else 0)

def assignmentNumeric (kind : Kind) : Bool :=
  kind = .int64 || kind = .uint64 || kind = .double

def integral (kind : Kind) : Bool := kind = .int64 || kind = .uint64

def validType (type : SqlType) : Bool := type.kind ≠ .null || type.nullable

def validValue (value : Value) (type : SqlType) : Bool :=
  match value with
  | .malformed _ => false
  | .null => type.nullable
  | .int64 _ => type.kind = .int64
  | .uint64 _ => type.kind = .uint64
  | .double bits => type.kind = .double && isFinite bits
  | .boolean b => type.kind = .boolean && b ≤ 1
  | .text _ => type.kind = .text
  | .blob _ => type.kind = .blob

/-- The binary64 nearest to a 64-bit magnitude, ties to the even mantissa. -/
def doubleOfMagnitude (n : Nat) : UInt64 :=
  if n = 0 then 0 else
    let exponent := n.log2
    if exponent ≤ 52 then
      UInt64.ofNat ((exponent + 1023) * 2 ^ 52 + (n - 2 ^ exponent) * 2 ^ (52 - exponent))
    else
      let shift := exponent - 52
      let kept := n / 2 ^ shift
      let dropped := n % 2 ^ shift
      let half := 2 ^ (shift - 1)
      let rounded := if dropped > half ∨ dropped = half ∧ kept % 2 = 1 then kept + 1 else kept
      UInt64.ofNat ((exponent + 1023) * 2 ^ 52 + (rounded - 2 ^ 52))

def doubleOfInt64 (v : Int64) : UInt64 :=
  if v.toInt < 0 then doubleOfMagnitude v.toInt.natAbs ||| sign
  else doubleOfMagnitude v.toInt.natAbs

def doubleOfUInt64 (v : UInt64) : UInt64 := doubleOfMagnitude v.toNat

def numericRealValue : Value → UInt64
  | .double bits => bits
  | .int64 v => doubleOfInt64 v
  | .uint64 v => doubleOfUInt64 v
  | _ => 0

theorem assignmentNumeric_cases {kind : Kind} (numeric : assignmentNumeric kind) :
    kind = .int64 ∨ kind = .uint64 ∨ kind = .double := by
  cases kind <;> simp_all [assignmentNumeric]

theorem validValue_kind {value : Value} {type : SqlType} (valid : validValue value type) :
    value = .null ∨ value.kind = type.kind := by
  cases value <;> simp_all [validValue, Value.kind]

end TurboDb
