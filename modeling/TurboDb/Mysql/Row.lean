import TurboDb.Mysql.Response

/-!
The client's row decoders.

A binary row is decoded by the definitions of its columns: the type of a column
gives the form of its value and a flag the sign of an integer. A text row is a
sequence of length-encoded strings. Both must end with their payload.
-/

namespace TurboDb.Mysql

open ByteOrder Effect

structure BinaryDatetime where
  year : UInt16
  month : UInt8
  day : UInt8
  hour : UInt8
  minute : UInt8
  second : UInt8
  microsecond : UInt32
  wireLength : UInt8
  deriving DecidableEq

structure BinaryTime where
  negative : Bool
  days : UInt32
  hour : UInt8
  minute : UInt8
  second : UInt8
  microsecond : UInt32
  wireLength : UInt8
  deriving DecidableEq

inductive BinaryData
  | null
  | sint64 (value : Int64)
  | uint64 (value : UInt64)
  | double (bits : UInt64)
  | bytes (bytes : Bytes)
  | datetime (value : BinaryDatetime)
  | time (value : BinaryTime)
  deriving DecidableEq

structure BinaryValue where
  mysqlType : UInt8
  data : BinaryData
  deriving DecidableEq

def rowSignExtend (raw : UInt64) (bits : Nat) : Int64 :=
  if bits = 64 then
    if raw ≤ 0x7FFFFFFFFFFFFFFF then raw.toInt64
    else if raw = 0x8000000000000000 then Int64.minValue
    else -(~~~raw + 1).toInt64
  else
    let sign : UInt64 := 1 <<< UInt64.ofNat (bits - 1)
    let mask : UInt64 := (1 <<< UInt64.ofNat bits) - 1
    let raw := raw &&& mask
    if raw &&& sign = 0 then raw.toInt64 else -((~~~raw &&& mask) + 1).toInt64

def rowDecodeInteger (column : ColumnDefinition) (width : Nat) (input : Bytes) :
    Except WireStatus (BinaryData × Bytes) := do
  let (raw, rest) ← readLe width input
  pure (if column.flags &&& columnFlagUnsigned ≠ 0 then .uint64 raw
    else .sint64 (rowSignExtend raw (width * 8)), rest)

/-- The binary64 pattern of a binary32 pattern; a NaN becomes a quiet one. -/
def widenFloat (bits : UInt32) : UInt64 :=
  if floatFinite bits then doubleOfFloat bits
  else
    let fraction := (bits &&& 0x7FFFFF).toUInt64
    let quiet : UInt64 := if fraction = 0 then 0 else 0x0008000000000000
    let infinity : UInt64 := 0x7FF0000000000000
    ((bits >>> 31).toUInt64 <<< 63) ||| infinity ||| (fraction <<< 29) ||| quiet

def rowDecodeFloat (input : Bytes) : Except WireStatus (BinaryData × Bytes) := do
  let (raw, rest) ← readU32Le input
  pure (.double (widenFloat raw), rest)

def rowDecodeDouble (input : Bytes) : Except WireStatus (BinaryData × Bytes) := do
  let (raw, rest) ← readU64Le input
  pure (.double raw, rest)

def rowDecodeBytes (input : Bytes) : Except WireStatus (BinaryData × Bytes) := do
  let (bytes, rest) ← readLenencBytes input
  let bytes ← given bytes .invalid
  pure (.bytes bytes, rest)

def readBytes (count : Nat) (input : Bytes) : Except WireStatus (Bytes × Bytes) := do
  reject (input.length < count) .needMore
  pure (input.take count, input.drop count)

def readPresent {α : Type} (present : Bool) (absent : α)
    (read : Bytes → Except WireStatus (α × Bytes)) (input : Bytes) :
    Except WireStatus (α × Bytes) :=
  if present then read input else pure (absent, input)

def rowValidDatetime (value : BinaryDatetime) (dateOnly : Bool) : Bool :=
  if value.month > 12 ∨ value.day > 31 ∨ value.microsecond > 999999 then false
  else if dateOnly then
    value.hour = 0 ∧ value.minute = 0 ∧ value.second = 0 ∧ value.microsecond = 0
  else value.hour ≤ 23 ∧ value.minute ≤ 59 ∧ value.second ≤ 59

def rowDecodeDatetime (dateOnly : Bool) (input : Bytes) :
    Except WireStatus (BinaryData × Bytes) := do
  let (length, rest) ← readBytes 1 input
  let length := length.getD 0 0
  if length = 0 then pure (.datetime ⟨0, 0, 0, 0, 0, 0, 0, length⟩, rest)
  else do
    reject (dateOnly = true ∧ length ≠ 4) .invalid
    reject (dateOnly = false ∧ length ≠ 4 ∧ length ≠ 7 ∧ length ≠ 11) .invalid
    let (year, rest) ← readU16Le rest
    let (day, rest) ← readBytes 2 rest
    let (clock, rest) ← readPresent (length ≥ 7) [] (readBytes 3) rest
    let (microsecond, rest) ← readPresent (length = 11) 0 readU32Le rest
    let value : BinaryDatetime := ⟨year, day.getD 0 0, day.getD 1 0, clock.getD 0 0,
      clock.getD 1 0, clock.getD 2 0, microsecond, length⟩
    reject (rowValidDatetime value dateOnly = false) .invalid
    pure (.datetime value, rest)

def rowDecodeTime (input : Bytes) : Except WireStatus (BinaryData × Bytes) := do
  let (length, rest) ← readBytes 1 input
  let length := length.getD 0 0
  if length = 0 then pure (.time ⟨false, 0, 0, 0, 0, 0, length⟩, rest)
  else do
    reject (length ≠ 8 ∧ length ≠ 12) .invalid
    let (negative, rest) ← readBytes 1 rest
    let negative := negative.getD 0 0
    reject (negative > 1) .invalid
    let (days, rest) ← readU32Le rest
    let (clock, rest) ← readBytes 3 rest
    let (microsecond, rest) ← readPresent (length = 12) 0 readU32Le rest
    let value : BinaryTime := ⟨negative ≠ 0, days, clock.getD 0 0, clock.getD 1 0,
      clock.getD 2 0, microsecond, length⟩
    reject (value.hour > 23 ∨ value.minute > 59 ∨ value.second > 59 ∨ value.microsecond > 999999)
      .invalid
    pure (.time value, rest)

def rowDecodeValue (column : ColumnDefinition) (input : Bytes) :
    Except WireStatus (BinaryData × Bytes) :=
  match fieldType column.type with
  | some .null => pure (.null, input)
  | some .tiny => rowDecodeInteger column 1 input
  | some .short | some .year => rowDecodeInteger column 2 input
  | some .long | some .int24 => rowDecodeInteger column 4 input
  | some .longlong => rowDecodeInteger column 8 input
  | some .float => rowDecodeFloat input
  | some .double => rowDecodeDouble input
  | some .date => rowDecodeDatetime true input
  | some .datetime | some .timestamp => rowDecodeDatetime false input
  | some .time => rowDecodeTime input
  | some _ => rowDecodeBytes input
  | none => throw .invalid

def rowDecodeValues (bitmap : Bytes) : Nat → List ColumnDefinition → Bytes →
    Except WireStatus (List BinaryValue × Bytes)
  | _, [], input => pure ([], input)
  | i, column :: columns, input => do
    let (data, input) ← readPresent (Bitmap.get bitmap (i + 2) = false) .null
      (rowDecodeValue column) input
    let (values, input) ← rowDecodeValues bitmap (i + 1) columns input
    pure (⟨column.type, data⟩ :: values, input)

def decodeBinaryRow (payload : Bytes) (columns : List ColumnDefinition) (valueCapacity : Nat) :
    Except WireStatus (List BinaryValue) := do
  reject (columns.length > valueCapacity) .limit
  reject (columns.length > sizeMax - 9) .limit
  let (header, rest) ← readBytes 1 payload
  reject (header ≠ [0]) .invalid
  let (bitmap, rest) ← readBytes ((columns.length + 9) / 8) rest
  let (values, rest) ← rowDecodeValues bitmap 0 columns rest
  reject (rest ≠ []) .invalid
  pure values

def textRowColumns : Nat → Bytes → Except WireStatus (List (Option Bytes) × Bytes)
  | 0, input => pure ([], input)
  | left + 1, input => do
    let (field, input) ← complete (readLenencBytes input)
    let (fields, input) ← textRowColumns left input
    pure (field :: fields, input)

def decodeTextRow (payload : Bytes) (columnCount outCapacity : Nat) :
    Except WireStatus (List (Option Bytes)) := do
  reject (columnCount = 0) .invalid
  reject (columnCount > outCapacity) .limit
  let (fields, rest) ← textRowColumns columnCount payload
  reject (rest ≠ []) .invalid
  pure fields

end TurboDb.Mysql
