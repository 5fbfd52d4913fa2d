import TurboDb.Mysql.Wire
import TurboDb.Library.Bitmap
import TurboDb.Value

/-!
Commands and the parameters of a prepared statement.

The client writes an execute command from a list of values: a bitmap of the
NULLs, a type word for each value and the bytes of the values that are not NULL.
The server decodes the parameters with the type words it is sent or remembers. It
reads them twice, the first time without storing them, so that a rejected command
leaves the caller's arrays alone.
-/

namespace TurboDb.Mysql

open ByteOrder Effect

inductive FieldType
  | decimal | tiny | short | long | float | double | null | timestamp | longlong | int24 | date
  | time | datetime | year | varchar | bit | json | newdecimal | enum | set | tinyBlob
  | mediumBlob | longBlob | blob | varString | string | geometry
  deriving DecidableEq, Repr

def FieldType.code : FieldType → UInt8
  | .decimal => 0x00
  | .tiny => 0x01
  | .short => 0x02
  | .long => 0x03
  | .float => 0x04
  | .double => 0x05
  | .null => 0x06
  | .timestamp => 0x07
  | .longlong => 0x08
  | .int24 => 0x09
  | .date => 0x0A
  | .time => 0x0B
  | .datetime => 0x0C
  | .year => 0x0D
  | .varchar => 0x0F
  | .bit => 0x10
  | .json => 0xF5
  | .newdecimal => 0xF6
  | .enum => 0xF7
  | .set => 0xF8
  | .tinyBlob => 0xF9
  | .mediumBlob => 0xFA
  | .longBlob => 0xFB
  | .blob => 0xFC
  | .varString => 0xFD
  | .string => 0xFE
  | .geometry => 0xFF

def fieldTypes : List FieldType :=
  [.decimal, .tiny, .short, .long, .float, .double, .null, .timestamp, .longlong, .int24, .date,
    .time, .datetime, .year, .varchar, .bit, .json, .newdecimal, .enum, .set, .tinyBlob,
    .mediumBlob, .longBlob, .blob, .varString, .string, .geometry]

def fieldType (code : UInt8) : Option FieldType := fieldTypes.find? fun type => type.code = code

@[simp] theorem fieldType_code (type : FieldType) : fieldType type.code = some type := by
  cases type <;> rfl

def unsignedFlag : UInt8 := 0x80

inductive StmtValue
  | null
  | sint64 (value : Int64)
  | uint64 (value : UInt64)
  | double (bits : UInt64)
  | bool (value : UInt8)
  | text (bytes : Bytes)
  | blob (bytes : Bytes)
  deriving DecidableEq

def stmtValueType : StmtValue → Except WireStatus (FieldType × UInt8)
  | .null => pure (.null, 0)
  | .sint64 _ => pure (.longlong, 0)
  | .uint64 _ => pure (.longlong, unsignedFlag)
  | .double _ => pure (.double, 0)
  | .bool value => do
    reject (value > 1) .invalid
    pure (.tiny, 0)
  | .text _ => pure (.varString, 0)
  | .blob _ => pure (.blob, 0)

def stmtEmitLenencBytes (capacity : Nat) (out bytes : Bytes) : Except WireStatus Bytes := do
  let out ← writeLenencUint capacity out (UInt64.ofNat bytes.length)
  emitWithin capacity out bytes

def stmtEmitValue (capacity : Nat) (out : Bytes) : StmtValue → Except WireStatus Bytes
  | .null => pure out
  | .sint64 value => writeLe 8 capacity out value.toUInt64
  | .uint64 value => writeLe 8 capacity out value
  | .double bits => writeLe 8 capacity out bits
  | .bool value => emitWithin capacity out [value]
  | .text bytes | .blob bytes => stmtEmitLenencBytes capacity out bytes

/-- The type words; the NULL bits are patched into the bitmap written before. -/
def stmtEmitTypes (capacity bitmap : Nat) : Nat → Bytes → List StmtValue → Except WireStatus Bytes
  | _, out, [] => pure out
  | i, out, value :: values => do
    let (type, flags) ← stmtValueType value
    let out ← emitWithin capacity out [type.code]
    let out ← emitWithin capacity out [flags]
    let out := if value = .null then
      out.modify (bitmap + i / 8) (· ||| Bitmap.bit (i % 8)) else out
    stmtEmitTypes capacity bitmap (i + 1) out values

def stmtEmitValues (capacity : Nat) : Bytes → List StmtValue → Except WireStatus Bytes
  | out, [] => pure out
  | out, value :: values => do
    let out ← stmtEmitValue capacity out value
    stmtEmitValues capacity out values

def comStmtExecute : UInt8 := 0x17

def buildStmtExecute (statementId : UInt32) (values : List StmtValue) (capacity : Nat) :
    Except WireStatus Bytes := do
  reject (values.length > 0xFFFF) .limit
  let bitmapSize := (values.length + 7) / 8
  let out ← emitWithin capacity [] [comStmtExecute]
  let out ← writeLe 4 capacity out statementId.toUInt64
  let out ← emitWithin capacity out [0]
  let out ← writeLe 4 capacity out 1
  let bitmap := out.length
  let out ← emitWithin capacity out (List.replicate bitmapSize 0)
  if values.isEmpty then pure out
  else do
    let out ← emitWithin capacity out [1]
    let out ← stmtEmitTypes capacity bitmap 0 out values
    stmtEmitValues capacity out values

inductive CommandKind
  | quit | query | ping | stmtPrepare | stmtExecute | stmtClose | stmtReset
  deriving DecidableEq, Repr

def CommandKind.code : CommandKind → UInt8
  | .quit => 0x01
  | .query => 0x03
  | .ping => 0x0E
  | .stmtPrepare => 0x16
  | .stmtExecute => 0x17
  | .stmtClose => 0x19
  | .stmtReset => 0x1A

def commandKind (code : UInt8) : Option CommandKind :=
  [CommandKind.quit, .query, .ping, .stmtPrepare, .stmtExecute, .stmtClose, .stmtReset].find?
    fun kind => kind.code = code

structure Command where
  kind : CommandKind
  statementId : UInt32
  sql : Bytes
  payload : Bytes
  deriving DecidableEq

def executeHeader : Nat := 10

def statementCommand : Nat := 5

/-- A complete message cannot want more. -/
def complete {α : Type} (x : Except WireStatus α) : Except WireStatus α :=
  x.mapError fun status => if status = .needMore then .invalid else status

def commandStatement (rest : Bytes) : Except WireStatus (UInt32 × Bytes) := do
  let (statementId, rest) ← complete (readU32Le rest)
  reject (statementId = 0) .invalid
  pure (statementId, rest)

def commandExecute : Bytes → Except WireStatus Unit
  | [] => throw .invalid
  | flags :: rest => do
    reject (flags ≠ 0) .unsupported
    let (iterations, _) ← complete (readU32Le rest)
    reject (iterations ≠ 1) .invalid

def commandDecode (data : Bytes) (maxBytes : Nat) : Except WireStatus Command :=
  match data with
  | [] => throw .invalid
  | first :: rest => do
    reject (maxBytes = 0) .invalid
    reject (data.length > maxBytes) .limit
    match commandKind first with
    | none => throw .unsupported
    | some .query => do
      reject (rest = [] ∨ 0 ∈ rest) .invalid
      pure ⟨.query, 0, rest, data⟩
    | some .stmtPrepare => do
      reject (rest = [] ∨ 0 ∈ rest) .invalid
      pure ⟨.stmtPrepare, 0, rest, data⟩
    | some .ping => do
      reject (data.length ≠ 1) .invalid
      pure ⟨.ping, 0, [], data⟩
    | some .quit => do
      reject (data.length ≠ 1) .invalid
      pure ⟨.quit, 0, [], data⟩
    | some .stmtExecute => do
      reject (data.length < executeHeader) .invalid
      let (statementId, rest) ← commandStatement rest
      commandExecute rest
      pure ⟨.stmtExecute, statementId, [], data⟩
    | some .stmtClose => do
      reject (data.length < statementCommand) .invalid
      let (statementId, _) ← commandStatement rest
      reject (data.length ≠ statementCommand) .invalid
      pure ⟨.stmtClose, statementId, [], data⟩
    | some .stmtReset => do
      reject (data.length < statementCommand) .invalid
      let (statementId, _) ← commandStatement rest
      reject (data.length ≠ statementCommand) .invalid
      pure ⟨.stmtReset, statementId, [], data⟩

/-- The low byte of a type word is the field type, the high byte its flags. -/
def parameterType (type : UInt16) : Except WireStatus Unit := do
  let flags := (type >>> 8).toUInt8
  reject (flags ≠ 0 ∧ flags ≠ unsignedFlag) .invalid
  match fieldType type.toUInt8 with
  | some .longlong | some .long | some .int24 | some .short | some .tiny => pure ()
  | some .double | some .float | some .null | some .varString | some .string | some .varchar
  | some .blob | some .tinyBlob | some .mediumBlob | some .longBlob => reject (flags ≠ 0) .invalid
  | _ => throw .unsupported

def floatFinite (bits : UInt32) : Bool := (bits >>> 23) &&& 0xFF ≠ 0xFF

def doubleOfFloat (bits : UInt32) : UInt64 :=
  let exponent := ((bits >>> 23) &&& 0xFF).toNat
  let fraction := (bits &&& 0x7FFFFF).toNat
  let magnitude :=
    if exponent ≠ 0 then (exponent + 896) * 2 ^ 52 + fraction * 2 ^ 29
    else if fraction = 0 then 0
    else
      let top := fraction.log2
      (top + 874) * 2 ^ 52 + (fraction - 2 ^ top) * 2 ^ (52 - top)
  UInt64.ofNat magnitude ||| ((bits >>> 31).toUInt64 <<< 63)

/-- A parameter that is not marked NULL, the text and blob bytes retained so far
with its own, and the input behind it. -/
def parameterValue (type : UInt16) (retained maxBytes : Nat) (input : Bytes) :
    Except WireStatus (Value × Nat × Bytes) :=
  let unsigned : Bool := type >>> 8 ≠ 0
  let kind := fieldType type.toUInt8
  match kind with
  | some .null => pure (.null, retained, input)
  | some .longlong => do
    let (word, rest) ← complete (readU64Le input)
    pure (if unsigned then .uint64 word else .int64 word.toInt64, retained, rest)
  | some .long | some .int24 => do
    let (small, rest) ← complete (readU32Le input)
    pure (if unsigned then .uint64 small.toUInt64 else .int64 small.toInt32.toInt64, retained, rest)
  | some .short => do
    let (word, rest) ← complete (readU16Le input)
    pure (if unsigned then .uint64 word.toUInt64 else .int64 word.toInt16.toInt64, retained, rest)
  | some .tiny =>
    match input with
    | [] => throw .invalid
    | byte :: rest =>
      pure (if byte ≤ 1 ∧ unsigned = false then .boolean byte
        else if unsigned then .uint64 byte.toUInt64 else .int64 byte.toInt8.toInt64,
        retained, rest)
  | some .double => do
    let (word, rest) ← complete (readU64Le input)
    reject (Wire.isFinite word = false) .invalid
    pure (.double word, retained, rest)
  | some .float => do
    let (small, rest) ← complete (readU32Le input)
    reject (floatFinite small = false) .invalid
    pure (.double (doubleOfFloat small), retained, rest)
  | _ => do
    let (bytes, rest) ← complete (readLenencBytes input)
    let bytes ← given bytes .invalid
    reject (retained > maxBytes ∨ bytes.length > maxBytes - retained) .limit
    let text : Bool := kind = some .varString || kind = some .string || kind = some .varchar
    pure (if text then .text bytes else .blob bytes, retained + bytes.length, rest)

structure ExecuteLayout where
  bitmap : Nat
  types : Nat
  values : Nat
  newTypes : Bool
  deriving DecidableEq

def executeLayoutOpen (data : Bytes) (count : Nat) (valid : Bool) :
    Except WireStatus ExecuteLayout := do
  if count = 0 then do
    reject (data.length ≠ executeHeader) .invalid
    pure ⟨0, 0, 0, false⟩
  else do
    let bitmap := (count + 7) / 8
    reject (data.length < executeHeader ∨ bitmap ≥ data.length - executeHeader) .invalid
    reject (count % 8 ≠ 0 ∧
      data.getD (executeHeader + bitmap - 1) 0 >>> UInt8.ofNat (count % 8) ≠ 0) .invalid
    let newTypes := data.getD (executeHeader + bitmap) 0
    let offset := executeHeader + bitmap + 1
    reject (newTypes > 1) .invalid
    reject (newTypes = 0 ∧ valid = false) .invalid
    if newTypes ≠ 0 then do
      reject (count > (data.length - offset) / 2) .invalid
      pure ⟨executeHeader, offset, offset + count * 2, true⟩
    else pure ⟨executeHeader, offset, offset, false⟩

def executeType (data : Bytes) (layout : ExecuteLayout) (types : List UInt16) (index : Nat) :
    UInt16 :=
  if layout.newTypes = false then types.getD index 0
  else
    (data.getD (layout.types + index * 2) 0).toUInt16 |||
      (data.getD (layout.types + index * 2 + 1) 0).toUInt16 <<< 8

/-- The caller's arrays: the remembered types, their validity and the values. -/
structure ExecuteCache where
  types : List UInt16
  valid : Bool
  values : List Value
  deriving DecidableEq

/-- One pass over the parameters, `left` of them from `index` on; it hands back
the input behind them. -/
def executeLoop (data : Bytes) (types : List UInt16) (layout : ExecuteLayout) (store : Bool)
    (maxBytes : Nat) : Nat → Nat → Nat → Bytes → EStateM WireStatus ExecuteCache Bytes
  | 0, _, _, input => pure input
  | left + 1, index, retained, input => do
    let type := executeType data layout types index
    attempt (parameterType type)
    let (value, retained, input) ← attempt
      (if Bitmap.get (data.drop layout.bitmap) index then pure (.null, retained, input)
      else parameterValue type retained maxBytes input)
    if store then modify fun cache => { cache with values := cache.values.set index value }
    executeLoop data types layout store maxBytes left (index + 1) retained input

def executeValues (data : Bytes) (count : Nat) (types : List UInt16) (layout : ExecuteLayout)
    (store : Bool) (maxBytes : Nat) : EStateM WireStatus ExecuteCache Unit := do
  let rest ← executeLoop data types layout store maxBytes count 0 0 (data.drop layout.values)
  reject (rest ≠ []) .invalid

def executeTypes (data : Bytes) (count : Nat) (layout : ExecuteLayout) (types : List UInt16) :
    List UInt16 :=
  if layout.newTypes then
    (List.range count).foldl
      (fun types index => types.set index (executeType data layout types index)) types
  else types

def executeDecode (command : Command) (count maxBytes : Nat) :
    EStateM WireStatus ExecuteCache Unit := do
  reject (maxBytes = 0) .invalid
  let cache ← get
  reject (count > 0xFFFF ∨ count > cache.types.length ∨ count > cache.values.length) .limit
  let verified ← attempt (commandDecode command.payload command.payload.length)
  reject (verified.kind ≠ .stmtExecute ∨ verified.statementId ≠ command.statementId) .invalid
  let layout ← attempt (executeLayoutOpen command.payload count cache.valid)
  if count = 0 then pure ()
  else do
    executeValues command.payload count cache.types layout false maxBytes
    executeValues command.payload count cache.types layout true maxBytes
    modify fun cache => { cache with
      types := executeTypes command.payload count layout cache.types
      valid := true }

end TurboDb.Mysql
