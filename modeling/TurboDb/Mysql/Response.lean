import TurboDb.Mysql.Packet
import TurboDb.Mysql.Statement
import TurboDb.Library.Decimal

/-!
Payloads of the server's replies.

A writer keeps what it wrote, or only the size when it measures, and latches the
first status that is not `ok`. Every payload is measured within the capacity of
the output and then written into it if there is one. A binary row begins with a
bitmap of its NULLs, written as zeros and patched while the values follow.
-/

namespace TurboDb.Mysql

open ByteOrder Effect

structure Writer where
  data : Option Bytes
  size : Nat
  capacity : Nat
  status : WireStatus
  deriving DecidableEq

namespace Writer

def emit (w : Writer) (data : Bytes) : Writer :=
  if w.status ≠ .ok then w
  else if w.size > w.capacity then { w with status := .invalid }
  else if data.length > w.capacity - w.size then { w with status := .limit }
  else { w with data := w.data.map (· ++ data), size := w.size + data.length }

def integer (w : Writer) (value : UInt64) (width : Nat) : Writer := w.emit (Wire.write width value)

def lenenc (w : Writer) (value : UInt64) : Writer := w.emit (lenencUint value)

/-- A byte string; `none` is a NULL view. -/
def bytes (w : Writer) (value : Option Bytes) : Writer :=
  match value with
  | none => { w with status := .invalid }
  | some value => (w.lenenc (UInt64.ofNat value.length)).emit value

def fail (w : Writer) (status : WireStatus) : Writer := { w with status }

end Writer

def serverInTrans : UInt16 := 0x0001

def serverAutocommit : UInt16 := 0x0002

def serverInTransReadonly : UInt16 := 0x2000

def statusFlags (flags : UInt16) : WireStatus :=
  if flags &&& ~~~(serverInTrans ||| serverAutocommit ||| serverInTransReadonly) ≠ 0 then
    .unsupported
  else if flags &&& serverInTransReadonly ≠ 0 ∧ flags &&& serverInTrans = 0 then .invalid
  else .ok

structure OkPacket where
  header : UInt8
  affectedRows : UInt64
  lastInsertId : UInt64
  statusFlags : UInt16
  warnings : UInt16
  info : Option Bytes
  sessionState : Bytes
  deriving DecidableEq

structure EofPacket where
  warnings : UInt16
  statusFlags : UInt16
  deriving DecidableEq

structure PrepareOk where
  statementId : UInt32
  columnCount : UInt16
  parameterCount : UInt16
  warningCount : UInt16
  deriving DecidableEq

structure ColumnDefinition where
  catalog : Option Bytes
  schema : Option Bytes
  table : Option Bytes
  orgTable : Option Bytes
  name : Option Bytes
  orgName : Option Bytes
  characterSet : UInt16
  columnLength : UInt32
  type : UInt8
  flags : UInt16
  decimals : UInt8
  deriving DecidableEq

def responseEofMarker : UInt8 := 0xFE

def responseErrMarker : UInt8 := 0xFF

def responseNullMarker : UInt8 := 0xFB

def responseColumnFixed : UInt64 := 12

def responseNumberBytes : Nat := 64

def responseBinaryOffset : Nat := 2

def errmsgMax : Nat := 512

def okWrite (w : Writer) (packet : OkPacket) (deprecated : Bool) : Writer :=
  if packet.header ≠ 0 ∧ packet.header ≠ responseEofMarker then w.fail .invalid
  else if packet.header = responseEofMarker ∧ deprecated = false ∨ packet.sessionState ≠ [] then
    w.fail .unsupported
  else
    let w := w.fail (statusFlags packet.statusFlags)
    let w := w.integer packet.header.toUInt64 1
    let w := w.lenenc packet.affectedRows
    let w := w.lenenc packet.lastInsertId
    let w := w.integer packet.statusFlags.toUInt64 2
    let w := w.integer packet.warnings.toUInt64 2
    match packet.info with
    | none => w.fail .invalid
    | some info => w.emit info

def columnWrite (w : Writer) (column : ColumnDefinition) : Writer :=
  match fieldType column.type with
  | some .tiny | some .double | some .null | some .longlong | some .blob | some .varString =>
    let w := [column.catalog, column.schema, column.table, column.orgTable, column.name,
      column.orgName].foldl Writer.bytes w
    let w := w.integer responseColumnFixed 1
    let w := w.integer column.characterSet.toUInt64 2
    let w := w.integer column.columnLength.toUInt64 4
    let w := w.integer column.type.toUInt64 1
    let w := w.integer column.flags.toUInt64 2
    let w := w.integer column.decimals.toUInt64 1
    w.integer 0 2
  | _ => w.fail .unsupported

def valueCheck : Value → WireStatus
  | .null | .int64 _ | .uint64 _ | .text _ | .blob _ => .ok
  | .double bits => if Wire.isFinite bits then .ok else .invalid
  | .boolean value => if value ≤ 1 then .ok else .invalid
  | .malformed _ => .invalid

/-- What the C library prints: the decimal point and the text of a binary64. -/
structure Locale where
  decimalPoint : Bytes
  double : UInt64 → Bytes

def integerText (value : Int64) : Bytes :=
  if value < 0 then 45 :: Decimal.numeral value.toInt.natAbs else Decimal.numeral value.toInt.natAbs

def numberText (text : Bytes) : Except WireStatus Bytes := do
  reject (text.length ≥ responseNumberBytes) .limit
  pure text

def textValue (locale : Locale) : Value → Except WireStatus Bytes
  | .text bytes => pure bytes
  | .blob bytes => pure bytes
  | .int64 value => numberText (integerText value)
  | .uint64 value => numberText (Decimal.numeral value.toNat)
  | .boolean value => numberText [if value ≠ 0 then 49 else 48]
  | .double bits => do
    reject (locale.decimalPoint ≠ [46]) .unsupported
    numberText (locale.double bits)
  | .null | .malformed _ => throw .invalid

def rowText (locale : Locale) (w : Writer) (value : Value) : Writer :=
  match value with
  | .null => w.integer responseNullMarker.toUInt64 1
  | value =>
    match textValue locale value with
    | .ok text => w.bytes (some text)
    | .error status => w.fail status

/-- The bit of a NULL is patched into the bitmap when there is one. -/
def Writer.patch (w : Writer) (bitmap i : Nat) : Writer :=
  { w with data := w.data.map fun data => data.modify (bitmap + i / 8) (· ||| Bitmap.bit (i % 8)) }

def rowBinary (bitmap i : Nat) (w : Writer) : Value → Writer
  | .null => w.patch bitmap (i + responseBinaryOffset)
  | .int64 value => w.integer value.toUInt64 8
  | .uint64 value => w.integer value 8
  | .double bits => w.integer bits 8
  | .boolean value => w.integer value.toUInt64 1
  | .text bytes | .blob bytes => w.bytes (some bytes)
  | .malformed _ => w.fail .unsupported

def rowLoop (locale : Locale) (binary : Bool) (bitmap : Nat) : Nat → List Value → Writer → Writer
  | _, [], w => w
  | i, value :: values, w =>
    if w.status ≠ .ok then w
    else if valueCheck value ≠ .ok then w.fail (valueCheck value)
    else rowLoop locale binary bitmap (i + 1) values
      (if binary then rowBinary bitmap i w value else rowText locale w value)

def rowBitmap : Nat → Writer → Writer
  | 0, w => w
  | left + 1, w => rowBitmap left (w.integer 0 1)

def rowWrite (locale : Locale) (w : Writer) (values : List Value) (binary : Bool) : Writer :=
  if values = [] then w.fail .invalid
  else if values.length > 0xFFFF then w.fail .limit
  else if binary then
    let w := w.integer 0 1
    rowLoop locale true w.size 0 values
      (rowBitmap ((values.length + 8 - 1 + responseBinaryOffset) / 8) w)
  else rowLoop locale false 0 0 values w

inductive Response
  | ok (packet : OkPacket) (deprecated : Bool)
  | err (code : UInt16) (sqlstate : Bytes) (message : Option Bytes)
  | eof (packet : EofPacket)
  | prepare (packet : PrepareOk)
  | column (definition : ColumnDefinition)
  | count (count : Nat)
  | row (values : List Value) (binary : Bool)
  deriving DecidableEq

def sqlstateByte (byte : UInt8) : Bool := (65 ≤ byte && byte ≤ 90) || (48 ≤ byte && byte ≤ 57)

def errWrite (w : Writer) (code : UInt16) (sqlstate : Bytes) (message : Option Bytes) : Writer :=
  match message with
  | none => w.fail .invalid
  | some message =>
    if code = 0 then w.fail .invalid
    else if message.length > errmsgMax then w.fail .limit
    else if sqlstate.all sqlstateByte = false then w.fail .invalid
    else
      let w := w.integer responseErrMarker.toUInt64 1
      let w := w.integer code.toUInt64 2
      let w := w.integer 35 1
      let w := w.emit sqlstate
      w.emit message

def eofWrite (w : Writer) (packet : EofPacket) : Writer :=
  let w := w.fail (statusFlags packet.statusFlags)
  let w := w.integer responseEofMarker.toUInt64 1
  let w := w.integer packet.warnings.toUInt64 2
  w.integer packet.statusFlags.toUInt64 2

def prepareWrite (w : Writer) (packet : PrepareOk) : Writer :=
  if packet.statementId = 0 then w.fail .invalid
  else
    let w := w.integer 0 1
    let w := w.integer packet.statementId.toUInt64 4
    let w := w.integer packet.columnCount.toUInt64 2
    let w := w.integer packet.parameterCount.toUInt64 2
    let w := w.integer 0 1
    w.integer packet.warningCount.toUInt64 2

def countWrite (w : Writer) (count : Nat) : Writer :=
  if count = 0 then w.fail .invalid
  else if count > 0xFFFF then w.fail .limit
  else w.lenenc (UInt64.ofNat count)

def responseWrite (locale : Locale) (r : Response) (w : Writer) : Writer :=
  match r with
  | .ok packet deprecated => okWrite w packet deprecated
  | .err code sqlstate message => errWrite w code sqlstate message
  | .eof packet => eofWrite w packet
  | .prepare packet => prepareWrite w packet
  | .column definition => columnWrite w definition
  | .count count => countWrite w count
  | .row values binary => rowWrite locale w values binary

def responseEncode (locale : Locale) (r : Response) (out : Output) : Except WireStatus Output := do
  let measure := responseWrite locale r ⟨none, 0, out.capacity, .ok⟩
  reject (measure.status ≠ .ok) measure.status
  match out.data with
  | none => pure { out with size := measure.size }
  | some _ => do
    let output := responseWrite locale r ⟨some [], 0, out.capacity, .ok⟩
    reject (output.status ≠ .ok) output.status
    pure { out with data := output.data, size := measure.size }

def rowEncode (locale : Locale) (values : List Value) (binary : Bool) (out : Output) :
    Except WireStatus Output :=
  responseEncode locale (.row values binary) out

/-- A column as the engine describes it; `none` stands for a name without data
or a kind outside the list. -/
structure Column where
  name : Option Bytes
  kind : Option Kind
  nullable : Bool
  deriving DecidableEq

def dispatchBinaryCharset : UInt16 := 63

def dispatchNotNull : UInt16 := 1

def dispatchBinaryFlag : UInt16 := 128

def columnFlagUnsigned : UInt16 := 0x20

/-- The wire form of a column: its type, display length, further flags and decimals. -/
def dispatchColumnKind (capacity : Nat) : Kind → FieldType × UInt32 × UInt16 × UInt8
  | .null => (.null, 0, 0, 0)
  | .int64 => (.longlong, 20, 0, 0)
  | .uint64 => (.longlong, 20, columnFlagUnsigned, 0)
  | .double => (.double, 24, 0, 31)
  | .boolean => (.tiny, 1, 0, 0)
  | .text => (.varString, UInt32.ofNat capacity, 0, 0)
  | .blob => (.blob, UInt32.ofNat capacity, dispatchBinaryFlag, 0)

def dispatchColumn (capacity : Nat) (source : Option Column) :
    Except Failure ColumnDefinition := do
  let source ← given source ⟨.internalError, "MySQL dispatch: invalid SDK metadata"⟩
  let name ← given source.name ⟨.internalError, "MySQL dispatch: invalid SDK metadata"⟩
  let kind ← given source.kind
    ⟨.unsupported, "MySQL dispatch: SDK type has no wire representation"⟩
  let (type, columnLength, flags, decimals) := dispatchColumnKind capacity kind
  pure ⟨some (Decimal.ascii "def"), some [], some [], some [], some name, some [],
    dispatchBinaryCharset, columnLength, type.code,
    (if source.nullable then 0 else dispatchNotNull) ||| flags, decimals⟩

end TurboDb.Mysql
