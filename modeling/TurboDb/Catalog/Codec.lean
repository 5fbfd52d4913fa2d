import TurboDb.Schema
import TurboDb.Library.Format

/-!
Schema records of tables.

A record holds a fixed header (magic, version, flags, column count and primary
key ordinal), the table name and one entry per column. Version one is written
without explicit defaults; version two adds a tag and a payload to every column.
Budget charges and the ownership of the output are left out.
-/

namespace TurboDb.Catalog

open ByteOrder Words Wire Effect Format

def headerSize : Nat := 12

def columnSize : Nat := 3

def defaultSize : Nat := 9

def magic : Bytes := [83, 67]

def wireFirst : UInt8 := 1

def wireCurrent : UInt8 := 2

def catalogError (status : Status) (reason : String) : Failure :=
  ⟨status, "TidesDB SQL CREATE TABLE at byte 0: " ++ reason⟩

/-- What the encoder demands of an explicit default. -/
def defaultValid (type : SqlType) : Value → Bool
  | .malformed _ => false
  | .null => type.nullable
  | .double bits => type.kind = .double && isFinite bits
  | value => value.kind = type.kind

def hasDefaults (columns : List Column) : Bool := columns.any fun column => column.default.isSome

def fixedSize (defaults : Bool) : Nat := columnSize + if defaults then defaultSize else 0

def wireSize (maxBytes : Nat) (defaults : Bool) : Nat → List Column → Except Failure Nat
  | size, [] => return size
  | size, column :: columns => do
    reject (assignmentNumeric column.type.kind = false)
      (catalogError .unsupported "column type has no schema wire representation")
    let extra := fixedSize defaults + column.name.length
    reject (extra > maxBytes - size)
      (catalogError .limitExceeded "schema wire capacity exceeded")
    wireSize maxBytes defaults (size + extra) columns

def wireKind (kind : Kind) : UInt8 :=
  if kind = .int64 then 1 else if kind = .uint64 then 2 else 3

def defaultTag : Option Value → UInt8
  | none => 0
  | some value => if value.kind = .null then 1 else 2

def defaultBits : Option Value → UInt64
  | some (.int64 v) => v.toUInt64
  | some (.uint64 v) => v
  | some (.double bits) => bits
  | _ => 0

def writeDefault (default : Option Value) : Bytes :=
  defaultTag default :: write 8 (defaultBits default)

def writeColumn (defaults : Bool) (column : Column) : Bytes :=
  UInt8.ofNat column.name.length :: wireKind column.type.kind ::
    (if column.type.nullable then 1 else 0) ::
    (column.name ++ if defaults then writeDefault column.default else [])

def writeHeader (version : UInt8) (table : TableDefinition) : Bytes :=
  magic ++ [version] ++ [0] ++ write 4 (UInt64.ofNat table.columns.length) ++
    write 4 (UInt64.ofNat table.primaryKey)

def writeRecord (defaults : Bool) (table : TableDefinition) : Bytes :=
  writeHeader (if defaults then wireCurrent else wireFirst) table ++
    UInt8.ofNat table.name.length ::
    (table.name ++ table.columns.flatMap (writeColumn defaults))

def encode (table : TableDefinition) (maxBytes : Nat) : Except Failure Bytes := do
  reject (maxBytes = 0) (catalogError .invalidArgument "invalid schema encoding arguments")
  let size := headerSize + 1 + table.name.length
  reject (table.columns.length > 2 ^ 32 - 1 ∨ size > maxBytes)
    (catalogError .limitExceeded "schema wire capacity exceeded")
  table.columns.forM fun column =>
    reject (column.default.any (fun value => !defaultValid column.type value) = true)
      (catalogError .typeError "invalid schema column default")
  let defaults := hasDefaults table.columns
  let _ ← wireSize maxBytes defaults size table.columns
  return writeRecord defaults table

def wireName (length : Nat) (data : Bytes) : Except Failure (Bytes × Bytes) := do
  reject (length > data.length) (catalogError .datastoreError "truncated schema name")
  reject (¬NameValid (data.take length))
    (catalogError .datastoreError "invalid persisted schema name")
  return (data.take length, data.drop length)

def signedBits (bits : UInt64) : Int64 :=
  if bits &&& sign ≠ 0 then Int64.minValue + (bits ^^^ sign).toInt64 else bits.toInt64

def defaultValue (kind : Kind) (tag : UInt8) (bits : UInt64) : Except Failure (Option Value) :=
  if tag = 0 then pure none
  else if tag = 1 then pure (some .null)
  else match kind with
    | .int64 => pure (some (.int64 (signedBits bits)))
    | .uint64 => pure (some (.uint64 bits))
    | _ => do
      reject (isFinite bits = false)
        (catalogError .datastoreError "nonfinite persisted column default")
      return some (.double bits)

def readDefault (type : SqlType) (data : Bytes) : Except Failure (Option Value × Bytes) := do
  reject (data.length < defaultSize)
    (catalogError .datastoreError "truncated schema column default")
  let tag := data.headD 0
  let bits := read (field data 1 8)
  reject (tag > 2 ∨ (tag ≠ 2 ∧ bits ≠ 0) ∨ (tag = 1 ∧ type.nullable = false))
    (catalogError .datastoreError "invalid persisted column default")
  let default ← defaultValue type.kind tag bits
  return (default, data.drop defaultSize)

def columnDefault (version : UInt8) (type : SqlType) (data : Bytes) :
    Except Failure (Option Value × Bytes) :=
  if version = wireCurrent then readDefault type data else pure (none, data)

def readKind (kind : UInt8) : Kind :=
  if kind = 1 then .int64 else if kind = 2 then .uint64 else .double

/-- The column after those already read, whose number is its ordinal. -/
def readColumn (version : UInt8) (key : Nat) (done : List Column) :
    Bytes → Except Failure (Column × Bytes)
  | length :: kind :: nullable :: data => do
    reject (kind < 1 ∨ kind > 3 ∨ nullable > 1 ∨
        (done.length = key ∧ (nullable ≠ 0 ∨ kind = 3)))
      (catalogError .datastoreError "invalid persisted column type or primary key")
    let (name, data) ← wireName length.toNat data
    done.forM fun other => reject (name = other.name)
      (catalogError .datastoreError "duplicate persisted column")
    let type : SqlType := ⟨readKind kind, nullable ≠ 0⟩
    let (default, data) ← columnDefault version type data
    return (⟨name, type, default⟩, data)
  | _ => throw (catalogError .datastoreError "truncated schema column")

def decode (data : Bytes) (maxBytes : Nat) : Except Failure TableDefinition := do
  reject (maxBytes = 0) (catalogError .invalidArgument "invalid schema decoding arguments")
  reject (data.length > maxBytes) (catalogError .limitExceeded "schema wire capacity exceeded")
  reject (data.length ≤ headerSize ∨ field data 0 2 ≠ magic)
    (catalogError .datastoreError "truncated or invalid schema header")
  let version := data.getD 2 0
  reject (version ≠ wireFirst ∧ version ≠ wireCurrent)
    (catalogError .unsupported "unknown schema wire version")
  reject (data.getD 3 0 ≠ 0) (catalogError .datastoreError "invalid schema flags")
  let count := (read (field data 4 4)).toNat
  let key := (read (field data 8 4)).toNat
  reject (count = 0 ∨ key ≥ count ∨
      count > (data.length - headerSize) / (fixedSize (version = wireCurrent) + 1))
    (catalogError .datastoreError "invalid schema column count or primary key")
  let (name, rest) ← wireName (data.getD headerSize 0).toNat (data.drop (headerSize + 1))
  let (columns, rest) ← parseList (readColumn version key) count [] rest
  reject (rest ≠ []) (catalogError .datastoreError "trailing schema bytes")
  return ⟨name, columns, key⟩

end TurboDb.Catalog
