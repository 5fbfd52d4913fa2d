import TurboDb.Schema
import TurboDb.Library.Format

/-!
Catalog records of secondary indexes.

A record holds a fixed header (magic, version, flags, the four identities and
the number of key parts), the index and table names, and one fixed-size entry
per key part. It is checked against the schema of its table before it is written
and after it is read, with the status chosen by the direction. The budget and the
ownership of the output are left out.
-/

namespace TurboDb.IndexRecord

open ByteOrder Wire Effect Format

def headerSize : Nat := 40

def partSize : Nat := 6

def nameLengths : Nat := 2

def magic : Bytes := [83, 73]

def wireInteger : UInt8 := 1

def wireReal : UInt8 := 2

def hasDouble (definition : IndexDefinition) : Bool :=
  definition.parts.any fun part => part.type.kind = .double

/-- The name is `PRIMARY` in any case. -/
def primaryName (name : Bytes) : Bool :=
  name.map (fun c => if 97 ≤ c ∧ c ≤ 122 then c - 97 + 65 else c) = [80, 82, 73, 77, 65, 82, 89]

def recordSchema (table : TableDefinition) : Bool := table.name ≠ [] && table.columns ≠ []

def matchesSchema (table : TableDefinition) (part : IndexPart) : Bool :=
  part.column < 2 ^ 32 && assignmentNumeric part.type.kind &&
    table.columns[part.column]?.any fun column => column.type = part.type

def recordValidate (record : IndexRecord) (table : TableDefinition) (invalid : Status) :
    Except Failure Unit := do
  let { definition, identity } := record
  reject (identity.tableId = 0 ∨ identity.tableGeneration = 0 ∨ identity.indexId = 0 ∨
      identity.generation = 0)
    ⟨invalid, "SQL index record requires nonzero identities and generations"⟩
  reject (¬NameValid definition.name ∨ primaryName definition.name = true ∨
      ¬NameValid definition.table)
    ⟨invalid, "SQL index record has an invalid index or table name"⟩
  reject (definition.table ≠ table.name)
    ⟨invalid, "SQL index record table does not match its Catalog schema"⟩
  reject (definition.parts = [] ∨ definition.parts.length > table.columns.length)
    ⟨invalid, "SQL index record has an invalid key part count"⟩
  definition.parts.zipIdx.forM fun (part, i) => do
    reject (matchesSchema table part = false)
      ⟨invalid, "SQL index record column type or ordinal does not match its Catalog schema"⟩
    (definition.parts.take i).forM fun other =>
      reject (part.column = other.column)
        ⟨invalid, "SQL index record has duplicate key columns"⟩

def recordWriteName (name : Bytes) : Bytes := UInt8.ofNat name.length :: name

def partKind (kind : Kind) : UInt8 :=
  if kind = .int64 then 1 else if kind = .double then 3 else 2

def partFlags (part : IndexPart) : UInt8 :=
  (if part.type.nullable then 1 else 0) ||| (if part.descending then 2 else 0)

def recordWritePart (part : IndexPart) : Bytes :=
  write 4 (UInt64.ofNat part.column) ++ [partKind part.type.kind, partFlags part]

def recordWriteHeader (record : IndexRecord) : Bytes :=
  magic ++ [if hasDouble record.definition then wireReal else wireInteger] ++
    [if record.definition.unique then 1 else 0] ++
    write 8 record.identity.tableId ++ write 8 record.identity.tableGeneration ++
    write 8 record.identity.indexId ++ write 8 record.identity.generation ++
    write 4 (UInt64.ofNat record.definition.parts.length)

def recordWrite (record : IndexRecord) : Bytes :=
  recordWriteHeader record ++ (recordWriteName record.definition.name ++
    (recordWriteName record.definition.table ++ record.definition.parts.flatMap recordWritePart))

def encode (record : IndexRecord) (table : TableDefinition) (maxBytes : Nat) :
    Except Failure Bytes := do
  reject (recordSchema table = false ∨ maxBytes = 0)
    ⟨.invalidArgument,
      "SQL index record encoding requires a definition, schema and empty output"⟩
  recordValidate record table .invalidArgument
  let { definition, .. } := record
  let header := headerSize + nameLengths + definition.name.length + definition.table.length
  let count := definition.parts.length
  reject (header > maxBytes ∨ count > 2 ^ 32 - 1 ∨ count > (maxBytes - header) / partSize)
    ⟨.limitExceeded, "SQL index record exceeds byte capacity"⟩
  return recordWrite record

def recordReadName : Bytes → Except Failure (Bytes × Bytes)
  | [] => throw ⟨.datastoreError, "SQL index record has a truncated name"⟩
  | length :: rest => do
    let count := length.toNat
    reject (count = 0 ∨ count > nameBytes ∨ count > rest.length)
      ⟨.datastoreError, "SQL index record has an invalid name length"⟩
    reject (¬NameValid (rest.take count))
      ⟨.datastoreError, "SQL index record has an invalid name"⟩
    return (rest.take count, rest.drop count)

def recordReadKind (kind : UInt8) : Kind :=
  if kind = 1 then .int64 else if kind = 3 then .double else .uint64

/-- One key part. The caller has checked that the parts fill the rest of the
record, so the last case does not arise. -/
def recordReadPart (version : UInt8) : Bytes → Except Failure (IndexPart × Bytes)
  | c₀ :: c₁ :: c₂ :: c₃ :: kind :: flags :: rest => do
    reject ((kind ≠ 1 ∧ kind ≠ 2 ∧ ¬(kind = 3 ∧ version = wireReal)) ∨
        flags &&& ~~~((1 : UInt8) ||| 2) ≠ 0)
      ⟨.datastoreError, "SQL index record has invalid key type or flags"⟩
    return ({ column := (read [c₀, c₁, c₂, c₃]).toNat
              type := ⟨recordReadKind kind, flags &&& 1 ≠ 0⟩
              descending := flags &&& 2 ≠ 0 }, rest)
  | _ => throw ⟨.datastoreError, "SQL index record has truncated or trailing key parts"⟩

def recordReadParts (version : UInt8) (count : Nat) (data : Bytes) :
    Except Failure (List IndexPart) := do
  reject (count > data.length / partSize ∨ count * partSize ≠ data.length)
    ⟨.datastoreError, "SQL index record has truncated or trailing key parts"⟩
  let (parts, _) ← parseList (fun _ => recordReadPart version) count [] data
  return parts

def decode (data : Bytes) (table : TableDefinition) (maxBytes : Nat) :
    Except Failure IndexRecord := do
  reject (recordSchema table = false ∨ maxBytes = 0)
    ⟨.invalidArgument, "SQL index record decoding requires bytes, schema and empty output"⟩
  reject (data.length > maxBytes)
    ⟨.limitExceeded, "SQL index record exceeds byte capacity"⟩
  reject (data.length < headerSize + nameLengths ∨ field data 0 2 ≠ magic)
    ⟨.datastoreError, "SQL index record has a truncated or invalid header"⟩
  let version := data.getD 2 0
  reject (version ≠ wireInteger ∧ version ≠ wireReal)
    ⟨.unsupported, "SQL index record has an unknown wire version"⟩
  let flags := data.getD 3 0
  let count := (read (field data 36 4)).toNat
  reject (flags &&& ~~~(1 : UInt8) ≠ 0 ∨ count = 0 ∨ count > table.columns.length ∨
      count > (data.length - headerSize - nameLengths) / partSize)
    ⟨.datastoreError, "SQL index record has invalid flags or key count"⟩
  let identity : IndexIdentity :=
    ⟨read (field data 4 8), read (field data 12 8), read (field data 20 8), read (field data 28 8)⟩
  let (name, rest) ← recordReadName (data.drop headerSize)
  let (tableName, rest) ← recordReadName rest
  let parts ← recordReadParts version count rest
  let record : IndexRecord := ⟨⟨name, tableName, flags &&& 1 ≠ 0, parts⟩, identity⟩
  reject (decide (version = wireReal) ≠ hasDouble record.definition)
    ⟨.datastoreError, "SQL index record version does not match key types"⟩
  recordValidate record table .datastoreError
  return record

end TurboDb.IndexRecord
