import TurboDb.Redis.Script

/-!
The four scripts that keep a replicated journal in Redis.

Applying a batch stores the payload and the identity of every new record in two
hashes, appends one event for it to a stream and at last moves the applied index
in the metadata. Compacting removes a range of payloads and identities above the
journal floor once a snapshot covers it. Reconciling either reads what it would
find.

The loops run over the arguments, four to a record. An early return of a script is
an `Except.error` of the part it returns from.
-/

namespace TurboDb.Redis

open ByteOrder Decimal Keyspace Effect

structure BatchRecord where
  index : UInt64
  term : UInt64
  commandId : Bytes
  payload : Bytes
  deriving DecidableEq

structure BatchKeys where
  metadata : Bytes
  journal : Bytes
  identity : Bytes
  outbox : Bytes
  deriving DecidableEq

structure BatchRequest where
  keys : BatchKeys
  records : List BatchRecord
  deriving DecidableEq

def maxRecords : Nat := 1024

def BatchKeys.tagged (keys : BatchKeys) : Bool :=
  match luaApplyTag keys.metadata, luaApplyTag keys.journal, luaApplyTag keys.identity,
    luaApplyTag keys.outbox with
  | some metadata, some journal, some identity, some outbox =>
    metadata = journal && metadata = identity && metadata = outbox
  | _, _, _, _ => false

/-- Every index is one more than that of the record before. -/
def contiguous : List BatchRecord → Bool
  | first :: second :: rest =>
    first.index.toNat ≠ 2 ^ 64 - 1 && second.index = first.index + 1 && contiguous (second :: rest)
  | _ => true

def BatchRecord.valid (record : BatchRecord) : Bool :=
  record.index ≠ 0 && record.term ≠ 0 && record.commandId ≠ []

def luaApplyBatchValidate (request : BatchRequest) : Bool :=
  request.records ≠ [] && request.records.length ≤ maxRecords && request.keys.tagged &&
    request.records.all BatchRecord.valid && contiguous request.records

def BatchRecord.arguments (record : BatchRecord) : List Bytes :=
  [numeral record.index.toNat, numeral record.term.toNat, record.commandId, record.payload]

def batchArguments (records : List BatchRecord) : List Bytes := records.flatMap BatchRecord.arguments

def identityText (term commandId : Bytes) : Bytes := term ++ 0 :: commandId

def eventFields (index term commandId payload : Bytes) : List Bytes :=
  [ascii "index", index, ascii "term", term, ascii "command_id", commandId, ascii "payload", payload]

def eventId (index : Bytes) : Bytes := index ++ ascii "-0"

def eventMatches (event : Bytes × List Bytes) (index term commandId payload : Bytes) : Bool :=
  event.1 = eventId index && event.2 = eventFields index term commandId payload

section Scripts

variable (keys : BatchKeys)

def keysTyped : Script Bool := do
  return (← keyTypeIs keys.metadata .hash) && (← keyTypeIs keys.journal .hash) &&
    (← keyTypeIs keys.identity .hash) && (← keyTypeIs keys.outbox .stream)

def metadataNumber (name : String) : Script Bytes := do
  return (← hget keys.metadata (ascii name)).getD (ascii "0")

def checkRecords : Option Bytes → List Bytes → Except Receipt Unit
  | previous, index :: term :: commandId :: _ :: rest => do
    reject (validU64 index = false ∨ index = ascii "0" ∨ validU64 term = false ∨
      term = ascii "0" ∨ commandId = []) ⟨.invalid, ascii "record"⟩
    reject (previous.any (fun previous => index ≠ decimalIncrement previous) = true)
      ⟨.invalid, ascii "range"⟩
    checkRecords (some index) rest
  | _, _ => .ok ()

/-- What both scripts of a batch do first; the applied index. -/
def batchBegin (arguments : List Bytes) : Script (Except Receipt Bytes) := do
  if arguments.length = 0 ∨ arguments.length % 4 ≠ 0 then
    return .error ⟨.invalid, ascii "arguments"⟩
  if !(← keysTyped keys) then return .error ⟨.invalid, ascii "key_type"⟩
  let applied ← metadataNumber keys "applied_index"
  if !validU64 applied then return .error ⟨.invalid, ascii "applied_index"⟩
  return (checkRecords none arguments).map fun _ => applied

/-- The loop that looks for conflicts; which indexes have an event already. -/
def prepareRecords (applied : Bytes) : List Bytes → Script (Except Receipt (List (Bytes × Bool)))
  | index :: term :: commandId :: payload :: rest => do
    let identity ← hget keys.identity index
    let stored ← hget keys.journal index
    let event ← xrange keys.outbox (eventId index) (eventId index)
    if identity.any (· ≠ identityText term commandId) || stored.any (· ≠ payload) ||
        event.length ≠ 0 && (event.length ≠ 1 ||
          event.any fun event => !eventMatches event index term commandId payload) then
      return .error ⟨.conflict, applied⟩
    let prepared ← prepareRecords applied rest
    return prepared.map fun prepared => (index, decide (event.length = 1)) :: prepared
  | _ => return .ok []

structure Progress where
  cursor : Bytes
  final : Option (Bytes × Bytes)

def recordStored (index term commandId payload : Bytes) : Script Bool := do
  let identity ← hget keys.identity index
  let stored ← hget keys.journal index
  return identity = some (identityText term commandId) && stored = some payload

def applyRecords (applied : Bytes) (prepared : List (Bytes × Bool)) :
    Progress → List Bytes → Script (Except Receipt Progress)
  | progress, index :: term :: commandId :: payload :: rest =>
    if (decimalCompare index applied).isLE then do
      if !(← recordStored keys index term commandId payload) then
        return .error ⟨.conflict, applied⟩
      applyRecords applied prepared progress rest
    else if index ≠ decimalIncrement progress.cursor then return .error ⟨.gap, applied⟩
    else do
      hset keys.journal [(index, payload)]
      hset keys.identity [(index, identityText term commandId)]
      if !(prepared.lookup index).getD false then
        xadd keys.outbox (eventId index) (eventFields index term commandId payload)
      applyRecords applied prepared ⟨index, some (term, commandId)⟩ rest
  | progress, _ => return .ok progress

def luaApplyBatch (arguments : List Bytes) : Script Receipt := do
  match ← batchBegin keys arguments with
  | .error refused => return refused
  | .ok applied =>
    match ← prepareRecords keys applied arguments with
    | .error refused => return refused
    | .ok prepared =>
      match ← applyRecords keys applied prepared ⟨applied, none⟩ arguments with
      | .error refused => return refused
      | .ok ⟨cursor, some (term, commandId)⟩ => do
        hset keys.metadata [(ascii "applied_index", cursor), (ascii "term", term),
          (ascii "command_id", commandId)]
        return ⟨.applied, cursor⟩
      | .ok ⟨_, none⟩ => return ⟨.replayed, applied⟩

def reconcileRecords (applied : Bytes) : List Bytes → Script Receipt
  | index :: term :: commandId :: payload :: rest =>
    if (decimalCompare index applied).isLE then do
      if !(← recordStored keys index term commandId payload) then return ⟨.conflict, applied⟩
      reconcileRecords applied rest
    else if index ≠ decimalIncrement applied then return ⟨.gap, applied⟩
    else return ⟨.pending, applied⟩
  | _ => return ⟨.replayed, applied⟩

def luaApplyBatchReconcile (arguments : List Bytes) : Script Receipt := do
  match ← batchBegin keys arguments with
  | .error refused => return refused
  | .ok applied => reconcileRecords keys applied arguments

end Scripts

structure CompactRequest where
  keys : BatchKeys
  firstIndex : UInt64
  lastIndex : UInt64
  snapshotIndex : UInt64
  snapshotTerm : UInt64
  deriving DecidableEq

def luaApplyBatchCompactValidate (request : CompactRequest) : Bool :=
  request.firstIndex ≠ 0 && request.firstIndex ≤ request.lastIndex &&
    (request.lastIndex - request.firstIndex).toNat < maxRecords && request.snapshotIndex ≠ 0 &&
    request.snapshotTerm ≠ 0 && request.lastIndex ≤ request.snapshotIndex && request.keys.tagged

def CompactRequest.arguments (request : CompactRequest) : List Bytes :=
  [numeral request.firstIndex.toNat, numeral request.lastIndex.toNat,
    numeral request.snapshotIndex.toNat, numeral request.snapshotTerm.toNat, numeral maxRecords]

/-- The arguments of a compaction and the numbers it reads. -/
structure Compaction where
  first : Bytes
  last : Bytes
  snapshotIndex : Bytes
  snapshotTerm : Bytes
  maxRecords : Bytes
  applied : Bytes
  floor : Bytes

section Compact

variable (keys : BatchKeys)

def compactBegin : List Bytes → Script (Except Receipt Compaction)
  | [first, last, snapshotIndex, snapshotTerm, maxRecords] => do
    if !validU64 first || first = ascii "0" || !validU64 last || !validU64 snapshotIndex ||
        snapshotIndex = ascii "0" || !validU64 snapshotTerm || snapshotTerm = ascii "0" ||
        !validU64 maxRecords || maxRecords = ascii "0" || (decimalCompare last first).isLT ||
        (decimalCompare snapshotIndex last).isLT then
      return .error ⟨.conflict, ascii "0"⟩
    if !(← keysTyped keys) then return .error ⟨.conflict, ascii "0"⟩
    let applied ← metadataNumber keys "applied_index"
    let floor ← metadataNumber keys "journal_floor"
    if !validU64 applied || !validU64 floor then return .error ⟨.conflict, ascii "0"⟩
    return .ok ⟨first, last, snapshotIndex, snapshotTerm, maxRecords, applied, floor⟩
  | _ => return .error ⟨.conflict, ascii "0"⟩

/-- The range follows the floor and the snapshot is applied. -/
def Compaction.follows (c : Compaction) : Bool :=
  !(decimalCompare c.applied c.snapshotIndex).isLT && c.floor ≠ maxU64 &&
    c.first = decimalIncrement c.floor

def snapshotMatches (c : Compaction) : Script Bool := do
  let expected := c.snapshotTerm ++ [0]
  match ← hget keys.identity c.snapshotIndex with
  | none => return false
  | some identity =>
    return expected.length < identity.length && identity.take expected.length = expected

/-- One turn of the walk over the range; the rest of it where the range goes on. -/
def compactTurn (last floor cursor : Bytes) (fields : List Bytes)
    (next : Script (Except Receipt (List Bytes))) : Script (Except Receipt (List Bytes)) := do
  let payload ← hget keys.journal cursor
  let identity ← hget keys.identity cursor
  if payload.isNone || identity.isNone then return .error ⟨.gap, floor⟩
  if cursor = last then return .ok (fields ++ [cursor])
  next

/-- The walk over the range, with the number of records it may still add. -/
def compactWalk (last floor : Bytes) : Nat → Bytes → List Bytes →
    Script (Except Receipt (List Bytes))
  | 0, cursor, fields =>
    compactTurn keys last floor cursor fields (return .error ⟨.conflict, floor⟩)
  | remaining + 1, cursor, fields =>
    compactTurn keys last floor cursor fields <|
      if !validU64 (decimalIncrement cursor) then return .error ⟨.conflict, floor⟩
      else compactWalk last floor remaining (decimalIncrement cursor) (fields ++ [cursor])

/-- The checks of a compaction up to its first write; the fields to remove. -/
def compactCheck (c : Compaction) : Script (Except Receipt (List Bytes)) := do
  if !c.follows then return .error ⟨.gap, c.floor⟩
  if !(← snapshotMatches keys c) then return .error ⟨.conflict, c.floor⟩
  compactWalk keys c.last c.floor (value c.maxRecords - 1) c.first []

def luaApplyBatchCompact (arguments : List Bytes) : Script Receipt := do
  match ← compactBegin keys arguments with
  | .error refused => return refused
  | .ok c =>
    match ← compactCheck keys c with
    | .error refused => return refused
    | .ok fields => do
      hdel keys.journal fields
      hdel keys.identity fields
      hset keys.metadata [(ascii "journal_floor", c.last),
        (ascii "journal_compaction_first_index", c.first),
        (ascii "journal_compaction_snapshot_index", c.snapshotIndex),
        (ascii "journal_compaction_snapshot_term", c.snapshotTerm)]
      return ⟨.applied, c.last⟩

def luaApplyBatchCompactReconcile (arguments : List Bytes) : Script Receipt := do
  match ← compactBegin keys arguments with
  | .error refused => return refused
  | .ok c => do
    let first ← hget keys.metadata (ascii "journal_compaction_first_index")
    let snapshotIndex ← hget keys.metadata (ascii "journal_compaction_snapshot_index")
    let snapshotTerm ← hget keys.metadata (ascii "journal_compaction_snapshot_term")
    if c.floor = c.last then
      if first = some c.first && snapshotIndex = some c.snapshotIndex &&
          snapshotTerm = some c.snapshotTerm then
        return ⟨.replayed, c.last⟩
      return ⟨.conflict, c.floor⟩
    match ← compactCheck keys c with
    | .error refused => return refused
    | .ok _ => return ⟨.pending, c.floor⟩

end Compact

end TurboDb.Redis
