import TurboDb.Mysql.Sdk

/-!
The registry of prepared statements.

A registry has a fixed number of slots. A prepared statement takes one of them,
with two vectors for its parameters that are charged to a quota. It is opened in
the engine before its vectors are known to fit, so that a prepare may have to close
what it opened; an engine that refuses to close leaves the registry in a failure
from which only disposal leads.
-/

namespace TurboDb.Mysql

open ByteOrder Effect

structure Vec (α : Type) where
  items : List α
  capacity : Nat
  deriving DecidableEq

def Vec.empty {α : Type} : Vec α := ⟨[], 0⟩

structure RegistryEntry where
  statement : Option Handle
  types : Vec UInt16
  values : Vec Value
  id : UInt32
  typesValid : Bool
  deriving DecidableEq

def RegistryEntry.empty : RegistryEntry := ⟨none, .empty, .empty, 0, false⟩

structure Limits where
  maxParameters : Nat
  maxColumns : Nat
  maxQueryBytes : Nat
  maxParameterBytes : Nat
  maxResultRows : UInt64
  maxResultBytes : UInt64
  deriving DecidableEq

structure RegistryConfig where
  maxStatements : Nat
  maxWireBytes : Nat
  maxCommandBytes : Nat
  limits : Limits
  deriving DecidableEq

structure Registry where
  connection : Bool
  config : RegistryConfig
  slots : Vec RegistryEntry
  lastId : UInt32
  failure : Status
  closing : Bool
  deriving DecidableEq

def Registry.zero : Registry :=
  ⟨false, ⟨0, 0, 0, ⟨0, 0, 0, 0, 0, 0⟩⟩, .empty, 0, .ok, false⟩

structure Sizes where
  pointer : Nat
  owner : Nat
  entry : Nat
  entryAlignment : Nat
  value : Nat
  valueAlignment : Nat

def registryError (status : Status) (reason : String) : Failure :=
  ⟨status, "MySQL registry: " ++ reason⟩

def registryStl (status : StlStatus) : Except Failure Unit :=
  match status with
  | .ok => pure ()
  | .outOfMemory => throw (registryError .outOfMemory "fixed vector allocation failed")
  | .capacityExceeded => throw (registryError .limitExceeded "fixed vector allocation failed")
  | .other => throw (registryError .internalError "fixed vector allocation failed")

def registryWireFailure (status : WireStatus) : Failure :=
  registryError
    (match status with
      | .limit => .limitExceeded
      | .unsupported => .unsupported
      | _ => .invalidArgument)
    "invalid or unsupported command payload"

def registryWire {α : Type} (x : Except WireStatus α) : Except Failure α :=
  x.mapError registryWireFailure

/-- The bytes requested for a vector, unless they exceed the range of a size. -/
def registryAllocation (sizes : Sizes) (count size alignment : Nat) : Option Nat :=
  if count = 0 then some 0
  else
    let metadata := sizes.pointer + alignment - 1
    if count > (sizeMax - metadata) / size then none else some (count * size + metadata)

def registryBytesLoop (sizes : Sizes) : List RegistryEntry → Nat → Option Nat
  | [], total => some total
  | entry :: entries, total => do
    let types ← registryAllocation sizes entry.types.capacity 2 2
    let values ← registryAllocation sizes entry.values.capacity sizes.value sizes.valueAlignment
    if types > sizeMax - total ∨ values > sizeMax - total - types then none
    else registryBytesLoop sizes entries (total + (types + values))

def registryBytes (sizes : Sizes) (r : Registry) : Option Nat := do
  let slots ← registryAllocation sizes r.slots.capacity sizes.entry sizes.entryAlignment
  if slots > sizeMax - sizes.owner then none
  else registryBytesLoop sizes r.slots.items (sizes.owner + slots)

def registryReady (r : Registry) : Except Failure Unit := do
  reject (r.connection = false)
    (registryError .invalidArgument "registry is not initialized")
  reject (r.failure ≠ .ok) (registryError r.failure "cleanup failed; close connection")
  reject (r.closing = true) (registryError .invalidState "registry is closing")

def registryFind (r : Registry) (id : UInt32) : Option Nat :=
  if id = 0 then none
  else r.slots.items.findIdx? fun entry => entry.statement.isSome && entry.id = id

def registryLookup (r : Registry) (id : UInt32) : Except Failure (Nat × Handle) := do
  registryReady r
  let i ← given (registryFind r id) (registryError .invalidArgument "unknown statement ID")
  let statement ← given (r.slots.items.getD i .empty).statement
    (registryError .invalidArgument "unknown statement ID")
  pure (i, statement)

def registryCommand (r : Registry) (command : Command) (kind : CommandKind) :
    Except Failure Command := do
  registryReady r
  reject (command.kind ≠ kind) (registryError .invalidArgument "unexpected command kind")
  let verified ← registryWire (commandDecode command.payload r.config.maxCommandBytes)
  reject (verified.kind ≠ kind ∨ verified.statementId ≠ command.statementId)
    (registryError .invalidArgument "command differs from its payload")
  pure verified

structure RegistryWorld (σ : Type) where
  registry : Registry
  env : Env σ

abbrev RegistryM (σ : Type) := EStateM Failure (RegistryWorld σ)

namespace RegistryWorld

variable {σ α : Type}

def lift (x : EStateM Failure (Env σ) α) : RegistryM σ α := fun w =>
  match x w.env with
  | .ok a env => .ok a { w with env }
  | .error e env => .error e { w with env }

def setEntry (w : RegistryWorld σ) (i : Nat) (entry : RegistryEntry) : RegistryWorld σ :=
  { w with registry.slots.items := w.registry.slots.items.set i entry }

def entry (w : RegistryWorld σ) (i : Nat) : RegistryEntry := w.registry.slots.items.getD i .empty

end RegistryWorld

variable {σ : Type} (sdk : Sdk σ) (sizes : Sizes)

/-- A vector of `count` zeros, as far as it was made. -/
def registryVector {α : Type} (zero : α) (count : Nat) (answer : VectorAnswer) :
    Vec α × Except Failure Unit :=
  if count = 0 then (.empty, pure ())
  else if answer.init ≠ .ok then (.empty, registryStl answer.init)
  else if answer.reserve ≠ .ok then (.empty, registryStl answer.reserve)
  else if answer.resize ≠ .ok then (⟨[], count⟩, registryStl answer.resize)
  else (⟨List.replicate count zero, count⟩, pure ())

/-- An answer of the allocator; it is not asked for an empty vector. -/
def registryVectorAnswer (count : Nat) : RegistryM σ VectorAnswer := fun w =>
  if count = 0 then .ok ⟨.ok, .ok, .ok⟩ w
  else
    let (answer, engine) := sdk.vector count w.env.engine
    .ok answer { w with env.engine := engine }

/-- Close the statement of a slot; an engine that is busy keeps it. -/
def registryEntryClose (i : Nat) : RegistryM σ Unit := fun w =>
  match (w.entry i).statement with
  | none => .ok () (w.setEntry i .empty)
  | some statement =>
    match Env.call (sdk.close statement) (.closed statement) w.env with
    | .ok _ env => .ok () ({ w with env }.setEntry i .empty)
    | .error e env =>
      if e.status = .busy then .error e { w with env }
      else
        let w := { w with env }.setEntry i .empty
        .error e (if w.registry.failure = .ok
          then { w with registry.failure := e.status } else w)

def registryInit (config : RegistryConfig) : RegistryM σ Unit := do
  let w ← get
  reject (w.registry.connection = true ∨ config.maxStatements = 0 ∨ config.maxWireBytes = 0 ∨
      config.maxCommandBytes = 0 ∨ config.limits.maxParameters = 0 ∨ config.limits.maxColumns = 0 ∨
      config.limits.maxQueryBytes = 0 ∨ config.limits.maxParameterBytes = 0 ∨
      config.limits.maxResultRows = 0 ∨ config.limits.maxResultBytes = 0)
    (registryError .invalidArgument "invalid configuration or occupied output")
  let full := registryError .limitExceeded "registry capacity exceeded"
  reject (config.maxStatements > 0xFFFFFFFF ∨ config.limits.maxParameters > 0xFFFF ∨
    config.limits.maxColumns > 0xFFFF) full
  let slots ← given
    (registryAllocation sizes config.maxStatements sizes.entry sizes.entryAlignment) full
  reject (slots > sizeMax - sizes.owner ∨ sizes.owner + slots > config.maxWireBytes) full
  let answer ← registryVectorAnswer sdk config.maxStatements
  let (slots, made) := registryVector RegistryEntry.empty config.maxStatements answer
  attempt made
  modify fun w => { w with registry := ⟨true, config, slots, 0, .ok, false⟩ }

/-- The quota and the vectors of a statement that is open in slot `i`. -/
def registryCache (i count columns : Nat) : RegistryM σ Unit := do
  let w ← get
  let max := w.registry.config.maxWireBytes
  let full := registryError .limitExceeded "prepared wire cache quota exceeded"
  reject (count > 0xFFFF ∨ columns > 0xFFFF) full
  let used ← given (registryBytes sizes w.registry) full
  let types ← given (registryAllocation sizes count 2 2) full
  let values ← given (registryAllocation sizes count sizes.value sizes.valueAlignment) full
  reject (used > max ∨ types > max - used ∨ values > max - used - types) full
  let answer ← registryVectorAnswer sdk count
  let (types, made) := registryVector 0 count answer
  modify fun w => w.setEntry i { w.entry i with types }
  attempt made
  let answer ← registryVectorAnswer sdk count
  let (values, made) := registryVector .null count answer
  modify fun w => w.setEntry i { w.entry i with values }
  attempt made

/-- Give back what a prepare opened; the failure it ends in. -/
def registryAbandon (i : Nat) (failure : Failure) : RegistryM σ PrepareOk :=
  fun w =>
    match registryEntryClose sdk i w with
    | .ok _ w => .error failure w
    | .error closed w =>
      let status := if closed.status = .busy then .cleanupFailed else closed.status
      .error (registryError status "prepare ownership cleanup failed")
        { w with registry.failure := status }

/-- Make the vectors of the statement opened in slot `i` and hand out its identifier. -/
def registryPublish (i : Nat) (statement : Handle) : RegistryM σ PrepareOk :=
  fun w =>
    let count := sdk.parameters statement
    let columns := sdk.columns statement
    match registryCache sdk sizes i count columns w with
    | .error failure w => registryAbandon sdk i failure w
    | .ok _ w =>
      let id := w.registry.lastId + 1
      let w := { w with registry.lastId := id }
      .ok ⟨id, UInt16.ofNat columns, UInt16.ofNat count, 0⟩
        (w.setEntry i { w.entry i with id })

def registryPrepare (command : Command) : RegistryM σ PrepareOk := do
  let w ← get
  let verified ← attempt (registryCommand w.registry command .stmtPrepare)
  reject (verified.sql.length > w.registry.config.limits.maxQueryBytes ∨
      w.registry.lastId = 0xFFFFFFFF)
    (registryError .limitExceeded "SQL bytes or statement ID exhausted")
  let i ← given (w.registry.slots.items.findIdx? fun entry => entry.statement.isNone)
    (registryError .limitExceeded "statement slots full")
  let statement ← RegistryWorld.lift
    (Env.call (sdk.prepare verified.sql) (.prepared verified.sql))
  modify fun w => w.setEntry i { w.entry i with statement := some statement }
  registryPublish sdk sizes i statement

/-- The values are cleared when the call returns. -/
def registryClear (i count : Nat) (w : RegistryWorld σ) : RegistryWorld σ :=
  if count = 0 then w
  else w.setEntry i { w.entry i with
    values.items := List.replicate count .null ++ (w.entry i).values.items.drop count }

/-- Decode the parameters into the vectors of slot `i` and execute its statement. -/
def registryExecuteEntry (i : Nat) (statement : Handle) (verified : Command) :
    RegistryM σ SqlResponse := fun w =>
  let entry := w.entry i
  let count := sdk.parameters statement
  match executeDecode verified count w.registry.config.limits.maxParameterBytes
      ⟨entry.types.items, entry.typesValid, entry.values.items⟩ with
  | .error status _ => .error (registryWireFailure status) w
  | .ok _ cache =>
    let w := w.setEntry i { entry with
      types.items := cache.types
      typesValid := cache.valid
      values.items := cache.values }
    RegistryWorld.lift (Env.call (sdk.execute statement (cache.values.take count))
      (.executed statement (cache.values.take count))) w

def registryExecuteCleared (i : Nat) (statement : Handle) (verified : Command) :
    RegistryM σ SqlResponse := fun w =>
  match registryExecuteEntry sdk i statement verified w with
  | .ok response w => .ok response (registryClear i (sdk.parameters statement) w)
  | .error e w => .error e (registryClear i (sdk.parameters statement) w)

def registryExecute (command : Command) (out : SqlResponse) :
    RegistryM σ SqlResponse := do
  reject (out.result.isSome) (registryError .busy "destroy response result before execute")
  let w ← get
  let verified ← attempt (registryCommand w.registry command .stmtExecute)
  let (i, statement) ← attempt (registryLookup w.registry verified.statementId)
  let state ← RegistryWorld.lift (Env.look sdk.state)
  reject (state.failure ≠ .ok) (registryError state.failure "connection requires close")
  reject (state.busy = true)
    (registryError .busy "connection has an active result or transaction handle")
  registryExecuteCleared sdk i statement verified

def registryStatement (id : UInt32) : RegistryM σ Handle := do
  let w ← get
  let (_, statement) ← attempt (registryLookup w.registry id)
  pure statement

def registryParameter (id : UInt32) (index : Nat) : RegistryM σ Column := do
  let statement ← registryStatement id
  RegistryWorld.lift (Env.look (sdk.parameter statement index))

def registryColumn (id : UInt32) (index : Nat) : RegistryM σ Column := do
  let statement ← registryStatement id
  RegistryWorld.lift (Env.look (sdk.column statement index))

def registryReset (id : UInt32) : RegistryM σ Unit := do
  let statement ← registryStatement id
  RegistryWorld.lift (Env.call (sdk.reset statement) (.rewound statement))

def registryClose (id : UInt32) : RegistryM σ Unit := do
  let w ← get
  reject (id = 0 ∨ w.registry.connection = false)
    (registryError .invalidArgument "invalid close ID or registry")
  match registryFind w.registry id with
  | none => pure ()
  | some i => registryEntryClose sdk i

def registryCount (r : Registry) : Nat :=
  r.slots.items.countP fun entry => entry.statement.isSome

def registryContains (r : Registry) (id : UInt32) : Bool :=
  id ≠ 0 && r.slots.items.any fun entry => entry.statement.isSome && entry.id = id

/-- Attempt every slot from `i` on: the first failure, and whether one was busy. -/
def registryDisposeLoop : Nat → Nat → Status → Bool → RegistryWorld σ →
    (Status × Bool) × RegistryWorld σ
  | 0, _, status, busy, w => ((status, busy), w)
  | left + 1, i, status, busy, w =>
    if (w.entry i).statement.isNone then registryDisposeLoop left (i + 1) status busy w
    else
      match registryEntryClose sdk i w with
      | .ok _ w => registryDisposeLoop left (i + 1) status busy w
      | .error e w =>
        if e.status = .busy then registryDisposeLoop left (i + 1) status true w
        else registryDisposeLoop left (i + 1) (if status = .ok then e.status else status) busy w

def registryDispose : RegistryM σ Unit := fun w =>
  if w.registry.connection = false then .ok () w
  else
    let w := { w with registry.closing := true }
    let ((status, busy), w) := registryDisposeLoop sdk w.registry.slots.items.length 0
      w.registry.failure false w
    if busy then .error (registryError .busy "destroy results before registry disposal") w
    else
      let w := { w with registry := .zero }
      if status = .ok then .ok () w
      else .error (registryError status "registry ownership cleanup failed") w

end TurboDb.Mysql
