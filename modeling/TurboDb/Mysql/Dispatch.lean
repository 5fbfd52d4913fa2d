import TurboDb.Mysql.Registry

/-!
The dispatcher of commands.

A command is accepted while no reply is active. Its reply is produced packet by
packet: an emit writes the next payload into the scratch, once, and frames it as
often as it is asked to; only an acknowledgement moves on. On a failure the
dispatcher gives back the result or the statement it holds and answers with ERR.

The message of a diagnostic is what a buffer of `errmsgMax` bytes with a
terminator holds of it.
-/

namespace TurboDb.Mysql

open ByteOrder Effect

inductive Phase
  | idle | prepare | parameters | parameterEnd | prepareColumns | prepareEnd | count | columns
  | metadataEnd | rows | ending | ok | error | terminal
  deriving DecidableEq

/-- From `DISPATCH_PREPARE` to `DISPATCH_PREPARE_END`. -/
def Phase.preparing : Phase → Bool
  | .prepare | .parameters | .parameterEnd | .prepareColumns | .prepareEnd => true
  | _ => false

def dispatchLongData : UInt8 := 0x18

def dispatchGeneralError : UInt16 := 1105

def dispatchWrongArguments : UInt16 := 1210

def dispatchUnknownCommand : UInt16 := 1047

def dispatchUnsupported : UInt16 := 1235

def dispatchUnknownStatement : UInt16 := 1243

def minReplyBytes : Nat := errmsgMax + 9

def PrepareOk.zero : PrepareOk := ⟨0, 0, 0, 0⟩

structure Dispatch where
  registry : Registry
  response : SqlResponse
  prepared : PrepareOk
  diagnostic : Failure
  scratch : Bool
  capacity : Nat
  payload : Bytes
  index : Nat
  phase : Phase
  errorCode : UInt16
  sequence : UInt8
  nextSequence : UInt8
  deprecateEof : Bool
  binary : Bool
  pending : Bool
  emitted : Bool
  closeAfterReply : Bool
  deriving DecidableEq

def diagnosticInit : Failure := ⟨.ok, ""⟩

def Dispatch.zero : Dispatch :=
  ⟨.zero, .default, .zero, diagnosticInit, false, 0, [], 0, .idle, 0, 0, 0, false, false, false,
    false, false⟩

def dispatchError (status : Status) (reason : String) : Failure :=
  ⟨status, "MySQL dispatch: " ++ reason⟩

def dispatchCodec {α : Type} (x : Except WireStatus α) : Except Failure α :=
  x.mapError fun status =>
    dispatchError
      (match status with
        | .limit => .limitExceeded
        | .unsupported => .unsupported
        | _ => .invalidArgument)
      "codec rejected payload"

/-- What the buffer of a diagnostic holds before its terminator. -/
def diagnosticMessage (diagnostic : Failure) : Bytes :=
  (diagnostic.message.toUTF8.toList.takeWhile (· ≠ 0)).take (errmsgMax - 1)

structure DispatchWorld (σ : Type) where
  d : Dispatch
  env : Env σ

abbrev DispatchM (σ : Type) := EStateM Failure (DispatchWorld σ)

namespace DispatchWorld

variable {σ α : Type}

def engine (x : EStateM Failure (Env σ) α) : DispatchM σ α := fun w =>
  match x w.env with
  | .ok a env => .ok a { w with env }
  | .error e env => .error e { w with env }

def inRegistry (x : RegistryM σ α) : DispatchM σ α :=
  fun w =>
    match x ⟨w.d.registry, w.env⟩ with
    | .ok a r => .ok a ⟨{ w.d with registry := r.registry }, r.env⟩
    | .error e r => .error e ⟨{ w.d with registry := r.registry }, r.env⟩

end DispatchWorld

open DispatchWorld

variable {σ : Type} (sdk : Sdk σ) (sizes : Sizes) (locale : Locale)

def dispatchState : DispatchM σ (UInt16 × UInt16) := do
  let state ← engine (Env.look sdk.state)
  reject (state.failure ≠ .ok) (dispatchError state.failure "SQL session requires close")
  pure ((if state.inTransaction then serverInTrans else 0) |||
      (if state.autocommit then serverAutocommit else 0) |||
      (if state.transactionReadOnly then serverInTransReadonly else 0),
    if state.warningCount > 0xFFFF then 0xFFFF else state.warningCount.toUInt16)

/-- Destroy the result, which is gone even if that fails. -/
def dispatchRelease : DispatchM σ Unit := fun w =>
  match w.d.response.result with
  | none => .ok () w
  | some result =>
    match Env.call (sdk.destroy result) (.destroyed result) w.env with
    | .ok _ env => .ok () ⟨{ w.d with response.result := none }, env⟩
    | .error closed env => .error closed ⟨{ w.d with response.result := none }, env⟩

/-- A failure to destroy the result replaces the one reported. -/
def dispatchDestroy (failure : Failure) (w : DispatchWorld σ) : Failure × DispatchWorld σ :=
  match dispatchRelease sdk w with
  | .ok _ w => (failure, w)
  | .error closed w =>
    (closed, { w with d := { w.d with errorCode := 0, closeAfterReply := true } })

/-- Close the statement whose preparation is being answered. -/
def dispatchWithdraw (failure : Failure) (w : DispatchWorld σ) : Failure × DispatchWorld σ :=
  if w.d.phase.preparing = true ∧ w.d.prepared.statementId ≠ 0 then
    match inRegistry (registryClose sdk w.d.prepared.statementId) w with
    | .ok _ w => (failure, { w with d.prepared := .zero })
    | .error closed w =>
      (closed, { w with d := { w.d with
        prepared := .zero
        errorCode := 0
        closeAfterReply := true } })
  else (failure, w)

def dispatchLost (w : DispatchWorld σ) : Bool :=
  match sdk.state w.env.engine with
  | .ok state => state.failure ≠ .ok
  | .error _ => true

def dispatchFail (failure : Failure) (w : DispatchWorld σ) : DispatchWorld σ :=
  let (failure, w) := dispatchDestroy sdk failure w
  let (failure, w) := dispatchWithdraw sdk failure w
  { w with d := { w.d with
    diagnostic := failure
    closeAfterReply := w.d.closeAfterReply || dispatchLost sdk w ||
      failure.status = .commitUnknown || failure.status = .cleanupFailed
    errorCode :=
      if w.d.errorCode ≠ 0 then w.d.errorCode
      else if failure.status = .invalidArgument then dispatchWrongArguments
      else if failure.status = .unsupported then dispatchUnsupported
      else dispatchGeneralError
    phase := .error
    pending := false
    emitted := false } }

def dispatchSource (index : Nat) (parameter : Bool) : DispatchM σ Column :=
  fun w =>
    match w.d.response.result with
    | some result => engine (Env.look (sdk.resultColumn result index)) w
    | none =>
      if parameter then
        inRegistry (registryParameter sdk w.d.prepared.statementId index) w
      else inRegistry (registryColumn sdk w.d.prepared.statementId index) w

def dispatchMetadata (index : Nat) (parameter : Bool) :
    DispatchM σ ColumnDefinition := do
  let source ← dispatchSource sdk index parameter
  let w ← get
  attempt (dispatchColumn w.d.capacity (some source))

def dispatchMeasure (parameter : Bool) : Nat → Nat → DispatchM σ Unit
  | 0, _ => pure ()
  | left + 1, index => do
    let column ← dispatchMetadata sdk index parameter
    let w ← get
    let _ ← attempt (dispatchCodec (responseEncode locale (.column column) ⟨none, w.d.capacity, 0⟩))
    dispatchMeasure parameter left (index + 1)

def dispatchPreflight : DispatchM σ Unit := fun w =>
  match w.d.response.result with
  | some result => dispatchMeasure sdk locale false (sdk.resultColumns result) 0 w
  | none =>
    (do
      dispatchMeasure sdk locale true w.d.prepared.parameterCount.toNat 0
      dispatchMeasure sdk locale false w.d.prepared.columnCount.toNat 0 :
        DispatchM σ Unit) w

def dispatchInit (config : RegistryConfig) (deprecated : Bool) (capacity : Nat) :
    DispatchM σ Unit := do
  let w ← get
  reject (w.d.scratch = true ∨ w.d.registry.connection = true ∨ capacity < minReplyBytes)
    (dispatchError .invalidArgument "invalid owner or reply scratch")
  reject (capacity > 0xFFFFFFFF) (dispatchError .limitExceeded "wire reply width exceeded")
  inRegistry (registryInit sdk sizes config)
  modify fun w => { w with d := { Dispatch.zero with
    registry := w.d.registry
    scratch := true
    capacity
    deprecateEof := deprecated } }

def dispatchColumns (result : Option Handle) : Nat :=
  match result with
  | some result => sdk.resultColumns result
  | none => 0

def dispatchPlan : DispatchM σ Unit := fun w =>
  match w.d.response.kind with
  | .rows =>
    let columns := dispatchColumns sdk w.d.response.result
    if columns = 0 ∨ columns > 0xFFFF then
      .error (dispatchError .limitExceeded "wire result columns exceeded") w
    else dispatchPreflight sdk locale { w with d.phase := .count }
  | .command => .ok () { w with d.phase := .ok }
  | .none => .ok () w

def dispatchUnknown (id : UInt32) : DispatchM σ Unit := fun w =>
  if registryContains w.d.registry id then .ok () w
  else .error (dispatchError .invalidArgument "unknown prepared statement ID")
    { w with d.errorCode := dispatchUnknownStatement }

def dispatchPerform (command : Command) : DispatchM σ Unit :=
  match command.kind with
  | .ping => do
    modify fun w => { w with d.phase := .ok }
    let _ ← dispatchState sdk
  | .stmtPrepare => do
    let prepared ← inRegistry (registryPrepare sdk sizes command)
    modify fun w => { w with d := { w.d with prepared, phase := .prepare } }
    dispatchPreflight sdk locale
  | .stmtReset => do
    dispatchUnknown command.statementId
    modify fun w => { w with d.phase := .ok }
    inRegistry (registryReset sdk command.statementId)
  | .stmtExecute => do
    dispatchUnknown command.statementId
    modify fun w => { w with d.binary := true }
    let w ← get
    let response ← inRegistry (registryExecute sdk command w.d.response)
    modify fun w => { w with d.response := response }
    dispatchPlan sdk locale
  | .query => do
    let response ← engine (Env.call (sdk.run command.sql) (.ran command.sql))
    modify fun w => { w with d.response := response }
    dispatchPlan sdk locale
  | .quit | .stmtClose => pure ()

def dispatchCommand (command : Command) : DispatchM σ Unit := fun w =>
  match command.kind with
  | .quit => .ok () { w with d.phase := .terminal }
  | .stmtClose =>
    match inRegistry (registryClose sdk command.statementId) w with
    | .ok _ w => .ok () w
    | .error e w =>
      .error (dispatchError e.status "statement close failed; disconnect")
        { w with d := { w.d with diagnostic := e, phase := .terminal } }
  | _ =>
    match dispatchPerform sdk sizes locale command w with
    | .ok _ w => .ok () w
    | .error failure w => .ok () (dispatchFail sdk failure w)

/-- A command without a reply, by its first byte. -/
def dispatchSilent (payload : Bytes) : Bool :=
  match payload with
  | [] => false
  | first :: _ => first = dispatchLongData || first = CommandKind.stmtClose.code ||
    first = CommandKind.quit.code

def dispatchAccept (payload : Bytes) (sequence : UInt8) :
    DispatchM σ Unit := fun w =>
  if w.d.scratch = false ∨ w.d.registry.connection = false then
    .error (dispatchError .invalidArgument "invalid request owner") w
  else if w.d.phase = .terminal then
    .error (dispatchError .invalidState "connection is terminal") w
  else if w.d.phase ≠ .idle ∨ w.d.pending = true then
    .error (dispatchError .busy "acknowledge reply before another command") w
  else
    let w := { w with d := { w.d with
      sequence
      index := 0
      errorCode := 0
      closeAfterReply := false
      binary := false
      prepared := .zero
      response := .default
      diagnostic := diagnosticInit } }
    match dispatchCodec (commandDecode payload w.d.registry.config.maxCommandBytes) with
    | .ok command => dispatchCommand sdk sizes locale command w
    | .error failure =>
      if dispatchSilent payload then
        .error (dispatchError failure.status "no-response command rejected; disconnect")
          { w with d := { w.d with diagnostic := failure, phase := .terminal } }
      else
        let unknown := payload ≠ [] ∧ failure.status = .unsupported ∧
          payload.head? ≠ some CommandKind.stmtExecute.code
        .ok () (dispatchFail sdk failure
          { w with d.errorCode := if unknown then dispatchUnknownCommand else 0 })

/-- The packet behind definitions or rows, or the only one of a reply. -/
def dispatchTerminator (final : Bool) : DispatchM σ Response := do
  let (statusFlags, warnings) ← dispatchState sdk
  let w ← get
  let last := final && w.d.deprecateEof
  if w.d.phase = .ok ∨ last = true then
    pure (.ok
      { header := if last then responseEofMarker else 0
        affectedRows := if w.d.phase = .ok then w.d.response.affectedRows else 0
        lastInsertId := if w.d.phase = .ok then w.d.response.lastInsertId else 0
        statusFlags
        warnings
        info := some []
        sessionState := [] } w.d.deprecateEof)
  else pure (.eof ⟨warnings, statusFlags⟩)

/-- The values of a row have the kinds of its columns. -/
def dispatchRowKinds (result : Handle) : Nat → List Value → DispatchM σ Unit
  | _, [] => pure ()
  | i, value :: values => do
    let metadata ← engine (Env.look (sdk.resultColumn result i))
    reject (value.kind ≠ .null ∧ some value.kind ≠ metadata.kind)
      (dispatchError .internalError "SDK row type differs from metadata")
    dispatchRowKinds result (i + 1) values

/-- The result has been read to its end: destroy it and go on to the terminator. -/
def dispatchRowsDone : DispatchM σ Response := do
  dispatchRelease sdk
  modify fun w => { w with d.phase := .ending }
  dispatchTerminator sdk true

def dispatchRowFetched (result : Handle) (row : SqlRow) :
    DispatchM σ Response := fun w =>
  let invalid := dispatchError .internalError "invalid SDK row state or width"
  match row.state, row.values with
  | .done, _ => dispatchRowsDone sdk w
  | .row, some values =>
    if values.length ≠ sdk.resultColumns result then .error invalid w
    else
      match dispatchRowKinds sdk result 0 values w with
      | .ok _ w => .ok (.row values w.d.binary) w
      | .error e w => .error e w
  | _, _ => .error invalid w

def dispatchRow : DispatchM σ Response := do
  let w ← get
  let result ← given w.d.response.result
    (dispatchError .internalError "invalid SDK row state or width")
  let row ← engine (Env.call (sdk.next result) (.fetched result))
  dispatchRowFetched sdk result row

def dispatchSqlstate (code : UInt16) : String :=
  if code = dispatchUnsupported then "42000"
  else if code = dispatchUnknownCommand then "08S01" else "HY000"

def dispatchResponse : DispatchM σ Response := fun w =>
  match w.d.phase with
  | .prepare => .ok (.prepare w.d.prepared) w
  | .parameters => (Response.column <$> dispatchMetadata sdk w.d.index true) w
  | .prepareColumns | .columns => (Response.column <$> dispatchMetadata sdk w.d.index false) w
  | .count => .ok (.count (dispatchColumns sdk w.d.response.result)) w
  | .rows => dispatchRow sdk w
  | .parameterEnd | .prepareEnd | .metadataEnd | .ok => dispatchTerminator sdk false w
  | .ending => dispatchTerminator sdk true w
  | .error =>
    .ok (.err w.d.errorCode (Decimal.ascii (dispatchSqlstate w.d.errorCode))
      (some (diagnosticMessage w.d.diagnostic))) w
  | .idle | .terminal => .error (dispatchError .internalError "unexpected response phase") w

def dispatchEncode (capacity : Nat) (response : Response) : Except Failure Bytes := do
  let out ← dispatchCodec (responseEncode locale response ⟨some [], capacity, 0⟩)
  pure (out.data.getD [])

def dispatchPayload : DispatchM σ Bytes := do
  let response ← dispatchResponse sdk
  let w ← get
  attempt (dispatchEncode locale w.d.capacity response)

inductive Emission
  | packet (out : Output)
  | complete
  | disconnect
  deriving DecidableEq

/-- A payload that is kept until it is acknowledged. -/
def dispatchKeep (payload : Bytes) (w : DispatchWorld σ) : DispatchWorld σ :=
  { w with d := { w.d with payload, pending := true } }

/-- The ERR packet cannot be encoded either. -/
def dispatchDisconnect (failure : Failure) (w : DispatchWorld σ) :
    EStateM.Result Failure (DispatchWorld σ) Unit :=
  .error (dispatchError failure.status "ERR encoding failed; disconnect")
    { w with d.phase := .terminal }

def dispatchFill : DispatchM σ Unit := fun w =>
  if w.d.pending then .ok () w
  else
    match dispatchPayload sdk locale w with
    | .ok payload w => .ok () (dispatchKeep payload w)
    | .error failure w =>
      if w.d.phase = .error then dispatchDisconnect failure w
      else
        match dispatchPayload sdk locale (dispatchFail sdk failure w) with
        | .ok payload w => .ok () (dispatchKeep payload w)
        | .error failure w => dispatchDisconnect failure w

def dispatchFrame (out : Output) : DispatchM σ Emission := fun w =>
  match dispatchCodec (frameEncode w.d.payload w.d.sequence out) with
  | .error e => .error e w
  | .ok (out, next) =>
    .ok (.packet out) { w with d := { w.d with nextSequence := next, emitted := true } }

def dispatchEmit (out : Output) : DispatchM σ Emission := fun w =>
  if w.d.scratch = false ∨ out.data = none then
    .error (dispatchError .invalidArgument "invalid packet output") w
  else if w.d.emitted then
    .error (dispatchError .busy "acknowledge emitted packet before reuse") w
  else if w.d.phase = .idle then .ok .complete w
  else if w.d.phase = .terminal then .ok .disconnect w
  else
    (do
      dispatchFill sdk locale
      dispatchFrame out : DispatchM σ Emission) w

def dispatchPrepareColumns (d : Dispatch) : Phase :=
  if d.prepared.columnCount ≠ 0 then .prepareColumns else .idle

/-- The phase and the index behind an acknowledged packet. -/
def dispatchNext (d : Dispatch) : Phase × Nat :=
  match d.phase with
  | .prepare =>
    (if d.prepared.parameterCount ≠ 0 then .parameters else dispatchPrepareColumns d, 0)
  | .parameters =>
    if d.index + 1 = d.prepared.parameterCount.toNat then
      (if d.deprecateEof then dispatchPrepareColumns d else .parameterEnd, 0)
    else (.parameters, d.index + 1)
  | .parameterEnd => (dispatchPrepareColumns d, d.index)
  | .prepareColumns =>
    (if d.index + 1 = d.prepared.columnCount.toNat then
      (if d.deprecateEof then .idle else .prepareEnd) else .prepareColumns, d.index + 1)
  | .prepareEnd => (.idle, d.index)
  | .count => (.columns, 0)
  | .columns =>
    (if d.index + 1 = dispatchColumns sdk d.response.result then
      (if d.deprecateEof then .rows else .metadataEnd) else .columns, d.index + 1)
  | .metadataEnd => (.rows, d.index)
  | .rows => (.rows, d.index)
  | .ending | .ok => (.idle, d.index)
  | .error => (if d.closeAfterReply then .terminal else .idle, d.index)
  | .idle | .terminal => (.terminal, d.index)

def dispatchAcknowledge : DispatchM σ Unit := fun w =>
  if w.d.emitted = false ∨ w.d.pending = false then
    .error (dispatchError .invalidState "no emitted packet to acknowledge") w
  else
    let next := dispatchNext sdk w.d
    let acknowledged := { w with d := { w.d with
      sequence := w.d.nextSequence
      pending := false
      emitted := false
      phase := next.1
      index := next.2 } }
    if w.d.phase = .idle ∨ w.d.phase = .terminal then
      .error (dispatchError .internalError "unexpected acknowledged phase") acknowledged
    else .ok () acknowledged

end TurboDb.Mysql
