import TurboDb.Mysql.Authenticate
import TurboDb.Mysql.Dispatch

/-!
The protocol of one connection.

The frontend owns the framing of its input, the negotiation, the authentication
and, behind that, the dispatcher. It hands one complete message to the part that
waits for it, and hands out one packet at a time, each acknowledged before it
goes on.

A failure that ends the connection sets the phase `failed`. The connection that
the dispatcher was made with is kept in `borrowed`.
-/

namespace TurboDb.Mysql

open ByteOrder Effect

/-- The phases of a connection; `none` is an owner that is not in use. -/
inductive FrontPhase
  | none | sendGreeting | waitSsl | waitTls | waitLogin | sendAuth | waitPassword | sendAuthResult
  | command | sendCommand | failed | closed
  deriving DecidableEq

def FrontPhase.sending : FrontPhase → Bool
  | .sendGreeting | .sendAuth | .sendAuthResult | .sendCommand => true
  | _ => false

def FrontPhase.receiving : FrontPhase → Bool
  | .waitSsl | .waitLogin | .waitPassword | .command => true
  | _ => false

inductive FrontAction
  | none | startTls | send | receive | disconnect
  deriving DecidableEq

inductive SendSource
  | none | greeting | auth | command
  deriving DecidableEq

structure FrontendConfig where
  policy : AuthPolicy
  registry : RegistryConfig
  serverVersion : Bytes
  connectionId : UInt32
  deriving DecidableEq

structure Front where
  policy : AuthPolicy
  registry : RegistryConfig
  input : Input
  negotiation : Negotiation
  auth : Auth
  dispatch : Dispatch
  borrowed : Option Handle
  connection : Option Handle
  greeting : Greeting
  scratchCapacity : Nat
  failure : Status
  phase : FrontPhase
  sendSource : SendSource
  sendPending : Bool
  tls : Bool
  deriving DecidableEq

def frontError (status : Status) (reason : String) : Failure :=
  ⟨status, "MySQL frontend: " ++ reason⟩

def frontStatus : WireStatus → Status
  | .limit => .limitExceeded
  | .busy => .busy
  | _ => .invalidArgument

def frontCodec {α : Type} (x : Except WireStatus α) : Except Failure α :=
  x.mapError fun status => frontError (frontStatus status) "wire codec rejected connection data"

def frontGreetingOf (config : FrontendConfig) (nonce : Bytes) : Greeting where
  protocolVersion := handshakeProtocol
  serverVersion := config.serverVersion ++
    List.replicate (serverVersionCapacity - config.serverVersion.length) 0
  connectionId := config.connectionId
  capabilities := serverCapabilities true
  characterSet := binaryCharset
  statusFlags := serverAutocommit
  authPluginData := nonce
  authPluginDataLength := nonceBytes
  authPlugin := authPlugin ++ List.replicate (authPluginNameCapacity - authPlugin.length) 0

/-- A new connection; `nonce` is what the generator of random bytes hands out. -/
def frontendInit (config : FrontendConfig) (inputCapacity scratchCapacity : Nat)
    (nonce : Option Bytes) : Except Failure Front := do
  reject (config.connectionId = 0 ∨ inputCapacity = 0 ∨ scratchCapacity < minReplyBytes ∨
      scratchCapacity > 0xFFFFFFFF ∨ config.serverVersion = [] ∨
      config.serverVersion.length ≥ serverVersionCapacity ∨ 0 ∈ config.serverVersion)
    (frontError .invalidArgument "invalid connection configuration or storage")
  let input ← frontCodec (inputInit inputCapacity 1)
  let negotiation ← (negotiationInit (serverCapabilities true)).mapError fun _ =>
    frontError .internalError "initialize negotiation gate"
  let nonce ← given nonce (frontError .internalError "generate greeting nonce")
  pure
    { policy := config.policy
      registry := config.registry
      input
      negotiation
      auth := .zero
      dispatch := .zero
      borrowed := none
      connection := none
      greeting := frontGreetingOf config nonce
      scratchCapacity
      failure := .ok
      phase := .sendGreeting
      sendSource := .none
      sendPending := false
      tls := false }

structure Front.Fresh (config : FrontendConfig) (front : Front) : Prop where
  policy : front.policy = config.policy
  input : front.input.failure = .ok ∧ front.input.ready = false ∧ front.input.storage = [] ∧
    front.input.stream = packetStreamInit 1 packetMaxPayload
  negotiation : front.negotiation.phase = .waitSsl
  auth : front.auth = .zero
  dispatch : front.dispatch = .zero
  borrowed : front.borrowed = none
  phase : front.phase = .sendGreeting
  source : front.sendSource = .none
  quiet : front.sendPending = false
  plain : front.tls = false

theorem frontendInit_fresh {config : FrontendConfig} {inputCapacity scratchCapacity : Nat}
    {nonce : Option Bytes} {front : Front}
    (made : frontendInit config inputCapacity scratchCapacity nonce = .ok front) :
    front.Fresh config := by
  simp only [frontendInit, frontCodec, bind_eq_ok, mapError_eq_ok, pure_eq_ok] at made
  obtain ⟨-, -, input, opened, negotiation, gate, nonce, -, rfl⟩ := made
  simp only [inputInit, bind_eq_ok, pure_eq_ok] at opened
  obtain ⟨-, -, rfl⟩ := opened
  obtain ⟨-, -, rfl⟩ := gate
  exact ⟨rfl, ⟨rfl, rfl, rfl, rfl⟩, rfl, rfl, rfl, rfl, rfl, rfl, rfl, rfl⟩

structure FrontWorld (σ : Type) where
  front : Front
  env : Env σ
  history : List FrontEvent

abbrev FrontM (σ : Type) := EStateM Failure (FrontWorld σ)

namespace FrontWorld

variable {σ α : Type}

def inNegotiation (x : EStateM WireStatus Negotiation α) : FrontM σ α :=
  fun w =>
    match x w.front.negotiation with
    | .ok a negotiation => .ok a { w with front.negotiation := negotiation }
    | .error status negotiation =>
      .error (frontError (frontStatus status) "wire codec rejected connection data")
        { w with front.negotiation := negotiation }

def inAuth (x : EStateM Failure Auth α) : FrontM σ α := fun w =>
  match x w.front.auth with
  | .ok a auth => .ok a { w with front.auth := auth }
  | .error e auth => .error e { w with front.auth := auth }

def inAuthWorld (x : EStateM Failure (AuthWorld σ) α) : FrontM σ α :=
  fun w =>
    match x ⟨w.front.auth, w.env, w.history⟩ with
    | .ok a v => .ok a ⟨{ w.front with auth := v.auth }, v.env, v.history⟩
    | .error e v => .error e ⟨{ w.front with auth := v.auth }, v.env, v.history⟩

def inDispatch (x : DispatchM σ α) : FrontM σ α :=
  fun w =>
    match x ⟨w.front.dispatch, w.env⟩ with
    | .ok a v => .ok a { w with front.dispatch := v.d, env := v.env }
    | .error e v => .error e { w with front.dispatch := v.d, env := v.env }

def record (event : FrontEvent) : FrontM σ Unit :=
  modify fun w => { w with history := w.history ++ [event] }

end FrontWorld

open FrontWorld

/-- What a connection is given from outside. -/
structure Host (σ : Type) where
  backend : Backend σ
  sizes : Sizes
  locale : Locale

variable {σ α : Type} (host : Host σ)

def FrontWorld.sdk (w : FrontWorld σ) : Sdk σ := host.backend.session (w.front.borrowed.getD 0)

def frontFail (status : Status) (reason : String) (w : FrontWorld σ) :
    EStateM.Result Failure (FrontWorld σ) α :=
  .error (frontError status reason) { w with front := { w.front with
    failure := status
    phase := .failed } }

/-- A failure of `x` ends the connection. -/
def frontLatch (reason : String) (x : FrontM σ α) :
    FrontM σ α := fun w =>
  match x w with
  | .ok a w => .ok a w
  | .error e w => frontFail e.status reason w

def frontGreeting (greeting : Greeting) (out : Output) : Except Failure Output := do
  let body ← frontCodec (greetingEncode greeting
    ⟨some [], serverVersionCapacity + authPluginNameCapacity + 64, 0⟩)
  let (out, next) ← frontCodec (frameEncode (body.data.getD []) 0 out)
  reject (next ≠ 1) (frontError .internalError "invalid greeting sequence")
  pure out

def frontSend (source : SendSource) (x : FrontM σ Output) :
    FrontM σ (FrontAction × Option Output) := fun w =>
  match x w with
  | .ok out w => .ok (.send, some out) { w with front := { w.front with
    sendSource := source
    sendPending := true } }
  | .error e w => .error e { w with front.sendSource := source }

def frontCommandEmit (out : Output) :
    FrontM σ (FrontAction × Option Output) := fun w =>
  match inDispatch (dispatchEmit (w.sdk host) host.locale out) w with
  | .ok .complete w => .ok (.receive, none) { w with front.phase := .command }
  | .ok .disconnect w => .ok (.disconnect, none) { w with front.phase := .failed }
  | .ok (.packet out) w => .ok (.send, some out) { w with front := { w.front with
    sendSource := .command
    sendPending := true } }
  | .error e w => .error e { w with front.sendSource := .command }

def frontendEmit (out : Output) :
    FrontM σ (FrontAction × Option Output) := fun w =>
  if out.data = none then .error (frontError .invalidArgument "invalid reply request") w
  else if w.front.sendPending then
    .error (frontError .busy "reply awaits transport handoff") w
  else
    match w.front.phase with
    | .sendGreeting => frontSend .greeting (attempt (frontGreeting w.front.greeting out)) w
    | .sendAuth | .sendAuthResult => frontSend .auth (inAuth (authEmit host.locale out)) w
    | .sendCommand => frontCommandEmit host out w
    | _ => .error (frontError .invalidState "no connection reply available") w

def frontAuthenticated : FrontM σ FrontAction := fun w =>
  match w.front.auth.phase with
  | .waitPassword => .ok .receive { w with front := { w.front with
    phase := .waitPassword
    sendSource := .none } }
  | .failed => .ok .disconnect { w with front := { w.front with
    phase := .failed
    sendSource := .none } }
  | .ready =>
    match inAuth authTake w with
    | .error e w => frontFail e.status "SDK session handoff mismatch" w
    | .ok connection w =>
      if w.front.borrowed ≠ some connection then
        frontFail .internalError "SDK session handoff mismatch" w
      else .ok .receive { w with front := { w.front with
        connection := some connection
        phase := .command
        sendSource := .none } }
  | _ => frontFail .internalError "unexpected authentication ACK state" w

def frontendAcknowledge : FrontM σ FrontAction := fun w =>
  if w.front.sendPending = false then
    .error (frontError .invalidState "no reply handoff pending") w
  else
    let w := { w with front.sendPending := false }
    match w.front.sendSource with
    | .greeting => .ok .receive { w with front := { w.front with
      phase := .waitSsl
      sendSource := .none } }
    | .auth =>
      match inAuth authAcknowledge w with
      | .error e w => frontFail e.status "authentication reply acknowledgement failed" w
      | .ok _ w => frontAuthenticated w
    | .command =>
      match inDispatch (dispatchAcknowledge (w.sdk host)) w with
      | .error e w => frontFail e.status "dispatcher reply acknowledgement failed" w
      | .ok _ w => .ok .send { w with front := { w.front with
        phase := .sendCommand
        sendSource := .none } }
    | .none => frontFail .internalError "unknown reply owner" w

def frontRelease (next : UInt8) : FrontM σ Unit := fun w =>
  match frontCodec (inputRelease w.front.input next) with
  | .ok input => .ok () { w with front.input := input }
  | .error e => .error e w

/-- Have a dispatcher on the session that was opened, or answer with a failure instead. -/
def frontAuthDispatch : FrontM σ Unit := fun w =>
  match w.front.auth.connection with
  | none => .ok () w
  | some connection =>
    if w.front.auth.errorCode ≠ 0 then .ok () w
    else
      let deprecated := w.front.negotiation.header.capabilities &&& clientDeprecateEof ≠ 0
      match inDispatch (dispatchInit (host.backend.session connection) host.sizes w.front.registry
          deprecated w.front.scratchCapacity) w with
      | .ok _ w => .ok () { w with front.borrowed := some connection }
      | .error e w => inAuth (authReject e.status) w

/-- The action that follows a message, with the phase that it leads to. -/
def frontGoOn (phase : FrontPhase) (action : FrontAction) :
    FrontM σ FrontAction := do
  modify fun w => { w with front.phase := phase }
  pure action

def frontSsl (message : Bytes) (next : UInt8) : FrontM σ FrontAction := do
  let _ ← inNegotiation (negotiationAccept message 1 false)
  let w ← get
  record (.sslRequest w.front.negotiation.header)
  frontRelease next
  frontGoOn .waitTls .startTls

def frontLogin (message : Bytes) : FrontM σ FrontAction := do
  let accepted ← inNegotiation (negotiationAccept message 2 true)
  let login := accepted.getD ⟨⟨0, 0, 0⟩, [], [], [], []⟩
  record (.login login)
  let w ← get
  inAuth (authBegin w.front.policy w.front.negotiation login)
  frontRelease 4
  frontGoOn .sendAuth .send

def frontPassword (message : Bytes) : FrontM σ FrontAction := do
  let w ← get
  inAuthWorld (authAccept host.backend message 4 w.front.tls)
  frontAuthDispatch host
  frontRelease 0
  frontGoOn .sendAuthResult .send

def frontCommand (message : Bytes) (next : UInt8) :
    FrontM σ FrontAction := do
  let w ← get
  record (.command message next)
  inDispatch (dispatchAccept (w.sdk host) host.sizes host.locale message next)
  frontRelease 0
  frontGoOn .sendCommand .send

/-- A complete message goes to the part that waits for it. -/
def frontMessage (message : Bytes) (next : UInt8) : FrontM σ FrontAction :=
  fun w =>
    match w.front.phase with
    | .waitSsl => frontLatch "reject SSLRequest" (frontSsl message next) w
    | .waitLogin => frontLatch "reject encrypted login" (frontLogin message) w
    | .waitPassword =>
      frontLatch "full authentication failed" (frontPassword host message) w
    | _ =>
      frontLatch "command admission failed" (frontCommand host message next) w

def frontFed (size : Nat) (fed : InputFeed) : FrontM σ FrontAction := fun w =>
  let w := { w with front.input := fed.input }
  if fed.status = .needMore then .ok .receive w
  else if fed.status ≠ .ok then frontFail (frontStatus fed.status) "invalid framed request" w
  else if fed.consumed ≠ size then
    frontFail .invalidArgument "pipelined request bytes rejected" w
  else
    match frontCodec (inputMessage fed.input) with
    | .error e => frontFail e.status "read complete request" w
    | .ok message =>
      frontMessage host message fed.input.stream.expectedSequence w

/-- Take bytes of the network; the first component is how many were consumed. -/
def frontendFeed (bytes : Bytes) (w : FrontWorld σ) :
    Nat × EStateM.Result Failure (FrontWorld σ) FrontAction :=
  if w.front.sendPending = true ∨ w.front.phase.sending = true then
    (0, .error (frontError .busy "network input while reply active") w)
  else if w.front.phase.receiving = false then
    (0, frontFail .invalidState "network input in invalid connection phase" w)
  else
    let fed := inputFeed w.front.input bytes
    (fed.consumed, frontFed host bytes.length fed w)

def frontendTlsReady : FrontM σ FrontAction := fun w =>
  if w.front.phase ≠ .waitTls ∨ w.front.tls = true then
    frontFail .invalidState "unexpected TLS completion" w
  else
    frontLatch "TLS negotiation gate failed"
      (do
        inNegotiation negotiationTlsReady
        record .tlsReady
        modify fun w => { w with front.tls := true }
        frontGoOn .waitLogin .receive) w

inductive FrontCall
  | feed (bytes : Bytes)
  | emit (capacity : Nat)
  | acknowledge
  | tlsReady

def handedOut : EStateM.Result Failure (FrontWorld σ) (FrontAction × Option Output) →
    Option Bytes × FrontWorld σ
  | .ok (_, some out) w => (out.data, w)
  | .ok (_, none) w => (none, w)
  | .error _ w => (none, w)

def FrontCall.run (w : FrontWorld σ) : FrontCall → Option Bytes × FrontWorld σ
  | .feed bytes => (none, final (frontendFeed host bytes w).2)
  | .emit capacity => handedOut (frontendEmit host ⟨some [], capacity, 0⟩ w)
  | .acknowledge => (none, final (frontendAcknowledge host w))
  | .tlsReady => (none, final (frontendTlsReady w))

def frontRun (calls : List FrontCall) (w : FrontWorld σ) : FrontWorld σ :=
  calls.foldl (fun w call => (call.run host w).2) w

end TurboDb.Mysql
