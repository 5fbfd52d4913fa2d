import TurboDb.Mysql.Handshake
import TurboDb.Mysql.Sdk

/-!
Accounts and the authentication of a login.

Every login is asked for its password; that of an unknown user is compared with
the first account's for the time it takes. A session is opened on a database only
behind a verified password and a grant.

The key derivation and the connection to a database are calls of the environment.
What the connection has passed is recorded in a history, the oldest first.
-/

namespace TurboDb.Mysql

open ByteOrder Effect

structure PasswordRecord where
  iterations : UInt32
  salt : Bytes
  hash : Bytes
  deriving DecidableEq

structure Account where
  username : Bytes
  password : PasswordRecord
  databases : UInt64
  defaultDatabase : Nat
  deriving DecidableEq

structure DatabaseBinding where
  name : Bytes
  database : Option Handle
  deriving DecidableEq

structure AuthPolicy where
  accounts : List Account
  maxAccounts : Nat
  databases : List DatabaseBinding
  deriving DecidableEq

/-- What authentication asks of its environment; `session` is the engine behind a connection. -/
structure Backend (σ : Type) where
  derive : PasswordRecord → Bytes → σ → Option Bytes × σ
  connect : Handle → σ → Except Fault Handle × σ
  session : Handle → Sdk σ

inductive FrontEvent
  | sslRequest (header : LoginHeader)
  | tlsReady
  | login (login : Login)
  | password (account : Nat) (payload : Bytes) (answer : Except Failure Bool)
  | connected (database : Handle) (answer : Except Fault Handle)
  | command (payload : Bytes) (sequence : UInt8)

section Password

def passwordBytesMax : Nat := 1024

def passwordMinIterations : UInt32 := 600000

def passwordMaxIterations : UInt32 := 2000000

def passwordError (status : Status) (reason : String) : Failure :=
  ⟨status, "MySQL password: " ++ reason⟩

def passwordIterations (count : UInt32) : Bool :=
  passwordMinIterations ≤ count && count ≤ passwordMaxIterations

def passwordBytes (bytes : Bytes) : Except Failure Unit := do
  reject (bytes = []) (passwordError .invalidArgument "empty credential")
  reject (bytes.length > passwordBytesMax)
    (passwordError .limitExceeded "credential byte limit exceeded")
  reject (0 ∈ bytes) (passwordError .invalidArgument "embedded credential terminator")

/-- The password in a payload that ends with one zero byte. -/
def passwordPayload (record : PasswordRecord) (payload : Bytes) (tls : Bool) :
    Except Failure Bytes := do
  reject (tls = false) (passwordError .invalidState "TLS establishment required")
  reject (passwordIterations record.iterations = false)
    (passwordError .invalidArgument "invalid verifier or work factor")
  reject (payload = []) (passwordError .invalidArgument "missing full-auth payload")
  reject (payload.length > passwordBytesMax + 1)
    (passwordError .limitExceeded "full-auth byte limit exceeded")
  reject (payload.getLast? ≠ some 0)
    (passwordError .invalidArgument "unterminated full-auth payload")
  passwordBytes payload.dropLast
  pure payload.dropLast

variable {σ : Type} (backend : Backend σ)

def passwordHash (record : PasswordRecord) (bytes : Bytes) : EStateM Failure (Env σ) Bytes :=
  fun env =>
    match backend.derive record bytes env.engine with
    | (some hash, engine) => .ok hash { env with engine }
    | (none, engine) =>
      .error (passwordError .internalError "password derivation failed") { env with engine }

def passwordVerify (record : PasswordRecord) (payload : Bytes) (tls : Bool) :
    EStateM Failure (Env σ) Bool := do
  let password ← attempt (passwordPayload record payload tls)
  let hash ← passwordHash backend record password
  pure (hash = record.hash)

def fullAuthEncode (out : Output) : Except WireStatus Output := do
  reject (out.capacity < 2) .limit
  pure { out with data := out.data.map fun _ => [1, 4], size := 2 }

end Password

def maxAccountsMax : Nat := 1024

def maxDatabases : Nat := 64

def authPayloadBytes : Nat := 128

def authFullSequence : UInt8 := 3

def authDenied : UInt16 := 1045

def authDbDenied : UInt16 := 1044

def authDbUnknown : UInt16 := 1049

def authConnectionLimit : UInt16 := 1040

def authMemory : UInt16 := 1037

def authInternal : UInt16 := 1105

/-- The phases of an authentication; `none` is an owner that is not in use. -/
inductive AuthPhase
  | none | sendFull | waitPassword | sendResult | ready | transferred | failed
  deriving DecidableEq

/-- The owner of an authentication. An account or a database that was not found is `none`. -/
structure Auth where
  policy : Option AuthPolicy
  connection : Option Handle
  ok : OkPacket
  account : Option Nat
  database : Option Nat
  failure : Status
  errorCode : UInt16
  sequence : UInt8
  nextSequence : UInt8
  phase : AuthPhase
  emitted : Bool
  deriving DecidableEq

def OkPacket.zero : OkPacket := ⟨0, 0, 0, 0, 0, some [], []⟩

def Auth.zero : Auth := ⟨none, none, .zero, none, none, .ok, 0, 0, 0, .none, false⟩

def authError (status : Status) (reason : String) : Failure :=
  ⟨status, "MySQL authentication: " ++ reason⟩

def authName (name : Bytes) (limit : Nat) : Bool :=
  name ≠ [] && name.length ≤ limit && !name.contains 0

def authMask (count : Nat) : UInt64 :=
  if count = maxDatabases then 0xFFFFFFFFFFFFFFFF else (1 <<< UInt64.ofNat count) - 1

def authDatabases (before : List DatabaseBinding) : List DatabaseBinding → Except Failure Unit
  | [] => pure ()
  | database :: rest => do
    reject (database.database = none ∨ authName database.name databaseBytes = false)
      (authError .invalidArgument "invalid database binding")
    reject (∃ other ∈ before, database.name = other.name)
      (authError .invalidArgument "duplicate logical database")
    authDatabases (before ++ [database]) rest

/-- Check the accounts behind those of `before`, which all have one work factor. -/
def authAccounts (count : Nat) (iterations : UInt32) (before : List Account) :
    List Account → Except Failure Unit
  | [] => pure ()
  | account :: rest => do
    reject (authName account.username usernameBytes = false ∨ account.databases = 0 ∨
        account.databases &&& ~~~authMask count ≠ 0 ∨ account.defaultDatabase ≥ count ∨
        account.databases &&& (1 <<< UInt64.ofNat account.defaultDatabase) = 0 ∨
        account.password.iterations < passwordMinIterations ∨
        account.password.iterations > passwordMaxIterations ∨
        account.password.iterations ≠ iterations)
      (authError .invalidArgument "invalid account grants or verifier")
    reject (∃ other ∈ before, account.username = other.username)
      (authError .invalidArgument "duplicate account")
    authAccounts count iterations (before ++ [account]) rest

def Account.zero : Account := ⟨[], ⟨0, [], []⟩, 0, 0⟩

def AuthPolicy.account (policy : AuthPolicy) (i : Nat) : Account := policy.accounts.getD i .zero

def authPolicyInit (config : AuthPolicy) : Except Failure AuthPolicy := do
  reject (config.accounts = [] ∨ config.databases = [] ∨ config.maxAccounts = 0 ∨
      config.maxAccounts > maxAccountsMax)
    (authError .invalidArgument "invalid policy spans or account bound")
  reject (config.accounts.length > config.maxAccounts ∨ config.databases.length > maxDatabases)
    (authError .limitExceeded "policy capacity exceeded")
  authDatabases [] config.databases
  authAccounts config.databases.length (config.account 0).password.iterations [] config.accounts
  pure config

def authDatabase (policy : AuthPolicy) (account : Option Nat) (name : Bytes) : Option Nat :=
  if name = [] then account.map fun i => (policy.account i).defaultDatabase
  else policy.databases.findIdx? fun database => name = database.name

def authBegin (policy : AuthPolicy) (gate : Negotiation) (login : Login) :
    EStateM Failure Auth Unit := do
  let auth ← get
  reject (policy.accounts = [] ∨ policy.databases = [])
    (authError .invalidArgument "invalid authentication input")
  reject (auth.phase ≠ .none ∨ auth.connection ≠ none)
    (authError .busy "authentication owner already active")
  reject (gate.phase ≠ .waitCredentials ∨ login.header ≠ gate.header)
    (authError .invalidState "TLS login negotiation required")
  reject (authName login.username usernameBytes = false ∨
      login.database ≠ [] ∧ authName login.database databaseBytes = false)
    (authError .invalidArgument "invalid login names")
  let account := policy.accounts.findIdx? fun account => login.username = account.username
  set { Auth.zero with
    policy := some policy
    account
    database := authDatabase policy account login.database
    sequence := authFullSequence
    phase := .sendFull }

structure AuthWorld (σ : Type) where
  auth : Auth
  env : Env σ
  history : List FrontEvent

def authPlanError (status : Status) (code : UInt16) (auth : Auth) : Auth :=
  { auth with failure := status, errorCode := code, phase := .sendResult }

def authSdkCode (status : Status) : UInt16 :=
  if status = .limitExceeded then authConnectionLimit
  else if status = .outOfMemory then authMemory
  else authInternal

section Accept

variable {σ : Type} (backend : Backend σ)

def authPlan (state : Except Fault SessionState) (auth : Auth) : Auth :=
  match state with
  | .error fault => authPlanError fault.status (authSdkCode fault.status) auth
  | .ok state =>
    if state.failure ≠ .ok ∨ state.busy = true ∨ state.inTransaction = true then
      authPlanError .invalidState (authSdkCode .invalidState) auth
    else
      { auth with
        ok := { OkPacket.zero with
          statusFlags := if state.autocommit then serverAutocommit else 0
          warnings := if state.warningCount > 0xFFFF then 0xFFFF
            else state.warningCount.toUInt16 }
        phase := .sendResult }

def authOpen (policy : AuthPolicy) (database : Nat) (w : AuthWorld σ) : AuthWorld σ :=
  let handle := (policy.databases.getD database ⟨[], none⟩).database.getD 0
  let answered := backend.connect handle w.env.engine
  let env := { w.env with engine := answered.2 }
  let history := w.history ++ [.connected handle answered.1]
  match answered.1 with
  | .error fault =>
    ⟨authPlanError fault.status (authSdkCode fault.status) w.auth, env, history⟩
  | .ok connection =>
    ⟨authPlan ((backend.session connection).state env.engine)
      { w.auth with connection := some connection }, env, history⟩

def authDecide (policy : AuthPolicy) (verified : Except Failure Bool) (w : AuthWorld σ) :
    AuthWorld σ :=
  match verified with
  | .error failure =>
    let shape := failure.status = .invalidArgument ∨ failure.status = .limitExceeded
    let code := if shape then authDenied else authSdkCode failure.status
    { w with auth := authPlanError failure.status code w.auth }
  | .ok verified =>
    let deny (code : UInt16) := { w with auth := authPlanError .connectionError code w.auth }
    match verified, w.auth.account with
    | false, _ | _, none => deny authDenied
    | true, some account =>
      match w.auth.database with
      | none => deny authDbUnknown
      | some database =>
        if (policy.account account).databases &&& (1 <<< UInt64.ofNat database) = 0 then
          deny authDbDenied
        else authOpen backend policy database w

def authAccept (payload : Bytes) (sequence : UInt8) (tls : Bool) :
    EStateM Failure (AuthWorld σ) Unit := fun w =>
  match w.auth.policy with
  | none => .error (authError .invalidArgument "missing authentication owner") w
  | some policy =>
    if w.auth.phase ≠ .waitPassword ∨ tls = false ∨ sequence ≠ w.auth.sequence then
      .error (authError .invalidState "unexpected full-auth sequence or TLS state")
        { w with auth.phase := .failed }
    else
      -- The comparison for an unknown user never grants account zero.
      let account := w.auth.account.getD 0
      let verified := passwordVerify backend (policy.account account).password payload true w.env
      .ok () (authDecide backend policy (reported verified)
        ⟨{ w.auth with sequence := sequence + 1 }, final verified,
          w.history ++ [.password account payload (reported verified)]⟩)

end Accept

section Reply

variable (locale : Locale)

def authSqlstate (code : UInt16) : Bytes :=
  Decimal.ascii
    (if code = authDenied then "28000"
    else if code = authDbDenied ∨ code = authDbUnknown then "42000"
    else if code = authConnectionLimit then "08004"
    else if code = authMemory then "HY001"
    else "HY000")

def authReason (code : UInt16) : Bytes :=
  Decimal.ascii
    (if code = authDenied then "Access denied"
    else if code = authDbDenied then "Database access denied"
    else if code = authDbUnknown then "Unknown logical database"
    else if code = authConnectionLimit then "SQL session capacity exceeded"
    else if code = authMemory then "Authentication resources exhausted"
    else "Authentication initialization failed")

def authReply (auth : Auth) : Except WireStatus Bytes := do
  let buffer : Output := ⟨some [], authPayloadBytes, 0⟩
  let out ←
    if auth.phase = .sendFull then fullAuthEncode buffer
    else if auth.errorCode ≠ 0 then
      responseEncode locale
        (.err auth.errorCode (authSqlstate auth.errorCode) (some (authReason auth.errorCode))) buffer
    else responseEncode locale (.ok auth.ok false) buffer
  pure (out.data.getD [])

def authFrame (auth : Auth) (out : Output) : Except WireStatus (Output × UInt8) := do
  let payload ← authReply locale auth
  frameEncode payload auth.sequence out

def authEmit (out : Output) : EStateM Failure Auth Output := fun auth =>
  if out.data = none then .error (authError .invalidArgument "owned reply output required") auth
  else if auth.emitted then
    .error (authError .busy "authentication reply awaits handoff") auth
  else if auth.phase ≠ .sendFull ∧ auth.phase ≠ .sendResult then
    .error (authError .invalidState "no authentication reply available") auth
  else
    match authFrame locale auth out with
    | .error status =>
      .error (authError (if status = .limit then .limitExceeded else .internalError)
        "authentication reply encoding failed") auth
    | .ok (out, next) => .ok out { auth with nextSequence := next, emitted := true }

def authAcknowledge : EStateM Failure Auth Unit := fun auth =>
  if auth.emitted = false ∨ auth.phase ≠ .sendFull ∧ auth.phase ≠ .sendResult then
    .error (authError .invalidState "no authentication handoff pending") auth
  else
    .ok () { auth with
      sequence := auth.nextSequence
      emitted := false
      phase := if auth.phase = .sendFull then .waitPassword
        else if auth.errorCode ≠ 0 then .failed else .ready }

def authTake : EStateM Failure Auth Handle := fun auth =>
  match auth.connection with
  | some connection =>
    if auth.phase = .ready then
      .ok connection { auth with connection := none, phase := .transferred }
    else .error (authError .invalidState "successful authentication handoff required") auth
  | none => .error (authError .invalidState "successful authentication handoff required") auth

def authReject (status : Status) : EStateM Failure Auth Unit := fun auth =>
  if status = .ok then .error (authError .invalidArgument "failure status required") auth
  else if auth.phase ≠ .sendResult ∨ auth.emitted = true ∨ auth.errorCode ≠ 0 then
    .error (authError .invalidState "unpublished authentication success required") auth
  else .ok () (authPlanError status (authSdkCode status) auth)

end Reply

end TurboDb.Mysql
