import TurboDb.Mysql.FrontendLatch

/-!
What stands before the first statement of a connection.

Each gate opens only behind the one before it: what the negotiation, the
authentication and the dispatcher are in determines the history of the connection,
whatever its phase is. A dispatcher is made for a session that was opened behind
all gates, and without one nothing is asked of the engine.
-/

namespace TurboDb.Mysql

open ByteOrder Effect FrontWorld List

structure AuthPolicy.Accepted (policy : AuthPolicy) : Prop where
  databases : policy.databases.length ≤ maxDatabases
  bound : ∀ binding ∈ policy.databases, binding.database ≠ none
  names : (policy.databases.map DatabaseBinding.name).Nodup
  users : (policy.accounts.map Account.username).Nodup
  defaults : ∀ account ∈ policy.accounts, account.defaultDatabase < policy.databases.length

variable {α : Type} {phase : FrontPhase} {login : Option Login} {payload : Bytes} {xs : List α}
  {i : Nat}

theorem nodup_snoc {β : Type} {f : α → β} {before : List α} {a : α} (nodup : (before.map f).Nodup)
    (fresh : ¬∃ other ∈ before, f a = f other) : ((before ++ [a]).map f).Nodup := by
  rw [map_append, nodup_append]
  refine ⟨nodup, by simp, ?_⟩
  rintro b inside c last rfl
  obtain ⟨other, mem, rfl⟩ := mem_map.mp inside
  rw [map_singleton, mem_singleton] at last
  exact fresh ⟨other, mem, last.symm⟩

theorem authDatabases_ok {before databases : List DatabaseBinding}
    (accepted : authDatabases before databases = .ok ())
    (nodup : (before.map DatabaseBinding.name).Nodup) :
    (∀ binding ∈ databases, binding.database ≠ none) ∧
      ((before ++ databases).map DatabaseBinding.name).Nodup := by
  induction databases generalizing before with
  | nil => exact ⟨nofun, by rwa [append_nil]⟩
  | cons database rest ih =>
    simp only [authDatabases, bind_eq_ok, reject_eq_ok, exists_unit] at accepted
    obtain ⟨valid, fresh, accepted⟩ := accepted
    obtain ⟨bound, nodup⟩ := ih accepted (nodup_snoc nodup fresh)
    refine ⟨?_, by rwa [append_assoc] at nodup⟩
    intro binding mem
    rcases mem_cons.mp mem with rfl | mem
    · exact (not_or.mp valid).1
    · exact bound binding mem

theorem authAccounts_ok {count : Nat} {iterations : UInt32} {before accounts : List Account}
    (accepted : authAccounts count iterations before accounts = .ok ())
    (nodup : (before.map Account.username).Nodup) :
    (∀ account ∈ accounts, account.defaultDatabase < count) ∧
      ((before ++ accounts).map Account.username).Nodup := by
  induction accounts generalizing before with
  | nil => exact ⟨nofun, by rwa [append_nil]⟩
  | cons account rest ih =>
    simp only [authAccounts, bind_eq_ok, reject_eq_ok, exists_unit] at accepted
    obtain ⟨valid, fresh, accepted⟩ := accepted
    obtain ⟨defaults, nodup⟩ := ih accepted (nodup_snoc nodup fresh)
    refine ⟨?_, by rwa [append_assoc] at nodup⟩
    intro other mem
    rcases mem_cons.mp mem with rfl | mem
    · simp only [not_or] at valid
      exact not_le.mp valid.2.2.2.1
    · exact defaults other mem

theorem authPolicyInit_accepted {config policy : AuthPolicy}
    (accepted : authPolicyInit config = .ok policy) : policy.Accepted := by
  simp only [authPolicyInit, bind_eq_ok, reject_eq_ok, exists_unit, pure_eq_ok] at accepted
  obtain ⟨-, sizes, databases, accounts, rfl⟩ := accepted
  obtain ⟨bound, names⟩ := authDatabases_ok databases nodup_nil
  obtain ⟨defaults, users⟩ := authAccounts_ok accounts nodup_nil
  exact ⟨not_lt.mp (not_or.mp sizes).2, bound, names, users, defaults⟩

theorem testBit_of_and {mask : UInt64} {d : Nat} (small : d < 64)
    (granted : mask &&& (1 <<< UInt64.ofNat d) ≠ 0) : mask.toNat.testBit d := by
  have bit : (1 <<< UInt64.ofNat d : UInt64).toNat = 2 ^ d := by
    interval_cases d <;> rfl
  rw [ne_eq, ← UInt64.toNat_inj, UInt64.toNat_and, bit, Nat.and_two_pow] at granted
  cases h : mask.toNat.testBit d with
  | true => rfl
  | false =>
    rw [h] at granted
    simp at granted

variable {policy : AuthPolicy} {σ : Type} {host : Host σ} {backend : Backend σ}
  {w : FrontWorld σ}

section Gates

/-- The login of a history, and the account and the database that it leads to. -/
structure Admits (policy : AuthPolicy) (login : Login) (account database : Option Nat) : Prop where
  user : account = policy.accounts.findIdx? fun account => login.username = account.username
  named : database = authDatabase policy account login.database

/-- A session that was opened behind every gate; commands may have followed. -/
structure SessionOpened (policy : AuthPolicy) (connection : Handle) (login : Login) (account database : Nat)
    (payload : Bytes) (history : List FrontEvent) : Prop where
  admits : Admits policy login (some account) (some database)
  granted : (policy.account account).databases &&& (1 <<< UInt64.ofNat database) ≠ 0
  passed : [.sslRequest login.header, .tlsReady, .login login, .password account payload (.ok true),
    .connected ((policy.databases.getD database ⟨[], none⟩).database.getD 0) (.ok connection)] <+:
      history

def HasSession (policy : AuthPolicy) (connection : Handle) (history : List FrontEvent) : Prop :=
  ∃ login account database payload, SessionOpened policy connection login account database payload history

section Opened

variable {connection : Handle} {history : List FrontEvent}
  (opened : HasSession policy connection history)
include opened

theorem HasSession.length : 5 ≤ history.length := by
  obtain ⟨login, account, database, payload, opened⟩ := opened
  exact opened.passed.length_le

theorem HasSession.append (more : List FrontEvent) :
    HasSession policy connection (history ++ more) := by
  obtain ⟨login, account, database, payload, opened⟩ := opened
  exact ⟨login, account, database, payload, opened.admits, opened.granted,
    opened.passed.trans (prefix_append _ _)⟩

end Opened

/-- What the parts of a connection tell about its history. -/
structure Gated (policy : AuthPolicy) (front : Front) (history : List FrontEvent) : Prop where
  configured : front.policy = policy
  ssl : front.negotiation.phase = .waitSsl → history = []
  tls : front.negotiation.phase = .waitTls → history = [.sslRequest front.negotiation.header]
  login : front.negotiation.phase = .waitLogin →
    history = [.sslRequest front.negotiation.header, .tlsReady]
  auth : front.auth.phase = .sendFull ∨ front.auth.phase = .waitPassword →
    ∃ login, history = [.sslRequest login.header, .tlsReady, .login login] ∧
      front.auth.policy = some policy ∧ Admits policy login front.auth.account front.auth.database
  connection : ∀ connection, front.auth.connection = some connection →
    HasSession policy connection history
  borrowed : ∀ connection, front.borrowed = some connection → HasSession policy connection history
  scratch : front.dispatch.scratch = true → front.borrowed ≠ none
  serving : front.phase = .command ∨ front.phase = .sendCommand ∨ front.sendSource = .command →
    front.borrowed ≠ none

variable {front front' : Front} {history : List FrontEvent}

section Gated

variable (gated : Gated policy front history)
include gated

theorem Gated.congr (samePolicy : front'.policy = front.policy)
    (negotiation : front'.negotiation = front.negotiation) (auth : front'.auth = front.auth)
    (borrowed : front'.borrowed = front.borrowed)
    (scratch : front'.dispatch.scratch = front.dispatch.scratch)
    (serving : front'.phase = .command ∨ front'.phase = .sendCommand ∨ front'.sendSource = .command →
      front.borrowed ≠ none) : Gated policy front' history := by
  constructor
  · rw [samePolicy, gated.configured]
  · rw [negotiation]
    exact gated.ssl
  · rw [negotiation]
    exact gated.tls
  · rw [negotiation]
    exact gated.login
  · rw [auth]
    exact gated.auth
  · rw [auth]
    exact gated.connection
  · rw [borrowed]
    exact gated.borrowed
  · rw [scratch, borrowed]
    exact gated.scratch
  · rw [borrowed]
    exact serving

theorem Gated.none_of_short (short : history.length < 5) :
    front.auth.connection = none ∧ front.borrowed = none := by
  constructor
  · rw [Option.eq_none_iff_forall_not_mem]
    intro connection mem
    exact absurd (gated.connection connection mem).length (not_le.mpr short)
  · rw [Option.eq_none_iff_forall_not_mem]
    intro connection mem
    exact absurd (gated.borrowed connection mem).length (not_le.mpr short)

/-- A gate that has been passed adds to a history that is still short. -/
theorem Gated.advance (short : history.length < 5)
    (outside : ¬(front.auth.phase = .sendFull ∨ front.auth.phase = .waitPassword)) {n : Negotiation}
    {history' : List FrontEvent} (ssl : n.phase = .waitSsl → history' = [])
    (tls : n.phase = .waitTls → history' = [.sslRequest n.header])
    (login : n.phase = .waitLogin → history' = [.sslRequest n.header, .tlsReady]) :
    Gated policy { front with negotiation := n } history' := by
  obtain ⟨connection, borrowed⟩ := gated.none_of_short short
  refine { gated with
    ssl, tls, login
    auth := fun inside => absurd inside outside
    connection := fun c h => ?_
    borrowed := fun c h => ?_ }
  · exact absurd (connection.symm.trans h) nofun
  · exact absurd (borrowed.symm.trans h) nofun

theorem Gated.outside (short : history.length ≠ 3) :
    ¬(front.auth.phase = .sendFull ∨ front.auth.phase = .waitPassword) := by
  intro inside
  obtain ⟨login, rfl, -⟩ := gated.auth inside
  exact short rfl

theorem Gated.refused {n : Negotiation} (closed : n.phase = .none ∨ n.phase = .failed) :
    Gated policy { front with negotiation := n } history := by
  refine { gated with ssl := ?_, tls := ?_, login := ?_ }
  all_goals
    intro waits
    rcases closed with h | h <;> exact absurd (h.symm.trans waits) nofun

end Gated

theorem Gated.frontFail {σ : Type} {w : FrontWorld σ} (gated : Gated policy w.front w.history)
    (status : Status) (reason : String) :
    let w' := final (frontFail status reason w : EStateM.Result Failure (FrontWorld σ) α)
    Gated policy w'.front w'.history := by
  refine gated.congr rfl rfl rfl rfl rfl ?_
  rintro (h | h | h)
  · cases h
  · cases h
  · exact gated.serving (.inr (.inr h))

end Gates

section Messages

variable {message : Bytes} {sequence : UInt8} {n n' : Negotiation}

def GatedWorld (policy : AuthPolicy) (w : FrontWorld σ) : Prop := Gated policy w.front w.history

theorem GatedWorld.release (gated : GatedWorld policy w) (next : UInt8) :
    GatedWorld policy (final (frontRelease next w)) := by
  unfold frontRelease
  cases frontCodec (inputRelease w.front.input next) with
  | ok input => exact Gated.congr gated rfl rfl rfl rfl rfl gated.serving
  | error e => exact gated

theorem GatedWorld.goOn (gated : GatedWorld policy w) (action : FrontAction)
    (serving : phase = .command ∨ phase = .sendCommand → w.front.borrowed ≠ none) :
    GatedWorld policy (final (frontGoOn phase action w)) := by
  refine Gated.congr gated rfl rfl rfl rfl rfl ?_
  rintro (h | h | h)
  · exact serving (.inl h)
  · exact serving (.inr h)
  · exact gated.serving (.inr (.inr h))

theorem frontRelease_borrowed (next : UInt8) :
    (final (frontRelease next w)).front.borrowed = w.front.borrowed :=
  frontRelease_leaves (f := fun w : FrontWorld σ => w.front.borrowed) (fun _ _ => rfl) next w

theorem GatedWorld.finish (gated : GatedWorld policy w) (next : UInt8) (action : FrontAction)
    (serving : phase = .command ∨ phase = .sendCommand → w.front.borrowed ≠ none) :
    GatedWorld policy (final ((frontRelease next >>= fun _ => frontGoOn phase action) w)) := by
  have released := gated.release next
  have same := frontRelease_borrowed (w := w) next
  rw [run_bind]
  cases done : frontRelease next w with
  | error e w' =>
    rw [done] at released
    exact released
  | ok a w' =>
    rw [done] at released same
    refine released.goOn action ?_
    rw [same]
    exact serving

theorem negotiationAccept_error {tls : Bool} {status : WireStatus}
    (refused : negotiationAccept message sequence tls n = .error status n') :
    n'.phase = .none ∨ n'.phase = .failed := by
  unfold negotiationAccept at refused
  split_ifs at refused with closed
  · obtain ⟨-, rfl⟩ := EStateM.Result.error.inj refused
    exact closed
  · split at refused <;> cases refused
    exact .inr rfl
  · split at refused <;> cases refused
    exact .inr rfl
  · cases refused
    exact .inr rfl

theorem negotiationAccept_ssl (accepted : negotiationAccept message sequence false n = .ok login n') :
    n.phase = .waitSsl ∧ n'.phase = .waitTls := by
  unfold negotiationAccept at accepted
  split_ifs at accepted with closed first second
  · cases h : negotiationSsl n message sequence with
    | ok header =>
      rw [h] at accepted
      cases accepted
      exact ⟨first.1, rfl⟩
    | error status =>
      rw [h] at accepted
      cases accepted
  · cases second.2

/-- Under TLS only a login is accepted, which repeats the header of the request. -/
theorem negotiationAccept_login
    (accepted : negotiationAccept message sequence true n = .ok login n') :
    n.phase = .waitLogin ∧ n'.phase = .waitCredentials ∧ n'.header = n.header ∧
      ∃ l, login = some l ∧ l.header = n.header := by
  unfold negotiationAccept at accepted
  split_ifs at accepted with closed first second
  · cases first.2
  · cases h : negotiationLogin n message sequence with
    | error status =>
      rw [h] at accepted
      cases accepted
    | ok l =>
      rw [h] at accepted
      obtain ⟨rfl, rfl⟩ := EStateM.Result.ok.inj accepted
      simp only [negotiationLogin, bind_eq_ok, reject_eq_ok, exists_unit, pure_eq_ok] at h
      obtain ⟨-, l', -, same, rfl⟩ := h
      exact ⟨second.1, rfl, rfl, l', rfl, not_not.mp same⟩

theorem GatedWorld.frontSsl (gated : GatedWorld policy w) (message : Bytes) (next : UInt8) :
    GatedWorld policy (final (frontSsl message next w)) := by
  rw [Mysql.frontSsl, run_bind, inNegotiation]
  cases accepted : negotiationAccept message 1 false w.front.negotiation with
  | error status n => exact Gated.refused gated (negotiationAccept_error accepted)
  | ok login n =>
    obtain ⟨before, after⟩ := negotiationAccept_ssl accepted
    have empty : w.history = [] := gated.ssl before
    have passed : GatedWorld policy
        ⟨{ w.front with negotiation := n }, w.env, w.history ++ [.sslRequest n.header]⟩ := by
      refine Gated.advance gated (by simp [empty]) (gated.outside (by simp [empty])) ?_ ?_ ?_
      · exact fun h => absurd (after.symm.trans h) nofun
      · exact fun _ => by rw [empty, nil_append]
      · exact fun h => absurd (after.symm.trans h) nofun
    exact passed.finish next .startTls nofun

theorem authBegin_cases (policy : AuthPolicy) (gate : Negotiation) (login : Login) (auth : Auth) :
    (∃ e, authBegin policy gate login auth = .error e auth) ∨
      ∃ auth', authBegin policy gate login auth = .ok () auth' ∧ auth'.policy = some policy ∧
        auth'.connection = none ∧ Admits policy login auth'.account auth'.database := by
  rw [authBegin, run_bind_ok run_get]
  rw [run_bind_reject]
  split_ifs with first
  · exact .inl ⟨_, rfl⟩
  rw [run_bind_reject]
  split_ifs with second
  · exact .inl ⟨_, rfl⟩
  rw [run_bind_reject]
  split_ifs with third
  · exact .inl ⟨_, rfl⟩
  rw [run_bind_reject]
  split_ifs with fourth
  · exact .inl ⟨_, rfl⟩
  exact .inr ⟨_, rfl, rfl, rfl, rfl, rfl⟩

theorem GatedWorld.frontLogin (gated : GatedWorld policy w) (message : Bytes) :
    GatedWorld policy (final (frontLogin message w)) := by
  rw [Mysql.frontLogin, run_bind, inNegotiation]
  cases accepted : negotiationAccept message 2 true w.front.negotiation with
  | error status n => exact Gated.refused gated (negotiationAccept_error accepted)
  | ok login n =>
    obtain ⟨before, after, -, l, rfl, header⟩ := negotiationAccept_login accepted
    have begun : w.history = [.sslRequest l.header, .tlsReady] := by
      rw [header]
      exact gated.login before
    dsimp only
    rw [record, run_bind_ok run_modify, run_bind_ok run_get]
    dsimp only [Option.getD_some]
    have passed : GatedWorld policy
        ⟨{ w.front with negotiation := n }, w.env, w.history ++ [.login l]⟩ := by
      refine Gated.advance gated (by simp [begun]) (gated.outside (by simp [begun])) ?_ ?_ ?_ <;>
        exact fun h => absurd (after.symm.trans h) nofun
    rw [run_bind]
    unfold inAuth
    obtain ⟨e, refused⟩ | ⟨auth', started, ofPolicy, connection, admits⟩ :=
      authBegin_cases w.front.policy n l w.front.auth
    · rw [refused]
      exact passed
    · rw [started]
      have admitted : GatedWorld policy
          ⟨{ w.front with negotiation := n, auth := auth' }, w.env, w.history ++ [.login l]⟩ := by
        refine ⟨gated.configured, passed.ssl, passed.tls, passed.login, fun _ => ⟨l, ?_, ?_, ?_⟩,
          fun c h => ?_, passed.borrowed, passed.scratch, passed.serving⟩
        · rw [begun]
          rfl
        · rw [ofPolicy, gated.configured]
        · rw [← gated.configured]
          exact admits
        · exact absurd (connection.symm.trans h) nofun
      exact admitted.finish 4 .send nofun

variable (backend)

theorem passwordVerify_log (record : PasswordRecord) (payload : Bytes) (tls : Bool) :
    Leaves (fun env : Env σ => env.log) (passwordVerify backend record payload tls) := by
  have hash (password : Bytes) :
      Leaves (fun env : Env σ => env.log) (passwordHash backend record password) := by
    intro env
    unfold passwordHash
    cases derived : backend.derive record password env.engine with
    | mk answer engine => cases answer <;> rfl
  exact leaves_attempt.bind fun password => (hash password).bind fun _ => leaves_pure _

inductive Decided (policy : AuthPolicy) (payload : Bytes) (w w' : AuthWorld σ) : Prop
  | denied (more : List FrontEvent) (connection : w'.auth.connection = w.auth.connection)
      (history : w'.history = w.history ++ more)
  | opened (account database connection : Nat) (user : w.auth.account = some account)
      (named : w.auth.database = some database)
      (granted : (policy.account account).databases &&& (1 <<< UInt64.ofNat database) ≠ 0)
      (connected : w'.auth.connection = some connection)
      (history : w'.history = w.history ++ [.password account payload (.ok true),
        .connected ((policy.databases.getD database ⟨[], none⟩).database.getD 0) (.ok connection)])

theorem authPlan_connection (state : Except Fault SessionState) (auth : Auth) :
    (authPlan state auth).connection = auth.connection ∧ (authPlan state auth).phase = .sendResult := by
  unfold authPlan
  cases state with
  | error fault => exact ⟨rfl, rfl⟩
  | ok state =>
    dsimp only
    split_ifs <;> exact ⟨rfl, rfl⟩

theorem authOpen_spec (policy : AuthPolicy) (database : Nat) (w : AuthWorld σ) :
    (authOpen backend policy database w).auth.phase = .sendResult ∧
      (authOpen backend policy database w).env.log = w.env.log ∧
      ∃ answer, (authOpen backend policy database w).history = w.history ++
          [.connected ((policy.databases.getD database ⟨[], none⟩).database.getD 0) answer] ∧
        ((authOpen backend policy database w).auth.connection = w.auth.connection ∨
          ∃ c, answer = .ok c ∧ (authOpen backend policy database w).auth.connection = some c) := by
  generalize handled : (policy.databases.getD database ⟨[], none⟩).database.getD 0 = handle
  unfold authOpen
  rw [handled]
  dsimp only
  generalize backend.connect handle w.env.engine = answered
  obtain ⟨answer, engine⟩ := answered
  cases answer with
  | error fault => exact ⟨rfl, rfl, .error fault, rfl, .inl rfl⟩
  | ok connection =>
    obtain ⟨same, phase⟩ := authPlan_connection ((backend.session connection).state engine)
      { w.auth with connection := some connection }
    exact ⟨phase, rfl, .ok connection, rfl, .inr ⟨connection, rfl, same⟩⟩

theorem authDecide_spec (policy : AuthPolicy) (payload : Bytes) {account : Nat}
    {w : AuthWorld σ} (verified : Except Failure Bool) (user : w.auth.account.getD 0 = account)
    (w0 : AuthWorld σ) (same : w.auth.account = w0.auth.account ∧ w.auth.database = w0.auth.database ∧
      w.auth.connection = w0.auth.connection)
    (history : w.history = w0.history ++ [.password account payload verified]) :
    (authDecide backend policy verified w).auth.phase = .sendResult ∧
      (authDecide backend policy verified w).env.log = w.env.log ∧
      Decided policy payload w0 (authDecide backend policy verified w) := by
  obtain ⟨sameAccount, sameDatabase, sameConnection⟩ := same
  have deny (code : UInt16) (status : Status) :
      Decided policy payload w0 { w with auth := authPlanError status code w.auth } :=
    .denied _ sameConnection history
  unfold authDecide
  cases verified with
  | error failure => exact ⟨rfl, rfl, deny _ _⟩
  | ok verified =>
    cases verified with
    | false => exact ⟨rfl, rfl, deny _ _⟩
    | true =>
      cases found : w.auth.account with
      | none => exact ⟨rfl, rfl, deny _ _⟩
      | some i =>
        cases named : w.auth.database with
        | none => exact ⟨rfl, rfl, deny _ _⟩
        | some database =>
          dsimp only
          by_cases refused :
              (policy.account i).databases &&& (1 <<< UInt64.ofNat database) = 0
          · rw [if_pos refused]
            exact ⟨rfl, rfl, deny _ _⟩
          · rw [if_neg refused]
            obtain ⟨phase, log, answer, events, connection⟩ :=
              authOpen_spec backend policy database w
            refine ⟨phase, log, ?_⟩
            rw [history, append_assoc] at events
            rw [found, Option.getD_some] at user
            subst user
            obtain connection | ⟨c, rfl, connection⟩ := connection
            · exact .denied _ (connection.trans sameConnection) events
            · exact .opened i database c (sameAccount.symm.trans found)
                (sameDatabase.symm.trans named) refused connection events

theorem authAccept_spec (payload : Bytes) (sequence : UInt8) (tls : Bool) (w : AuthWorld σ) :
    match authAccept backend payload sequence tls w with
    | .error _ w' => w' = w ∨ w' = { w with auth.phase := .failed }
    | .ok _ w' => w.auth.phase = .waitPassword ∧ w'.auth.phase = .sendResult ∧
      w'.env.log = w.env.log ∧ ∃ policy, w.auth.policy = some policy ∧
        Decided policy payload w w' := by
  unfold authAccept
  cases configured : w.auth.policy with
  | none => exact .inl rfl
  | some policy =>
    dsimp only
    by_cases unexpected : w.auth.phase ≠ .waitPassword ∨ tls = false ∨ sequence ≠ w.auth.sequence
    · rw [if_pos unexpected]
      exact .inr rfl
    rw [if_neg unexpected]
    have waits : w.auth.phase = .waitPassword := not_not.mp (not_or.mp unexpected).1
    have log := passwordVerify_log backend
      (policy.account (w.auth.account.getD 0)).password payload true w.env
    obtain ⟨phase, log', decided⟩ := authDecide_spec backend policy payload
      (w := ⟨{ w.auth with sequence := sequence + 1 },
        final (passwordVerify backend (policy.account (w.auth.account.getD 0)).password payload
          true w.env),
        w.history ++ [.password (w.auth.account.getD 0) payload
          (reported (passwordVerify backend (policy.account (w.auth.account.getD 0)).password payload
            true w.env))]⟩) _ rfl w ⟨rfl, rfl, rfl⟩ rfl
    exact ⟨waits, phase, log'.trans log, policy, rfl, decided⟩

theorem registryInit_log (sizes : Sizes) (sdk : Sdk σ) (config : RegistryConfig) :
    Leaves (fun r : RegistryWorld σ => r.env.log) (registryInit sdk sizes config) := by
  have vector (count : Nat) :
      Leaves (fun r : RegistryWorld σ => r.env.log) (registryVectorAnswer sdk count) := by
    intro r
    unfold registryVectorAnswer
    split_ifs <;> rfl
  refine leaves_get.bind fun r => leaves_reject.bind fun _ => leaves_reject.bind fun _ =>
    leaves_given.bind fun _ => leaves_reject.bind fun _ => (vector _).bind fun answer => ?_
  exact leaves_attempt.bind fun _ => leaves_modify fun _ => rfl

theorem dispatchInit_spec (sizes : Sizes) (sdk : Sdk σ) (config : RegistryConfig) (deprecated : Bool)
    (capacity : Nat) (v : DispatchWorld σ) :
    match dispatchInit sdk sizes config deprecated capacity v with
    | .ok _ v' => v'.env.log = v.env.log
    | .error _ v' => v'.env.log = v.env.log ∧ v'.d.scratch = v.d.scratch := by
  have log := registryInit_log sizes sdk config ⟨v.d.registry, v.env⟩
  rw [dispatchInit, run_bind_ok run_get]
  rw [run_bind_reject]
  split_ifs with occupied
  · exact ⟨rfl, rfl⟩
  rw [run_bind_reject]
  split_ifs with wide
  · exact ⟨rfl, rfl⟩
  rw [run_bind]
  unfold DispatchWorld.inRegistry
  cases done : registryInit sdk sizes config ⟨v.d.registry, v.env⟩ with
  | ok a r =>
    rw [done] at log
    exact log
  | error e r =>
    rw [done] at log
    exact ⟨log, rfl⟩

/-- A step that keeps the gates and asks the engine for nothing unless there is a dispatcher. -/
structure GateKept (policy : AuthPolicy) (w w' : FrontWorld σ) : Prop where
  gated : GatedWorld policy w'
  log : w.front.borrowed = none → w'.env.log = w.env.log

theorem authReject_connection (status : Status) (auth : Auth) :
    (final (authReject status auth)).connection = auth.connection ∧
      ((final (authReject status auth)).phase = auth.phase ∨
        (final (authReject status auth)).phase = .sendResult) := by
  unfold authReject
  split_ifs
  · exact ⟨rfl, .inl rfl⟩
  · exact ⟨rfl, .inl rfl⟩
  · exact ⟨rfl, .inr rfl⟩

theorem frontAuthDispatch_kept (host : Host σ) (gated : GatedWorld policy w)
    (result : w.front.auth.phase = .sendResult) :
    GatedWorld policy (final (frontAuthDispatch host w)) ∧
      (final (frontAuthDispatch host w)).env.log = w.env.log := by
  unfold frontAuthDispatch
  cases connected : w.front.auth.connection with
  | none => exact ⟨gated, rfl⟩
  | some connection =>
    dsimp only
    by_cases failed : w.front.auth.errorCode ≠ 0
    · rw [if_pos failed]
      exact ⟨gated, rfl⟩
    rw [if_neg failed]
    have opened := gated.connection connection connected
    have spec := dispatchInit_spec host.sizes (host.backend.session connection) w.front.registry
      (decide (w.front.negotiation.header.capabilities &&& clientDeprecateEof ≠ 0))
      w.front.scratchCapacity ⟨w.front.dispatch, w.env⟩
    unfold inDispatch
    cases made : dispatchInit (host.backend.session connection) host.sizes w.front.registry
        (decide (w.front.negotiation.header.capabilities &&& clientDeprecateEof ≠ 0))
        w.front.scratchCapacity ⟨w.front.dispatch, w.env⟩ with
    | ok a v =>
      rw [made] at spec
      refine ⟨{ gated with
        borrowed := fun c h => ?_, scratch := fun _ => nofun, serving := fun _ => nofun }, spec⟩
      obtain rfl : connection = c := Option.some.inj h
      exact opened
    | error e v =>
      rw [made] at spec
      obtain ⟨log, scratch⟩ := spec
      obtain ⟨same, phase⟩ := authReject_connection e.status w.front.auth
      unfold inAuth
      dsimp only
      have kept (auth : Auth) (final : final (authReject e.status w.front.auth) = auth) :
          GatedWorld policy ⟨{ w.front with dispatch := v.d, auth }, v.env, w.history⟩ := by
        rw [final] at same phase
        refine { gated with
          auth := fun inside => ?_
          connection := fun c h => gated.connection c (same.symm.trans h)
          scratch := fun h => gated.scratch (scratch.symm.trans h) }
        rw [result] at phase
        rcases phase with h | h <;> rw [h] at inside <;> simp at inside
      cases rejected : authReject e.status w.front.auth with
      | ok a auth => exact ⟨kept auth (by rw [rejected]; rfl), log⟩
      | error e auth => exact ⟨kept auth (by rw [rejected]; rfl), log⟩

theorem finish_log (next : UInt8) (phase : FrontPhase) (action : FrontAction) (w : FrontWorld σ) :
    (final ((frontRelease next >>= fun _ => frontGoOn phase action) w)).env.log = w.env.log := by
  have leaves : Leaves (fun w : FrontWorld σ => w.env.log)
      (frontRelease next >>= fun _ => frontGoOn phase action) :=
    (frontRelease_leaves (fun _ _ => rfl) next).bind fun _ =>
      Leaves.bind (leaves_modify fun _ => rfl) fun _ => leaves_pure _
  exact leaves w

section Gated

variable (gated : GatedWorld policy w)
include gated

theorem GatedWorld.decided {v : AuthWorld σ} (waits : w.front.auth.phase = .waitPassword)
    (result : v.auth.phase = .sendResult) {policy' : AuthPolicy}
    (configured : w.front.auth.policy = some policy')
    (decided : Decided policy' payload ⟨w.front.auth, w.env, w.history⟩ v) :
    GatedWorld policy ⟨{ w.front with auth := v.auth }, v.env, v.history⟩ := by
  obtain ⟨login, begun, ofPolicy, admits⟩ := gated.auth (.inr waits)
  obtain rfl : policy = policy' := Option.some.inj (ofPolicy.symm.trans configured)
  have short := gated.none_of_short (by simp [begun])
  have later {P : Prop} (early : w.history = [] ∨ w.history.length = 1 ∨ w.history.length = 2) : P := by
    rw [begun] at early
    simp at early
  refine ⟨gated.configured, fun h => later (.inl (gated.ssl h)),
    fun h => later (.inr (.inl (by rw [gated.tls h]; rfl))),
    fun h => later (.inr (.inr (by rw [gated.login h]; rfl))), fun inside => ?_, fun c h => ?_,
    fun c h => absurd (short.2.symm.trans h) nofun, gated.scratch, gated.serving⟩
  · rw [result] at inside
    simp at inside
  · cases decided with
    | denied more connection history =>
      exact absurd (short.1.symm.trans (connection.symm.trans h)) nofun
    | opened account database connection user named granted connected history =>
      obtain rfl : connection = c := Option.some.inj (connected.symm.trans h)
      refine ⟨login, account, database, payload, ?_, granted, ?_⟩
      · rw [← user, ← named]
        exact admits
      · rw [history, begun]
        exact prefix_refl _

theorem GatedWorld.frontPassword (message : Bytes) :
    GateKept policy w (final (frontPassword host message w)) := by
  rw [Mysql.frontPassword, run_bind_ok run_get, run_bind]
  have spec := authAccept_spec host.backend message 4 w.front.tls ⟨w.front.auth, w.env, w.history⟩
  unfold inAuthWorld
  cases accepted : authAccept host.backend message 4 w.front.tls ⟨w.front.auth, w.env, w.history⟩ with
  | error e v =>
    rw [accepted] at spec
    obtain rfl | rfl := spec
    · exact ⟨gated, fun _ => rfl⟩
    · refine ⟨{ gated with auth := fun inside => ?_ }, fun _ => rfl⟩
      simp at inside
  | ok a v =>
    rw [accepted] at spec
    obtain ⟨waits, result, log, policy', configured, decided⟩ := spec
    have passed := gated.decided waits result configured decided
    dsimp only
    rw [run_bind]
    obtain ⟨kept, log'⟩ := frontAuthDispatch_kept host passed result
    cases done : frontAuthDispatch host
        ⟨{ w.front with auth := v.auth }, v.env, v.history⟩ with
    | error e w' =>
      rw [done] at kept log'
      exact ⟨kept, fun _ => log'.trans log⟩
    | ok a w' =>
      rw [done] at kept log'
      exact ⟨kept.finish 0 .send nofun, fun _ => (finish_log 0 _ _ w').trans (log'.trans log)⟩

theorem GatedWorld.dispatched (borrowed : w.front.borrowed ≠ none) (d : Dispatch) (env : Env σ)
    (more : List FrontEvent) :
    GatedWorld policy ⟨{ w.front with dispatch := d }, env, w.history ++ more⟩ := by
  obtain ⟨c, some⟩ := Option.ne_none_iff_exists'.mp borrowed
  have long := (gated.borrowed c some).length
  have later {P : Prop} (early : w.history.length < 5) : P := absurd long (not_le.mpr early)
  refine ⟨gated.configured, fun h => later (by rw [gated.ssl h]; decide),
    fun h => later (by rw [gated.tls h]; simp), fun h => later (by rw [gated.login h]; simp),
    fun inside => ?_, fun c h => (gated.connection c h).append more,
    fun c h => (gated.borrowed c h).append more, fun _ => borrowed, gated.serving⟩
  obtain ⟨login, begun, -⟩ := gated.auth inside
  exact later (by rw [begun]; simp)

theorem GatedWorld.frontCommand (message : Bytes) (next : UInt8)
    (borrowed : w.front.borrowed ≠ none) :
    GateKept policy w (final (frontCommand host message next w)) := by
  rw [Mysql.frontCommand, run_bind_ok run_get, record, run_bind_ok run_modify, run_bind]
  unfold inDispatch
  have kept (v : DispatchWorld σ) := gated.dispatched borrowed v.d v.env [.command message next]
  refine ⟨?_, fun none => absurd none borrowed⟩
  cases dispatchAccept (w.sdk host) host.sizes host.locale message next ⟨w.front.dispatch, w.env⟩ with
  | error e v => exact kept v
  | ok a v => exact (kept v).finish 0 .send fun _ => borrowed

end Gated

end Messages

theorem GateKept.latch {x : FrontM σ FrontAction} (kept : GateKept policy w (final (x w)))
    (reason : String) : GateKept policy w (final (frontLatch reason x w)) := by
  unfold frontLatch
  cases done : x w with
  | ok a w' =>
    rw [done] at kept
    exact kept
  | error e w' =>
    rw [done] at kept
    exact ⟨kept.gated.frontFail _ _, kept.log⟩

section Gated

variable (gated : GatedWorld policy w)
include gated

theorem GatedWorld.frontMessage (receiving : w.front.phase.receiving) (message : Bytes)
    (next : UInt8) :
    GateKept policy w (final (frontMessage host message next w)) := by
  have leaves {x : FrontM σ FrontAction} (gated : GatedWorld policy (final (x w)))
      (log : Leaves (fun w : FrontWorld σ => w.env.log) x) : GateKept policy w (final (x w)) :=
    ⟨gated, fun _ => log w⟩
  have goOn (phase : FrontPhase) (action : FrontAction) :
      Leaves (fun w : FrontWorld σ => w.env.log) (frontGoOn phase action) :=
    Leaves.bind (leaves_modify fun _ => rfl) fun _ => leaves_pure _
  unfold Mysql.frontMessage
  cases phase : w.front.phase with
  | waitSsl =>
    refine GateKept.latch (leaves (gated.frontSsl message next) ?_) _
    exact (inNegotiation_leaves fun _ _ => rfl).bind fun _ => leaves_get.bind fun _ =>
      Leaves.bind (leaves_modify fun _ => rfl) fun _ =>
        (frontRelease_leaves (fun _ _ => rfl) next).bind fun _ => goOn _ _
  | waitLogin =>
    refine GateKept.latch (leaves (gated.frontLogin message) ?_) _
    exact (inNegotiation_leaves fun _ _ => rfl).bind fun _ =>
      Leaves.bind (leaves_modify fun _ => rfl) fun _ => leaves_get.bind fun _ =>
        (inAuth_leaves fun _ _ => rfl).bind fun _ =>
          (frontRelease_leaves (fun _ _ => rfl) 4).bind fun _ => goOn _ _
  | waitPassword => exact GateKept.latch (gated.frontPassword message) _
  | command =>
    exact GateKept.latch (gated.frontCommand message next (gated.serving (.inl phase))) _
  | _ =>
    rw [phase] at receiving
    cases receiving

theorem GatedWorld.kept : GateKept policy w w := ⟨gated, fun _ => rfl⟩

theorem GatedWorld.failed (status : Status) (reason : String) :
    GateKept policy w (final (frontFail status reason w :
      EStateM.Result Failure (FrontWorld σ) FrontAction)) :=
  ⟨Gated.frontFail gated status reason, fun _ => rfl⟩

theorem GatedWorld.feed (bytes : Bytes) :
    GateKept policy w (final (frontendFeed host bytes w).2) := by
  unfold frontendFeed
  by_cases busy : w.front.sendPending = true ∨ w.front.phase.sending
  · rw [if_pos busy]
    exact gated.kept
  rw [if_neg busy]
  by_cases other : w.front.phase.receiving = false
  · rw [if_pos other]
    exact gated.failed _ _
  generalize inputFeed w.front.input bytes = fed
  have taken : GatedWorld policy { w with front.input := fed.input } :=
    Gated.congr gated rfl rfl rfl rfl rfl gated.serving
  have same {w' : FrontWorld σ} (kept : GateKept policy { w with front.input := fed.input } w') :
      GateKept policy w w' := ⟨kept.gated, kept.log⟩
  unfold frontFed
  dsimp only
  split_ifs
  · exact same taken.kept
  · exact same (taken.failed _ _)
  · exact same (taken.failed _ _)
  · cases frontCodec (inputMessage fed.input) with
    | error e => exact same (taken.failed _ _)
    | ok message => exact same (taken.frontMessage (Bool.not_eq_false _ ▸ other) message _)

end Gated

theorem handedOut_final (r : EStateM.Result Failure (FrontWorld σ) (FrontAction × Option Output)) :
    (handedOut r).2 = final r := by
  cases r with
  | error e w => rfl
  | ok result w =>
    obtain ⟨action, out⟩ := result
    cases out <;> rfl

theorem GateKept.send {source : SendSource} (other : source ≠ .command)
    {x : FrontM σ Output} (kept : GateKept policy w (final (x w))) :
    GateKept policy w (final (frontSend source x w)) := by
  have sent {w' : FrontWorld σ} (kept : GatedWorld policy w') (pending : Bool) :
      GatedWorld policy { w' with front := { w'.front with
        sendSource := source, sendPending := pending } } := by
    refine Gated.congr kept rfl rfl rfl rfl rfl ?_
    rintro (h | h | h)
    · exact kept.serving (.inl h)
    · exact kept.serving (.inr (.inl h))
    · exact absurd h other
  unfold frontSend
  cases done : x w with
  | ok out w' =>
    rw [done] at kept
    exact ⟨sent kept.gated true, kept.log⟩
  | error e w' =>
    rw [done] at kept
    exact ⟨sent kept.gated w'.front.sendPending, kept.log⟩

structure AuthKept (auth auth' : Auth) : Prop where
  phase : auth'.phase = .sendFull ∨ auth'.phase = .waitPassword →
    auth.phase = .sendFull ∨ auth.phase = .waitPassword
  policy : auth'.policy = auth.policy
  account : auth'.account = auth.account
  database : auth'.database = auth.database
  connection : ∀ c, auth'.connection = some c → auth.connection = some c

theorem AuthKept.refl (auth : Auth) : AuthKept auth auth := ⟨id, rfl, rfl, rfl, fun _ => id⟩

theorem GatedWorld.inAuth (gated : GatedWorld policy w) {x : EStateM Failure Auth α}
    (kept : AuthKept w.front.auth (final (x w.front.auth))) :
    GateKept policy w (final (inAuth x w)) ∧
      (final (FrontWorld.inAuth x w)).front.borrowed = w.front.borrowed := by
  have changed : GatedWorld policy { w with front.auth := final (x w.front.auth) } := by
    refine ⟨gated.configured, gated.ssl, gated.tls, gated.login, fun inside => ?_,
      fun c h => gated.connection c (kept.connection c h), gated.borrowed, gated.scratch, gated.serving⟩
    obtain ⟨login, begun, configured, admits⟩ := gated.auth (kept.phase inside)
    refine ⟨login, begun, kept.policy.trans configured, ?_⟩
    rw [kept.account, kept.database]
    exact admits
  unfold FrontWorld.inAuth
  cases done : x w.front.auth <;>
    · rw [done] at changed
      exact ⟨⟨changed, fun _ => rfl⟩, rfl⟩

theorem authEmit_kept (locale : Locale) (out : Output) (auth : Auth) :
    AuthKept auth (final (authEmit locale out auth)) := by
  unfold authEmit
  split_ifs
  · exact .refl auth
  · exact .refl auth
  · exact .refl auth
  · cases authFrame locale auth out <;> exact ⟨id, rfl, rfl, rfl, fun _ => id⟩

theorem GatedWorld.emit (gated : GatedWorld policy w) (capacity : Nat) :
    GateKept policy w (FrontCall.run host w (.emit capacity)).2 := by
  rw [FrontCall.run, handedOut_final]
  unfold frontendEmit
  by_cases pending : w.front.sendPending
  · rw [if_pos pending]
    exact gated.kept
  rw [if_neg pending]
  have auth : GateKept policy w (final (frontSend .auth
      (FrontWorld.inAuth (authEmit host.locale ⟨some [], capacity, 0⟩)) w)) :=
    GateKept.send (by simp) (gated.inAuth (authEmit_kept host.locale _ _)).1
  cases phase : w.front.phase with
  | sendGreeting =>
    have same : final (attempt (frontGreeting w.front.greeting ⟨some [], capacity, 0⟩) w) = w :=
      leaves_attempt (f := id) w
    have kept : GateKept policy w
        (final (attempt (frontGreeting w.front.greeting ⟨some [], capacity, 0⟩) w)) := by
      rw [same]
      exact gated.kept
    exact GateKept.send (by simp) kept
  | sendAuth => exact auth
  | sendAuthResult => exact auth
  | sendCommand =>
    have borrowed := gated.serving (.inr (.inl phase))
    refine ⟨?_, fun none => absurd none borrowed⟩
    unfold frontCommandEmit inDispatch
    have kept (v : DispatchWorld σ) (phase : FrontPhase) (source : SendSource) (pending : Bool) :
        GatedWorld policy ⟨{ w.front with
          dispatch := v.d, phase, sendSource := source, sendPending := pending }, v.env, w.history⟩ := by
      have served := gated.dispatched borrowed v.d v.env []
      rw [append_nil] at served
      exact Gated.congr served rfl rfl rfl rfl rfl fun _ => borrowed
    cases dispatchEmit (w.sdk host) host.locale ⟨some [], capacity, 0⟩ ⟨w.front.dispatch, w.env⟩ with
    | error e v => exact kept v _ _ _
    | ok emission v => cases emission <;> exact kept v _ _ _
  | _ => exact gated.kept

theorem authAcknowledge_kept (auth : Auth) : AuthKept auth (final (authAcknowledge auth)) := by
  unfold authAcknowledge
  by_cases refused : auth.emitted = false ∨ auth.phase ≠ .sendFull ∧ auth.phase ≠ .sendResult
  · rw [if_pos refused]
    exact .refl auth
  · rw [if_neg refused]
    refine ⟨fun inside => ?_, rfl, rfl, rfl, fun _ => id⟩
    by_cases full : auth.phase = .sendFull
    · exact .inl full
    · split_ifs at inside <;> simp at inside

theorem authTake_kept (auth : Auth) : AuthKept auth (final (authTake auth)) := by
  unfold authTake
  cases connected : auth.connection with
  | none => exact .refl auth
  | some connection =>
    split_ifs
    · exact ⟨fun h => by simp at h, rfl, rfl, rfl, nofun⟩
    · exact .refl auth

theorem GateKept.trans {w' w'' : FrontWorld σ} (first : GateKept policy w w') (second : GateKept policy w' w'')
    (same : w'.front.borrowed = w.front.borrowed) : GateKept policy w w'' :=
  ⟨second.gated, fun none => (second.log (same.trans none)).trans (first.log none)⟩

theorem GatedWorld.frontAuthenticated (gated : GatedWorld policy w) :
    GateKept policy w (final (frontAuthenticated w)) := by
  have quiet (phase : FrontPhase) (plain : phase ≠ .command ∧ phase ≠ .sendCommand) :
      GatedWorld policy { w with front := { w.front with phase, sendSource := .none } } := by
    refine Gated.congr gated rfl rfl rfl rfl rfl ?_
    rintro (h | h | h)
    · exact absurd h plain.1
    · exact absurd h plain.2
    · cases h
  unfold Mysql.frontAuthenticated
  cases phase : w.front.auth.phase with
  | waitPassword => exact ⟨quiet _ (by simp), fun _ => rfl⟩
  | failed => exact ⟨quiet _ (by simp), fun _ => rfl⟩
  | ready =>
    obtain ⟨taken, borrowed⟩ := gated.inAuth (authTake_kept w.front.auth)
    cases done : FrontWorld.inAuth authTake w with
    | error e w' =>
      rw [done] at taken borrowed
      exact taken.trans (taken.gated.failed _ _) borrowed
    | ok connection w' =>
      rw [done] at taken borrowed
      dsimp only
      by_cases mismatch : w'.front.borrowed ≠ some connection
      · rw [if_pos mismatch]
        exact taken.trans (taken.gated.failed _ _) borrowed
      · rw [if_neg mismatch]
        refine ⟨Gated.congr taken.gated rfl rfl rfl rfl rfl fun _ => ?_, taken.log⟩
        rw [final_ok, not_not.mp mismatch]
        nofun
  | _ => exact gated.failed _ _

theorem GatedWorld.acknowledge (gated : GatedWorld policy w) :
    GateKept policy w (final (frontendAcknowledge host w)) := by
  unfold frontendAcknowledge
  by_cases none : w.front.sendPending = false
  · rw [if_pos none]
    exact gated.kept
  rw [if_neg none]
  have taken : GatedWorld policy { w with front.sendPending := false } :=
    Gated.congr gated rfl rfl rfl rfl rfl gated.serving
  have same {w' : FrontWorld σ} (kept : GateKept policy { w with front.sendPending := false } w') :
      GateKept policy w w' := ⟨kept.gated, kept.log⟩
  generalize made : ({ w with front.sendPending := false } : FrontWorld σ) = w0 at taken same
  dsimp only
  cases source : w0.front.sendSource with
  | none => exact same (taken.failed _ _)
  | greeting =>
    refine same ⟨Gated.congr taken rfl rfl rfl rfl rfl ?_, fun _ => rfl⟩
    rintro (h | h | h) <;> cases h
  | auth =>
    obtain ⟨kept, borrowed⟩ := taken.inAuth (authAcknowledge_kept w0.front.auth)
    cases done : FrontWorld.inAuth authAcknowledge w0 with
    | error e w' =>
      rw [done] at kept borrowed
      exact same (kept.trans (kept.gated.failed _ _) borrowed)
    | ok a w' =>
      rw [done] at kept borrowed
      exact same (kept.trans kept.gated.frontAuthenticated borrowed)
  | command =>
    have borrowed := taken.serving (.inr (.inr source))
    refine same ⟨?_, fun h => absurd h borrowed⟩
    unfold inDispatch
    have served (v : DispatchWorld σ) := taken.dispatched borrowed v.d v.env []
    simp only [append_nil] at served
    cases dispatchAcknowledge (w0.sdk host) ⟨w0.front.dispatch, w0.env⟩ with
    | error e v => exact Gated.frontFail (served v) _ _
    | ok a v => exact Gated.congr (served v) rfl rfl rfl rfl rfl fun _ => borrowed

theorem negotiationTlsReady_cases (n : Negotiation) :
    (∃ n', negotiationTlsReady n = .error .invalid n' ∧ (n'.phase = .none ∨ n'.phase = .failed)) ∨
      n.phase = .waitTls ∧ negotiationTlsReady n = .ok () { n with phase := .waitLogin } := by
  unfold negotiationTlsReady
  by_cases none : n.phase = .none
  · rw [if_pos none]
    exact .inl ⟨n, rfl, .inl none⟩
  rw [if_neg none]
  by_cases other : n.phase ≠ .waitTls
  · rw [if_pos other]
    exact .inl ⟨_, rfl, .inr rfl⟩
  · rw [if_neg other]
    exact .inr ⟨not_not.mp other, rfl⟩

theorem GatedWorld.tlsReady (gated : GatedWorld policy w) :
    GateKept policy w (final (frontendTlsReady w)) := by
  unfold frontendTlsReady
  split_ifs
  · exact gated.failed _ _
  refine GateKept.latch ?_ _
  rw [run_bind, inNegotiation]
  obtain ⟨n, refused, closed⟩ | ⟨waits, ready⟩ := negotiationTlsReady_cases w.front.negotiation
  · rw [refused]
    exact ⟨Gated.refused gated closed, fun _ => rfl⟩
  · rw [ready]
    have asked := gated.tls waits
    have passed : GatedWorld policy ⟨{ w.front with
        negotiation := { w.front.negotiation with phase := .waitLogin } }, w.env,
        w.history ++ [.tlsReady]⟩ := by
      refine Gated.advance gated (by simp [asked]) (gated.outside (by simp [asked])) nofun nofun ?_
      exact fun _ => by rw [asked]; rfl
    refine ⟨?_, fun _ => rfl⟩
    have under : GatedWorld policy ⟨{ w.front with
        negotiation := { w.front.negotiation with phase := .waitLogin }, tls := true }, w.env,
        w.history ++ [.tlsReady]⟩ := Gated.congr passed rfl rfl rfl rfl rfl passed.serving
    exact under.goOn .receive nofun

theorem GatedWorld.call (gated : GatedWorld policy w) (call : FrontCall) :
    GateKept policy w (call.run host w).2 := by
  cases call with
  | feed bytes => exact gated.feed bytes
  | emit capacity => exact gated.emit capacity
  | acknowledge => exact gated.acknowledge
  | tlsReady => exact gated.tlsReady

theorem GatedWorld.run (gated : GatedWorld policy w) (calls : List FrontCall) :
    GatedWorld policy (frontRun host calls w) := by
  induction calls generalizing w with
  | nil => exact gated
  | cons call calls ih => exact ih (gated.call call).gated

theorem getElem_of_findIdx {p : α → Bool} (found : xs.findIdx? p = some i) :
    ∃ x, xs[i]? = some x ∧ p x := by
  obtain ⟨inside, holds, -⟩ := findIdx?_eq_some_iff_getElem.mp found
  exact ⟨xs[i], getElem?_eq_getElem inside, holds⟩

theorem eq_of_nodup {β : Type} {f : α → β} (nodup : (xs.map f).Nodup) {j : Nat} {x y : α}
    (hi : xs[i]? = some x) (hj : xs[j]? = some y) (same : f x = f y) : i = j := by
  have inside : i < (xs.map f).length := by
    rw [length_map]
    exact (List.getElem?_eq_some_iff.mp hi).1
  refine (getElem?_inj inside nodup).mp ?_
  rw [getElem?_map, getElem?_map, hi, hj, Option.map_some, Option.map_some, same]

/-- What stands before a statement: the gates in their order, the account of the login and the
database that is asked for and granted. -/
structure BehindGates (policy : AuthPolicy) (connection : Handle) (history : List FrontEvent) where
  login : Login
  i : Nat
  account : Account
  d : Nat
  binding : DatabaseBinding
  database : Handle
  payload : Bytes
  passed : [.sslRequest login.header, .tlsReady, .login login, .password i payload (.ok true),
    .connected database (.ok connection)] <+: history
  account_eq : policy.accounts[i]? = some account
  username : account.username = login.username
  only : ∀ j other, policy.accounts[j]? = some other → other.username = login.username → j = i
  binding_eq : policy.databases[d]? = some binding
  database_eq : binding.database = some database
  named : login.database ≠ [] → binding.name = login.database ∧
    ∀ e other, policy.databases[e]? = some other → other.name = login.database → e = d
  unnamed : login.database = [] → d = account.defaultDatabase
  granted : account.databases.toNat.testBit d = true

theorem SessionOpened.behindGates {policy : AuthPolicy} (accepted : policy.Accepted)
    {connection : Handle} {login : Login} {d : Nat} {history : List FrontEvent}
    (opened : SessionOpened policy connection login i d payload history) :
    Nonempty (BehindGates policy connection history) := by
  obtain ⟨account, account_eq, username⟩ := getElem_of_findIdx opened.admits.user.symm
  have username : login.username = account.username := by simpa using username
  have isAccount : policy.account i = account := by simp [AuthPolicy.account, account_eq]
  have place := opened.admits.named
  have inside : d < policy.databases.length := by
    unfold authDatabase at place
    split_ifs at place with empty
    · rw [Option.map_some] at place
      rw [Option.some.inj place, isAccount]
      exact accepted.defaults account (mem_of_getElem? account_eq)
    · obtain ⟨binding, binding_eq, -⟩ := getElem_of_findIdx place.symm
      exact (List.getElem?_eq_some_iff.mp binding_eq).1
  have binding_eq : policy.databases[d]? = some policy.databases[d] := getElem?_eq_getElem inside
  obtain ⟨database, database_eq⟩ :=
    Option.ne_none_iff_exists'.mp (accepted.bound _ (mem_of_getElem? binding_eq))
  have handle : (policy.databases.getD d ⟨[], none⟩).database.getD 0 = database := by
    simp [getD, binding_eq, database_eq]
  refine ⟨⟨login, i, account, d, _, database, payload, ?_, account_eq, username.symm, ?_, binding_eq,
    database_eq, fun some => ?_, fun empty => ?_, ?_⟩⟩
  · rw [← handle]
    exact opened.passed
  · intro j other there same
    exact eq_of_nodup accepted.users there account_eq (same.trans username)
  · unfold authDatabase at place
    rw [if_neg some] at place
    obtain ⟨binding, there, named⟩ := getElem_of_findIdx place.symm
    obtain rfl : policy.databases[d] = binding := Option.some.inj (binding_eq.symm.trans there)
    have named : login.database = policy.databases[d].name := by simpa using named
    exact ⟨named.symm, fun e other there same =>
      eq_of_nodup accepted.names there binding_eq (same.trans named)⟩
  · unfold authDatabase at place
    rw [if_pos empty, Option.map_some, isAccount] at place
    exact Option.some.inj place
  · have granted := opened.granted
    rw [isAccount] at granted
    exact testBit_of_and (inside.trans_le accepted.databases) granted

theorem Front.Fresh.gated {config : FrontendConfig} {front : Front} (fresh : front.Fresh config) :
    Gated config.policy front [] := by
  refine ⟨fresh.policy, fun _ => rfl, fun h => ?_, fun h => ?_, fun h => ?_, fun c h => ?_,
    fun c h => ?_, fun h => ?_, fun h => ?_⟩
  · rw [fresh.negotiation] at h
    cases h
  · rw [fresh.negotiation] at h
    cases h
  · rw [fresh.auth] at h
    rcases h with h | h <;> cases h
  · rw [fresh.auth] at h
    cases h
  · rw [fresh.borrowed] at h
    cases h
  · rw [fresh.dispatch] at h
    cases h
  · rw [fresh.phase, fresh.source] at h
    rcases h with h | h | h <;> cases h

/-- Whatever calls are made with whatever bytes, a call that asks the engine for anything comes
behind every gate. -/
theorem statement_behind_gates (host : Host σ) {asked : AuthPolicy} {config : FrontendConfig}
    {inputCapacity scratchCapacity : Nat} {nonce : Option Bytes} {front : Front}
    (policy : authPolicyInit asked = .ok config.policy)
    (made : frontendInit config inputCapacity scratchCapacity nonce = .ok front) (env : Env σ)
    (before : List FrontCall) (call : FrontCall) :
    let w := frontRun host before ⟨front, env, []⟩
    (call.run host w).2.env.log ≠ w.env.log →
      ∃ connection, w.front.borrowed = some connection ∧
        Nonempty (BehindGates config.policy connection w.history) := by
  intro w changed
  have fresh := frontendInit_fresh made
  have begun : GatedWorld config.policy (⟨front, env, []⟩ : FrontWorld σ) := fresh.gated
  have gated : GatedWorld config.policy w := begun.run before
  have kept : GateKept config.policy w (call.run host w).2 := gated.call call
  obtain ⟨connection, borrowed⟩ := Option.ne_none_iff_exists'.mp fun none => changed (kept.log none)
  obtain ⟨login, i, d, payload, opened⟩ := gated.borrowed connection borrowed
  exact ⟨connection, borrowed, opened.behindGates (authPolicyInit_accepted policy)⟩

/-- The calls of a login: greeting, request for TLS, login, password and the two replies. -/
def loginCalls : List FrontCall :=
  let header : Bytes := [0x00, 0x8A, 0x08, 0x00, 1, 0, 0, 0, 63] ++ replicate 23 0
  [.emit 1024, .acknowledge, .feed ([32, 0, 0, 1] ++ header), .tlsReady,
    .feed ([57, 0, 0, 2] ++ header ++ [0x75, 0, 0] ++ authPlugin ++ [0]), .emit 1024, .acknowledge,
    .feed [2, 0, 0, 4, 0x70, 0], .emit 1024, .acknowledge]

theorem statement_behind_gates_query :
    ∃ front, frontendInit .single 1024 1024 (some (replicate 20 1)) = .ok front ∧
      ∃ connection, (frontRun .counting loginCalls
          ⟨front, ⟨(0, []), []⟩, []⟩).front.borrowed = some connection ∧
        Nonempty (BehindGates FrontendConfig.single.policy connection
          (frontRun .counting loginCalls
            ⟨front, ⟨(0, []), []⟩, []⟩).history) := by
  have policy : authPolicyInit FrontendConfig.single.policy = .ok FrontendConfig.single.policy := by
    decide
  obtain ⟨front, made⟩ : ∃ front, frontendInit .single 1024 1024 (some (replicate 20 1)) =
      .ok front := ⟨_, rfl⟩
  refine ⟨front, made, statement_behind_gates _ policy made _ loginCalls
    (.feed [2, 0, 0, 0, 3, 0x31]) fun same => ?_⟩
  cases made
  have more := congrArg length same
  revert more
  decide +kernel

end TurboDb.Mysql
