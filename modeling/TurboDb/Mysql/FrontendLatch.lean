import TurboDb.Mysql.Frontend

/-!
What a failure of the connection is worth.

A connection that has failed refuses every call but one: an acknowledgement is
taken whatever the phase, and sets the phase of the packet's owner. A packet is
out in the failed phase only by a completion of TLS that was reported while it was
on its way.
-/

namespace TurboDb.Mysql

open ByteOrder Effect FrontWorld FrontCall

variable {σ : Type} {host : Host σ} {locale : Locale}

section Leaves

variable {τ α : Type} {f : FrontWorld σ → τ}

theorem inNegotiation_leaves {x : EStateM WireStatus Negotiation α}
    (same : ∀ w n, f { w with front.negotiation := n } = f w) : Leaves f (inNegotiation x) := by
  intro w
  unfold inNegotiation
  cases x w.front.negotiation <;> exact same w _

theorem inAuth_leaves {x : EStateM Failure Auth α}
    (same : ∀ w auth, f { w with front.auth := auth } = f w) : Leaves f (inAuth x) := by
  intro w
  unfold inAuth
  cases x w.front.auth <;> exact same w _

theorem inAuthWorld_leaves {x : EStateM Failure (AuthWorld σ) α}
    (same : ∀ w auth env history, f ⟨{ w.front with auth }, env, history⟩ = f w) :
    Leaves f (inAuthWorld x) := by
  intro w
  unfold inAuthWorld
  cases x ⟨w.front.auth, w.env, w.history⟩ <;> exact same w _ _ _

theorem inDispatch_leaves {x : DispatchM σ α}
    (same : ∀ w d env, f { w with front.dispatch := d, env } = f w) : Leaves f (inDispatch x) := by
  intro w
  unfold inDispatch
  cases x ⟨w.front.dispatch, w.env⟩ <;> exact same w _ _

theorem frontRelease_leaves (same : ∀ w input, f { w with front.input := input } = f w)
    (next : UInt8) : Leaves f (frontRelease next) := by
  intro w
  unfold frontRelease
  cases frontCodec (inputRelease w.front.input next) with
  | ok input => exact same w input
  | error e => rfl

theorem frontLatch_leaves {x : FrontM σ α} (leaves : Leaves f x)
    (same : ∀ w status, f { w with front := { w.front with failure := status, phase := .failed } } =
      f w) (reason : String) : Leaves f (frontLatch reason x) := by
  intro w
  have left := leaves w
  unfold frontLatch
  cases h : x w with
  | ok a w' =>
    rw [h] at left
    exact left
  | error e w' =>
    rw [h] at left
    exact (same w' e.status).trans left

theorem frontLatch_eq_ok {x : FrontM σ α} {reason : String} {a : α}
    {w w' : FrontWorld σ} : frontLatch reason x w = .ok a w' ↔ x w = .ok a w' := by
  unfold frontLatch
  cases x w with
  | ok a w' => exact Iff.rfl
  | error e w' => exact ⟨nofun, nofun⟩

theorem frontAuthDispatch_leaves
    (dispatch : ∀ w d env borrowed,
      f { w with front := { w.front with dispatch := d, borrowed := borrowed }, env } = f w)
    (auth : ∀ w auth, f { w with front.auth := auth } = f w) :
    Leaves f (frontAuthDispatch host) := by
  intro w
  unfold frontAuthDispatch
  cases w.front.auth.connection with
  | none => rfl
  | some connection =>
    dsimp only
    by_cases failed : w.front.auth.errorCode ≠ 0
    · rw [if_pos failed]
      rfl
    rw [if_neg failed]
    unfold inDispatch
    cases dispatchInit (host.backend.session connection) host.sizes w.front.registry
        (decide (w.front.negotiation.header.capabilities &&& clientDeprecateEof ≠ 0))
        w.front.scratchCapacity ⟨w.front.dispatch, w.env⟩ with
    | ok a v => exact dispatch w v.d v.env (some connection)
    | error e v => exact (inAuth_leaves auth _).trans (dispatch w v.d v.env w.front.borrowed)

end Leaves

theorem frontMessage_pending (message : Bytes) (next : UInt8) :
    Leaves (fun w : FrontWorld σ => w.front.sendPending)
      (frontMessage host message next) := by
  let pending (w : FrontWorld σ) := w.front.sendPending
  have record (event : FrontEvent) : Leaves pending (record event) := leaves_modify fun _ => rfl
  have goOn (phase : FrontPhase) (action : FrontAction) :
      Leaves pending (frontGoOn phase action) :=
    Leaves.bind (leaves_modify fun _ => rfl) fun _ => leaves_pure _
  have release (next : UInt8) : Leaves pending (frontRelease next) :=
    frontRelease_leaves (fun _ _ => rfl) next
  have latch {x : FrontM σ FrontAction} (leaves : Leaves pending x)
      (reason : String) : Leaves pending (frontLatch reason x) :=
    frontLatch_leaves leaves (fun _ _ => rfl) reason
  have ssl : Leaves pending (frontSsl message next) :=
    (inNegotiation_leaves fun _ _ => rfl).bind fun _ => leaves_get.bind fun _ =>
      (record _).bind fun _ => (release _).bind fun _ => goOn _ _
  have login : Leaves pending (frontLogin message) :=
    (inNegotiation_leaves fun _ _ => rfl).bind fun _ => (record _).bind fun _ =>
      leaves_get.bind fun _ => (inAuth_leaves fun _ _ => rfl).bind fun _ =>
        (release _).bind fun _ => goOn _ _
  have password : Leaves pending (frontPassword host message) :=
    leaves_get.bind fun _ => (inAuthWorld_leaves fun _ _ _ _ => rfl).bind fun _ =>
      (frontAuthDispatch_leaves (fun _ _ _ _ => rfl) fun _ _ => rfl).bind fun _ =>
        (release _).bind fun _ => goOn _ _
  have command : Leaves pending (frontCommand host message next) :=
    leaves_get.bind fun _ => (record _).bind fun _ =>
      (inDispatch_leaves fun _ _ _ => rfl).bind fun _ => (release _).bind fun _ => goOn _ _
  intro w
  unfold frontMessage
  cases w.front.phase with
  | waitSsl => exact latch ssl _ w
  | waitLogin => exact latch login _ w
  | waitPassword => exact latch password _ w
  | _ => exact latch command _ w

theorem frontFed_pending (size : Nat) (fed : InputFeed) :
    Leaves (fun w : FrontWorld σ => w.front.sendPending)
      (frontFed host size fed) := by
  intro w
  unfold frontFed
  split_ifs
  · rfl
  · rfl
  · rfl
  · cases frontCodec (inputMessage fed.input) with
    | error e => rfl
    | ok message => exact frontMessage_pending _ _ _

theorem frontendFeed_pending (bytes : Bytes) (w : FrontWorld σ) :
    (final (frontendFeed host bytes w).2).front.sendPending =
      w.front.sendPending := by
  unfold frontendFeed
  split_ifs
  · rfl
  · rfl
  · exact frontFed_pending _ _ w

/-- The packet that is out has an owner that waits for its acknowledgement. -/
def Awaited (front : Front) : Prop :=
  match front.sendSource with
  | .none => False
  | .greeting => True
  | .auth => front.auth.emitted = true ∧
    (front.auth.phase = .sendFull ∨ front.auth.phase = .sendResult)
  | .command => front.dispatch.emitted = true ∧ front.dispatch.pending = true

/-- A packet is out only while it is sent, or after a failure in the meantime. -/
structure Pending (front : Front) : Prop where
  phase : front.sendPending = true → front.phase.sending = true ∨ front.phase = .failed
  awaited : front.sendPending = true → Awaited front

theorem pending_of_none {front : Front} (quiet : front.sendPending = false) : Pending front := by
  constructor <;> intro pending <;> rw [quiet] at pending <;> cases pending

variable {out out' : Output} {sdk : Sdk σ} {w' : DispatchWorld σ} {call : FrontCall}

theorem authEmit_ok {auth auth' : Auth} (emitted : authEmit locale out auth = .ok out' auth') :
    auth'.emitted ∧ (auth'.phase = .sendFull ∨ auth'.phase = .sendResult) := by
  unfold authEmit at emitted
  split_ifs at emitted with _ _ other
  cases framed : authFrame locale auth out with
  | error status =>
    rw [framed] at emitted
    cases emitted
  | ok result =>
    rw [framed] at emitted
    cases emitted
    refine ⟨rfl, ?_⟩
    by_contra neither
    exact other (not_or.mp neither)

theorem dispatchFill_ok {w : DispatchWorld σ} (filled : dispatchFill sdk locale w = .ok () w') :
    w'.d.pending := by
  unfold dispatchFill at filled
  by_cases pending : w.d.pending
  · rw [if_pos pending] at filled
    cases filled
    exact pending
  rw [if_neg pending] at filled
  cases first : dispatchPayload sdk locale w with
  | ok payload w1 =>
    rw [first] at filled
    cases filled
    rfl
  | error failure w1 =>
    rw [first] at filled
    dsimp only at filled
    split_ifs at filled
    · cases filled
    · cases second : dispatchPayload sdk locale (dispatchFail sdk failure w1) with
      | ok payload w2 =>
        rw [second] at filled
        cases filled
        rfl
      | error failure w2 =>
        rw [second] at filled
        cases filled

theorem dispatchEmit_packet {w : DispatchWorld σ}
    (emitted : dispatchEmit sdk locale out w = .ok (.packet out') w') :
    w'.d.emitted ∧ w'.d.pending := by
  unfold dispatchEmit at emitted
  split_ifs at emitted
  · cases emitted
  · cases emitted
  rw [run_bind] at emitted
  cases filled : dispatchFill sdk locale w with
  | error e w1 =>
    rw [filled] at emitted
    cases emitted
  | ok a w1 =>
    rw [filled] at emitted
    dsimp only at emitted
    unfold dispatchFrame at emitted
    cases framed : dispatchCodec (frameEncode w1.d.payload w1.d.sequence out) with
    | error e =>
      rw [framed] at emitted
      cases emitted
    | ok result =>
      rw [framed] at emitted
      cases emitted
      have kept : w1.d.pending := dispatchFill_ok filled
      exact ⟨rfl, kept⟩

inductive Emits (w : FrontWorld σ) : Option Bytes × FrontWorld σ → Prop
  | busy (pending : w.front.sendPending = true) : Emits w (none, w)
  | packet {bytes : Option Bytes} {w' : FrontWorld σ} (quiet : w.front.sendPending = false)
      (sending : w.front.phase.sending = true) (phase : w'.front.phase = w.front.phase)
      (pending : w'.front.sendPending = true) (awaited : Awaited w'.front) : Emits w (bytes, w')
  | none {w' : FrontWorld σ} (quiet : w.front.sendPending = false)
      (still : w'.front.sendPending = false)
      (failed : w.front.phase = .failed → w' = w) : Emits w (none, w')

theorem frontSend_emits {source : SendSource} {x : FrontM σ Output}
    {w : FrontWorld σ} (quiet : w.front.sendPending = false)
    (sending : w.front.phase.sending)
    (leaves : Leaves (fun w => (w.front.sendPending, w.front.phase)) x)
    (awaited : ∀ out w', x w = .ok out w' →
      Awaited { w'.front with sendSource := source, sendPending := true }) :
    Emits w (handedOut (frontSend source x w)) := by
  have left := leaves w
  unfold frontSend
  cases done : x w with
  | ok out w' =>
    rw [done] at left
    exact .packet quiet sending (Prod.mk.inj left).2 rfl (awaited out w' done)
  | error e w' =>
    rw [done] at left
    refine .none quiet ((Prod.mk.inj left).1.trans quiet) fun failed => ?_
    rw [failed] at sending
    cases sending

theorem frontCommandEmit_emits (out : Output) {w : FrontWorld σ}
    (quiet : w.front.sendPending = false) (phase : w.front.phase = .sendCommand) :
    Emits w (handedOut (frontCommandEmit host out w)) := by
  have other : w.front.phase ≠ .failed := by simp [phase]
  unfold frontCommandEmit inDispatch
  cases done : dispatchEmit (w.sdk host) host.locale out ⟨w.front.dispatch, w.env⟩ with
  | error e w' => exact .none quiet quiet fun failed => absurd failed other
  | ok emission w' =>
    cases emission with
    | complete => exact .none quiet quiet fun failed => absurd failed other
    | disconnect => exact .none quiet quiet fun failed => absurd failed other
    | packet out' =>
      exact .packet quiet (by rw [phase]; rfl) rfl rfl (dispatchEmit_packet done)

theorem emits (host : Host σ) (capacity : Nat)
    (w : FrontWorld σ) :
    Emits w (run host w (.emit capacity)) := by
  rw [run]
  unfold frontendEmit
  by_cases pending : w.front.sendPending
  · rw [if_pos pending]
    exact .busy pending
  rw [if_neg pending]
  have quiet := Bool.eq_false_iff.mpr pending
  have auth (sending : w.front.phase.sending = true) :
      Emits w (handedOut (frontSend .auth (inAuth (authEmit host.locale ⟨some [], capacity, 0⟩)) w)) := by
    refine frontSend_emits quiet sending (inAuth_leaves fun _ _ => rfl) fun out w' done => ?_
    unfold inAuth at done
    cases sent : authEmit host.locale ⟨some [], capacity, 0⟩ w.front.auth with
    | error e auth =>
      rw [sent] at done
      cases done
    | ok a auth =>
      rw [sent] at done
      cases done
      exact authEmit_ok sent
  cases phase : w.front.phase with
  | sendGreeting =>
    exact frontSend_emits quiet (by rw [phase]; rfl) leaves_attempt fun _ _ _ => trivial
  | sendAuth => exact auth (by rw [phase]; rfl)
  | sendAuthResult => exact auth (by rw [phase]; rfl)
  | sendCommand => exact frontCommandEmit_emits _ quiet phase
  | _ => exact .none quiet quiet fun _ => rfl

section Steps

variable {w : FrontWorld σ}

theorem frontAuthenticated_leaves {τ : Type} {f : FrontWorld σ → τ}
    (take : Leaves f (inAuth authTake))
    (same : ∀ w failure phase connection source, f { w with front := { w.front with
      failure := failure, phase := phase, connection := connection, sendSource := source } } = f w) :
    Leaves f frontAuthenticated := by
  intro w
  unfold frontAuthenticated
  cases w.front.auth.phase with
  | ready =>
    have left := take w
    cases taken : inAuth authTake w with
    | error e w' =>
      rw [taken] at left
      exact (same w' _ _ _ _).trans left
    | ok connection w' =>
      rw [taken] at left
      dsimp only
      split_ifs <;> exact (same w' _ _ _ _).trans left
  | _ => exact same w _ _ _ _

theorem frontAuthenticated_emitted :
    Leaves (fun w : FrontWorld σ => w.front.auth.emitted) frontAuthenticated := by
  refine frontAuthenticated_leaves (fun w => ?_) fun _ _ _ _ _ => rfl
  unfold inAuth authTake
  cases w.front.auth.connection with
  | none => rfl
  | some connection =>
    split_ifs <;> rfl

/-- An acknowledgement is taken whatever the phase, and does not read. -/
theorem frontendAcknowledge_taken (w : FrontWorld σ) :
    (final (frontendAcknowledge host w)).front.sendPending = false ∧
      (final (frontendAcknowledge host w)).front.input = w.front.input := by
  let f (w : FrontWorld σ) := (w.front.sendPending, w.front.input)
  unfold frontendAcknowledge
  by_cases quiet : w.front.sendPending = false
  · rw [if_pos quiet]
    exact ⟨quiet, rfl⟩
  rw [if_neg quiet]
  generalize made : ({ w with front.sendPending := false } : FrontWorld σ) = w0
  have same : f w0 = (false, w.front.input) := by rw [← made]
  dsimp only
  cases w0.front.sendSource with
  | none => exact Prod.mk.inj same
  | greeting => exact Prod.mk.inj same
  | auth =>
    have leaves : Leaves f (inAuth authAcknowledge) := inAuth_leaves fun _ _ => rfl
    have rest : Leaves f frontAuthenticated :=
      frontAuthenticated_leaves (inAuth_leaves fun _ _ => rfl) fun _ _ _ _ _ => rfl
    have left := (leaves w0).trans same
    cases done : inAuth authAcknowledge w0 with
    | error e w' =>
      rw [done] at left
      exact Prod.mk.inj left
    | ok a w' =>
      rw [done] at left
      exact Prod.mk.inj ((rest w').trans left)
  | command =>
    have leaves : Leaves f (inDispatch (dispatchAcknowledge (w0.sdk host))) :=
      inDispatch_leaves fun _ _ _ => rfl
    have left := (leaves w0).trans same
    cases done : inDispatch (dispatchAcknowledge (w0.sdk host)) w0 <;>
      · rw [done] at left
        exact Prod.mk.inj left

theorem frontendTlsReady_leaves {τ : Type} {f : FrontWorld σ → τ}
    (same : ∀ w negotiation failure phase tls history, f ⟨{ w.front with
      negotiation, failure, phase, tls }, w.env, history⟩ = f w) : Leaves f frontendTlsReady := by
  intro w
  unfold frontendTlsReady
  split_ifs
  · exact same w w.front.negotiation .invalidState .failed w.front.tls w.history
  · refine frontLatch_leaves (Leaves.bind (inNegotiation_leaves fun w n => ?_) fun _ => ?_)
      (fun w status => ?_) _ w
    · exact same w n w.front.failure w.front.phase w.front.tls w.history
    · refine Leaves.bind (leaves_modify fun w => ?_) fun _ => Leaves.bind (leaves_modify fun w => ?_)
        fun _ => Leaves.bind (leaves_modify fun w => ?_) fun _ => leaves_pure _
      · exact same w w.front.negotiation w.front.failure w.front.phase w.front.tls _
      · exact same w w.front.negotiation w.front.failure w.front.phase true w.history
      · exact same w w.front.negotiation w.front.failure .waitLogin w.front.tls w.history
    · exact same w w.front.negotiation status .failed w.front.tls w.history

theorem frontendTlsReady_pending (w : FrontWorld σ) :
    (final (frontendTlsReady w)).front.sendPending = w.front.sendPending :=
  frontendTlsReady_leaves (f := fun w => w.front.sendPending) (fun _ _ _ _ _ _ => rfl) w

/-- A completion of TLS that comes while a packet is out is a failure. -/
theorem frontendTlsReady_disturbs (inv : Pending w.front) (pending : w.front.sendPending) :
    final (frontendTlsReady w) =
      { w with front := { w.front with failure := .invalidState, phase := .failed } } := by
  have other : w.front.phase ≠ .waitTls := by
    rcases inv.phase pending with sending | failed
    · intro wait
      rw [wait] at sending
      cases sending
    · simp [failed]
  unfold frontendTlsReady
  rw [if_pos (.inl other)]
  rfl

theorem frontendFeed_busy (pending : w.front.sendPending)
    (bytes : Bytes) : final (frontendFeed host bytes w).2 = w := by
  unfold frontendFeed
  rw [if_pos (.inl pending)]
  rfl

variable (host)

theorem FrontCall.run_pending (inv : Pending w.front) (call : FrontCall) :
    Pending (call.run host w).2.front := by
  cases call with
  | feed bytes =>
    by_cases pending : w.front.sendPending
    · rw [run, frontendFeed_busy pending]
      exact inv
    · exact pending_of_none ((frontendFeed_pending bytes w).trans (Bool.eq_false_iff.mpr pending))
  | emit capacity =>
    have spec := emits host capacity w
    generalize run host w (.emit capacity) = r at spec
    cases spec with
    | busy pending => exact inv
    | packet quiet sending phase pending awaited =>
      exact ⟨fun _ => .inl (by rw [phase]; exact sending), fun _ => awaited⟩
    | none quiet still failed => exact pending_of_none still
  | acknowledge => exact pending_of_none (frontendAcknowledge_taken w).1
  | tlsReady =>
    by_cases pending : w.front.sendPending
    · rw [run, frontendTlsReady_disturbs inv pending]
      exact ⟨fun _ => .inr rfl, fun _ => inv.awaited pending⟩
    · exact pending_of_none ((frontendTlsReady_pending w).trans (Bool.eq_false_iff.mpr pending))

theorem frontRun_pending (inv : Pending w.front) (calls : List FrontCall) :
    Pending (frontRun host calls w).front := by
  induction calls generalizing w with
  | nil => exact inv
  | cons call calls ih => exact ih (call.run_pending host inv)

/-- A packet that is out in the failed phase was out before, or it was disturbed just now. -/
theorem FrontCall.run_failed (failed : (call.run host w).2.front.phase = .failed)
    (pending : (call.run host w).2.front.sendPending) :
    w.front.sendPending ∧ (call = .tlsReady ∨ call ≠ .acknowledge ∧ w.front.phase = .failed) := by
  cases call with
  | feed bytes =>
    have before : w.front.sendPending := (frontendFeed_pending bytes w).symm.trans pending
    rw [run, frontendFeed_busy before] at failed
    exact ⟨before, .inr ⟨nofun, failed⟩⟩
  | emit capacity =>
    have spec := emits host capacity w
    generalize run host w (.emit capacity) = r at spec failed pending
    cases spec with
    | busy before => exact ⟨before, .inr ⟨nofun, failed⟩⟩
    | packet quiet sending phase _ _ =>
      rw [phase] at failed
      rw [failed] at sending
      cases sending
    | none quiet still _ =>
      rw [still] at pending
      cases pending
  | acknowledge =>
    have quiet : (final (frontendAcknowledge host w)).front.sendPending = false :=
      (frontendAcknowledge_taken w).1
    exact absurd (quiet.symm.trans pending) (by simp)
  | tlsReady => exact ⟨(frontendTlsReady_pending w).symm.trans pending, .inl rfl⟩

/-- A call of a connection that has failed leaves it failed, and nothing else happens. -/
def Latched (w : FrontWorld σ) (call : FrontCall) : Prop :=
  w.front.phase = .failed →
    let after := call.run host w
    after.1 = none ∧ after.2.front.phase = .failed ∧
      after.2.front.negotiation = w.front.negotiation ∧ after.2.front.auth = w.front.auth ∧
      after.2.front.dispatch = w.front.dispatch ∧ after.2.env = w.env ∧
      after.2.history = w.history

/-- Every call is refused in the failed phase, unless it acknowledges a packet. -/
theorem latched_of_other (other : call = .acknowledge → w.front.sendPending = false) :
    Latched host w call := by
  intro failed
  cases call with
  | feed bytes =>
    rw [run]
    by_cases pending : w.front.sendPending
    · rw [frontendFeed_busy pending]
      exact ⟨rfl, failed, rfl, rfl, rfl, rfl, rfl⟩
    · have refused : (frontendFeed host bytes w).2 =
          frontFail .invalidState "network input in invalid connection phase" w := by
        unfold frontendFeed
        rw [if_neg (by simp [pending, failed, FrontPhase.sending]),
          if_pos (by rw [failed]; rfl)]
      rw [refused]
      exact ⟨rfl, rfl, rfl, rfl, rfl, rfl, rfl⟩
  | emit capacity =>
    have spec := emits host capacity w
    generalize run host w (.emit capacity) = r at spec
    cases spec with
    | busy before => exact ⟨rfl, failed, rfl, rfl, rfl, rfl, rfl⟩
    | packet quiet sending _ _ _ =>
      rw [failed] at sending
      cases sending
    | none quiet still same =>
      rw [same failed]
      exact ⟨rfl, failed, rfl, rfl, rfl, rfl, rfl⟩
  | acknowledge =>
    have refused : final (frontendAcknowledge host w) = w := by
      unfold frontendAcknowledge
      rw [if_pos (other rfl)]
      rfl
    rw [run, refused]
    exact ⟨rfl, failed, rfl, rfl, rfl, rfl, rfl⟩
  | tlsReady =>
    have refused : frontendTlsReady w =
        frontFail .invalidState "unexpected TLS completion" w := by
      unfold frontendTlsReady
      rw [if_pos (.inl (by simp [failed]))]
    rw [run, refused]
    exact ⟨rfl, rfl, rfl, rfl, rfl, rfl, rfl⟩

theorem dispatchAcknowledge_emitted (w : DispatchWorld σ) (emitted : w.d.emitted)
    (pending : w.d.pending) : (final (dispatchAcknowledge sdk w)).d.emitted = false := by
  unfold dispatchAcknowledge
  rw [if_neg (by simp [emitted, pending])]
  split_ifs <;> rfl

theorem frontendAcknowledge_auth (pending : w.front.sendPending)
    (source : w.front.sendSource = .auth) (awaited : Awaited w.front) :
    (final (frontendAcknowledge host w)).front.auth.emitted = false := by
  simp only [Awaited, source] at awaited
  obtain ⟨emitted, waits⟩ := awaited
  have waiting : ¬(w.front.auth.emitted = false ∨
      w.front.auth.phase ≠ .sendFull ∧ w.front.auth.phase ≠ .sendResult) := by
    rintro (quiet | ⟨first, second⟩)
    · simp [emitted] at quiet
    · exact waits.elim first second
  unfold frontendAcknowledge
  rw [if_neg (by simp [pending])]
  dsimp only
  rw [source]
  unfold inAuth authAcknowledge
  rw [if_neg waiting]
  exact frontAuthenticated_emitted _

theorem frontendAcknowledge_command (pending : w.front.sendPending)
    (source : w.front.sendSource = .command) (awaited : Awaited w.front) :
    (final (frontendAcknowledge host w)).front.dispatch.emitted = false := by
  simp only [Awaited, source] at awaited
  obtain ⟨emitted, kept⟩ := awaited
  unfold frontendAcknowledge
  rw [if_neg (by simp [pending])]
  dsimp only
  rw [source]
  unfold inDispatch
  generalize sdk host _ = engine
  have gone : (final (dispatchAcknowledge engine ⟨w.front.dispatch, w.env⟩)).d.emitted = false :=
    dispatchAcknowledge_emitted _ emitted kept
  cases done : dispatchAcknowledge engine ⟨w.front.dispatch, w.env⟩ <;>
    · rw [done] at gone
      exact gone

/-- The acknowledgement of a packet is taken in the failed phase as in any other. -/
theorem not_latched (failed : w.front.phase = .failed)
    (pending : w.front.sendPending) (awaited : Awaited w.front) :
    ¬Latched host w .acknowledge := by
  intro latched
  obtain ⟨-, phase, -, auth, dispatch, -, -⟩ := latched failed
  rw [run] at phase auth dispatch
  cases source : w.front.sendSource with
  | none => simp only [Awaited, source] at awaited
  | greeting =>
    unfold frontendAcknowledge at phase
    rw [if_neg (by simp [pending])] at phase
    dsimp only at phase
    rw [source] at phase
    cases phase
  | auth =>
    have gone : (final (frontendAcknowledge host w)).front.auth.emitted = false :=
      frontendAcknowledge_auth host pending source awaited
    simp only [Awaited, source] at awaited
    rw [auth, awaited.1] at gone
    cases gone
  | command =>
    have gone : (final (frontendAcknowledge host w)).front.dispatch.emitted = false :=
      frontendAcknowledge_command host pending source awaited
    simp only [Awaited, source] at awaited
    rw [dispatch, awaited.1] at gone
    cases gone

end Steps

section Final

variable (host)

theorem frontRun_append (first second : List FrontCall) (w : FrontWorld σ) :
    frontRun host (first ++ second) w =
      frontRun host second (frontRun host first w) := by
  rw [frontRun, List.foldl_append]
  rfl

theorem frontRun_snoc (calls : List FrontCall) (call : FrontCall) (w : FrontWorld σ) :
    frontRun host (calls ++ [call]) w =
      (call.run host (frontRun host calls w)).2 :=
  frontRun_append host calls [call] w

/-- A packet is acknowledged during whose way a completion of TLS was reported. -/
def Disturbed (calls : List FrontCall) (w : FrontWorld σ) : Prop :=
  ∃ before between after,
    calls = before ++ .tlsReady :: (between ++ .acknowledge :: after) ∧
      (frontRun host before w).front.sendPending = true ∧
      .acknowledge ∉ between

/-- A packet that is out in the failed phase has been disturbed since it went out. -/
theorem exists_tlsReady {w : FrontWorld σ} (started : w.front.phase ≠ .failed)
    (calls : List FrontCall) :
    (frontRun host calls w).front.phase = .failed →
    (frontRun host calls w).front.sendPending →
    ∃ before between, calls = before ++ .tlsReady :: between ∧
      (frontRun host before w).front.sendPending ∧
      .acknowledge ∉ between := by
  induction calls using List.reverseRecOn with
  | nil => exact fun failed _ => absurd failed started
  | append_singleton calls call ih =>
    intro failed pending
    rw [frontRun_snoc] at failed pending
    obtain ⟨before, rfl | ⟨other, failed'⟩⟩ := call.run_failed host failed pending
    · exact ⟨calls, [], by simp, before, by simp⟩
    · obtain ⟨front, between, rfl, out, none⟩ := ih failed' before
      refine ⟨front, between ++ [call], by simp, out, ?_⟩
      simp [none, Ne.symm other]

/-- A disturbed packet stays out in the failed phase until it is acknowledged. -/
theorem frontRun_disturbed {w : FrontWorld σ} (inv : Pending w.front)
    (failed : w.front.phase = .failed) (pending : w.front.sendPending)
    {between : List FrontCall} (none : .acknowledge ∉ between) :
    (frontRun host between w).front.phase = .failed ∧
      (frontRun host between w).front.sendPending := by
  induction between generalizing w with
  | nil => exact ⟨failed, pending⟩
  | cons call between ih =>
    rw [List.mem_cons, not_or] at none
    have latched := latched_of_other host
      (fun h => absurd h.symm none.1) failed
    have out : (call.run host w).2.front.sendPending := by
      cases call with
      | feed bytes => exact (frontendFeed_pending bytes w).trans pending
      | emit capacity =>
        have spec := emits host capacity w
        generalize run host w (.emit capacity) = r at spec
        cases spec with
        | busy before => exact pending
        | packet quiet _ _ after _ => exact after
        | none quiet _ _ =>
          rw [quiet] at pending
          cases pending
      | acknowledge => exact absurd rfl none.1
      | tlsReady => exact (frontendTlsReady_pending w).trans pending
    exact ih (call.run_pending host inv) latched.2.1 out none.2

/-- The failure of a connection is final unless a packet is acknowledged that was disturbed by a
completion of TLS. -/
theorem failure_final_iff {config : FrontendConfig} {inputCapacity scratchCapacity : Nat}
    {nonce : Option Bytes} {front : Front}
    (made : frontendInit config inputCapacity scratchCapacity nonce = .ok front) (env : Env σ)
    (calls : List FrontCall) :
    (∀ before call after, calls = before ++ call :: after →
      Latched host (frontRun host before ⟨front, env, []⟩) call) ↔
      ¬Disturbed host calls ⟨front, env, []⟩ := by
  have fresh := frontendInit_fresh made
  have started : front.phase ≠ .failed := by simp [fresh.phase]
  have inv : Pending front := pending_of_none fresh.quiet
  have reached (before : List FrontCall) :
      Pending (frontRun host before ⟨front, env, []⟩).front :=
    frontRun_pending host inv before
  constructor
  · rintro final ⟨before, between, after, rfl, out, none⟩
    have hit := frontendTlsReady_disturbs (reached before) out
    have struck := frontRun_snoc host before .tlsReady ⟨front, env, []⟩
    rw [run, hit] at struck
    obtain ⟨failed', pending'⟩ := frontRun_disturbed host
      (reached (before ++ [.tlsReady])) (by rw [struck]) (by rw [struck]; exact out) none
    rw [← frontRun_append] at failed' pending'
    have inv'' := reached (before ++ [.tlsReady] ++ between)
    refine not_latched host failed' pending' (inv''.awaited pending') ?_
    exact final (before ++ [.tlsReady] ++ between) .acknowledge after (by simp)
  · intro calm before call after split
    by_cases failed : (frontRun host before ⟨front, env, []⟩).front.phase = .failed
    · refine latched_of_other host fun isAck => ?_
      by_contra pending
      obtain ⟨first, between, rfl, out, none⟩ := exists_tlsReady host started before
        failed (Bool.not_eq_false _ ▸ pending)
      refine calm ⟨first, between, after, ?_, out, none⟩
      rw [split, isAck]
      simp
    · exact fun h => absurd h failed

/-- A host whose backend derives the empty hash from every password and whose sessions count. -/
def Host.counting : Host (Nat × List Handle) where
  backend := ⟨fun _ _ s => (some [], s), fun _ s => (.ok 0, s), fun _ => Sdk.counting⟩
  sizes := ⟨8, 96, 96, 8, 40, 8⟩
  locale := ⟨[46], fun _ => []⟩

def FrontendConfig.single : FrontendConfig where
  policy := ⟨[⟨[0x75], ⟨600000, [], []⟩, 1, 0⟩], 1, [⟨[0x64], some 0⟩]⟩
  registry := ⟨2, 4096, 64, ⟨4, 4, 64, 64, 100, 100⟩⟩
  serverVersion := [0x38]
  connectionId := 1

/-- The greeting is on its way when a completion of TLS is reported; its acknowledgement takes the
connection out of the failed phase. -/
theorem failure_not_final :
    ∃ front, frontendInit .single 1024 1024 (some (List.replicate 20 1)) = .ok front ∧
      let world (calls) := frontRun .counting calls ⟨front, ⟨(0, []), []⟩, []⟩
      (world [.emit 1024, .tlsReady]).front.phase = .failed ∧
      (world [.emit 1024, .tlsReady, .acknowledge]).front.phase = .waitSsl := by
  refine ⟨_, rfl, ?_, ?_⟩ <;> decide

/-- The greeting has arrived when a completion of TLS is reported; the failure stays. -/
theorem failure_final_iff_greeted :
    ∃ front, frontendInit .single 1024 1024 (some (List.replicate 20 1)) = .ok front ∧
      let calls : List FrontCall := [.emit 1024, .acknowledge, .tlsReady, .emit 1024, .acknowledge]
      let world (calls) := frontRun .counting calls ⟨front, ⟨(0, []), []⟩, []⟩
      (world (calls.take 3)).front.phase = .failed ∧ (world calls).front.phase = .failed ∧
      ∀ before call after, calls = before ++ call :: after →
        Latched .counting (world before) call := by
  have made : frontendInit .single 1024 1024 (some (List.replicate 20 1)) = .ok _ := rfl
  refine ⟨_, made, by decide, by decide, (failure_final_iff _ made _ _).mpr ?_⟩
  rintro ⟨before, between, after, split, out, -⟩
  have two : before = [.emit 1024, .acknowledge] := by
    rcases before with _ | ⟨_, _ | ⟨_, _ | ⟨_, _ | ⟨_, _ | ⟨_, _⟩⟩⟩⟩⟩ <;> simp_all
  rw [two] at out
  exact absurd out (by decide)

end Final

end TurboDb.Mysql
