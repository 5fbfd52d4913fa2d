import TurboDb.Mysql.FrontendGate
import TurboDb.Mysql.PacketRoundTrip

/-!
A connection of the server and the chunks in which its bytes arrive.

The server feeds a chunk to the frontend and then does what that asks for until it
waits for bytes again. The network is taken to send every packet. A chunk that is
not consumed to its end closes the connection.

Chunks that end with a message or inside one are served as their single bytes
are. A chunk that goes past the end of a message is not, although the message
may be one without a reply, behind which a client goes on at once.
-/

namespace TurboDb.Mysql

open ByteOrder Effect FrontWorld List

/-- What the server waits for: a chunk, the rest of a reply, or the end. -/
inductive SlotState
  | receiving | busy | closing
  deriving DecidableEq

structure Slot (σ : Type) where
  world : FrontWorld σ
  sent : List Bytes
  state : SlotState

section Slot

variable {σ : Type} (host : Host σ) (outputBytes : Nat)

/-- Do what the frontend asks for, with at most as many packets and handshakes as `rounds`. -/
def slotDrive : Nat → FrontAction → Slot σ → Slot σ
  | _, .receive, slot => { slot with state := .receiving }
  | _, .disconnect, slot => { slot with state := .closing }
  | _, .none, slot => { slot with state := .busy }
  | 0, _, slot => { slot with state := .busy }
  | rounds + 1, .startTls, slot =>
    match frontendTlsReady slot.world with
    | .error _ w => { slot with world := w, state := .closing }
    | .ok action w => slotDrive rounds action { slot with world := w }
  | rounds + 1, .send, slot =>
    match frontendEmit host ⟨some [], outputBytes, 0⟩ slot.world with
    | .error _ w => { slot with world := w, state := .closing }
    | .ok (.send, some out) w =>
      if out.size = 0 ∨ out.size > outputBytes then { slot with world := w, state := .closing }
      else
        let sent := slot.sent ++ [out.data.getD []]
        match frontendAcknowledge host w with
        | .error _ w => ⟨w, sent, .closing⟩
        | .ok action w => slotDrive rounds action ⟨w, sent, slot.state⟩
    | .ok (action, _) w => slotDrive rounds action { slot with world := w }

/-- What follows a feed of `size` bytes that consumed as many as `fed` says. -/
def slotFed (rounds size : Nat) (slot : Slot σ) :
    Nat × EStateM.Result Failure (FrontWorld σ) FrontAction → Slot σ
  | (_, .error _ w) => { slot with world := w, state := .closing }
  | (consumed, .ok action w) =>
    if consumed ≠ size then { slot with world := w, state := .closing }
    else slotDrive host outputBytes rounds action { slot with world := w }

/-- A chunk arrives; a connection that does not wait for one is not given any. -/
def slotReceive (rounds : Nat) (slot : Slot σ) (chunk : Bytes) : Slot σ :=
  if slot.state = .receiving then
    slotFed host outputBytes rounds chunk.length slot
      (frontendFeed host chunk slot.world)
  else slot

def serve (rounds : Nat) (chunks : List Bytes) (slot : Slot σ) : Slot σ :=
  chunks.foldl (slotReceive host outputBytes rounds) slot

end Slot

variable {σ : Type} {host : Host σ} {outputBytes : Nat}

section Input

variable {w : FrontWorld σ}

/-- While the connection can still go on, its assembler waits for bytes. -/
def InputKept (front : Front) : Prop :=
  front.phase ≠ .failed ∨ front.sendPending = true → front.input.Receiving

theorem frontSend_input {source : SendSource} {x : FrontM σ Output}
    (leaves : Leaves (fun w => w.front.input) x) :
    Leaves (fun w : FrontWorld σ => w.front.input) (frontSend source x) := by
  intro w
  have left := leaves w
  unfold frontSend
  cases done : x w <;>
    · rw [done] at left
      exact left

theorem frontendEmit_input (out : Output) :
    Leaves (fun w : FrontWorld σ => w.front.input) (frontendEmit host out) := by
  intro w
  unfold frontendEmit
  split_ifs
  · rfl
  · rfl
  · cases w.front.phase with
    | sendGreeting => exact frontSend_input leaves_attempt w
    | sendAuth => exact frontSend_input (inAuth_leaves fun _ _ => rfl) w
    | sendAuthResult => exact frontSend_input (inAuth_leaves fun _ _ => rfl) w
    | sendCommand =>
      unfold frontCommandEmit inDispatch
      cases dispatchEmit (w.sdk host) host.locale out ⟨w.front.dispatch, w.env⟩ with
      | error e v => rfl
      | ok emission v => cases emission <;> rfl
    | _ => rfl

theorem frontendTlsReady_input :
    Leaves (fun w : FrontWorld σ => w.front.input) frontendTlsReady :=
  frontendTlsReady_leaves fun _ _ _ _ _ _ => rfl

/-- A program that gives the message back to the assembler when it returns. -/
def Releases {α : Type} (x : FrontM σ α) : Prop :=
  ∀ w a w', w.front.input.failure = .ok → x w = .ok a w' → w'.front.input.Receiving

theorem releases_goOn (next : UInt8) (phase : FrontPhase) (action : FrontAction) :
    Releases (frontRelease next >>= fun _ => frontGoOn phase action :
      FrontM σ FrontAction) := by
  intro w a w' fine run
  rw [run_bind] at run
  unfold frontRelease at run
  cases released : frontCodec (inputRelease w.front.input next) with
  | error e =>
    rw [released] at run
    cases run
  | ok input =>
    rw [released] at run
    cases run
    simp only [frontCodec, mapError_eq_ok, inputRelease, bind_eq_ok, pure_eq_ok] at released
    obtain ⟨-, -, -, -, rfl⟩ := released
    exact ⟨packetStreamInit_sound _ _, fine, rfl, Nat.zero_le _⟩

theorem Releases.behind {α β : Type} {x : FrontM σ α}
    {f : α → FrontM σ β} (leaves : Leaves (fun w => w.front.input) x)
    (rest : ∀ a, Releases (f a)) : Releases (x >>= f) := by
  intro w b w' fine run
  have left := leaves w
  rw [run_bind] at run
  cases first : x w with
  | error e v =>
    rw [first] at run
    cases run
  | ok a v =>
    rw [first] at run left
    have same : v.front.input = w.front.input := left
    exact rest a _ _ _ (same ▸ fine) run

/-- A message that was handled is given back; otherwise the connection has failed. -/
theorem frontMessage_kept (message : Bytes) (next : UInt8)
    (quiet : w.front.sendPending = false) (fine : w.front.input.failure = .ok) :
    InputKept (final (frontMessage host message next w)).front := by
  have leaves : Leaves (fun w : FrontWorld σ => w.front.sendPending)
      (frontMessage host message next) := frontMessage_pending message next
  have still := (leaves w).trans quiet
  have record (event : FrontEvent) :
      Leaves (fun w : FrontWorld σ => w.front.input) (record event) := leaves_modify fun _ => rfl
  have ssl : Releases (frontSsl message next : FrontM σ _) :=
    .behind (inNegotiation_leaves fun _ _ => rfl) fun _ => .behind leaves_get fun _ =>
      .behind (record _) fun _ => releases_goOn _ _ _
  have login : Releases (frontLogin message : FrontM σ _) :=
    .behind (inNegotiation_leaves fun _ _ => rfl) fun _ => .behind (record _) fun _ =>
      .behind leaves_get fun _ => .behind (inAuth_leaves fun _ _ => rfl) fun _ =>
        releases_goOn _ _ _
  have password : Releases (frontPassword host message) :=
    .behind leaves_get fun _ => .behind (inAuthWorld_leaves fun _ _ _ _ => rfl) fun _ =>
      .behind (frontAuthDispatch_leaves (fun _ _ _ _ => rfl) fun _ _ => rfl) fun _ =>
        releases_goOn _ _ _
  have command : Releases (frontCommand host message next) :=
    .behind leaves_get fun _ => .behind (record _) fun _ =>
      .behind (inDispatch_leaves fun _ _ _ => rfl) fun _ => releases_goOn _ _ _
  have latch {x : FrontM σ FrontAction} (releases : Releases x)
      (reason : String) (other : (final (frontLatch reason x w)).front.phase ≠ .failed) :
      (final (frontLatch reason x w)).front.input.Receiving := by
    unfold frontLatch at other ⊢
    cases run : x w with
    | ok a w' => exact releases _ _ _ fine run
    | error e w' =>
      rw [run] at other
      exact absurd rfl other
  rintro (other | pending)
  · unfold frontMessage at other ⊢
    cases phase : w.front.phase <;> rw [phase] at other
    case waitSsl => exact latch ssl _ other
    case waitLogin => exact latch login _ other
    case waitPassword => exact latch password _ other
    all_goals exact latch command _ other
  · exact absurd (still.symm.trans pending) (by simp)

theorem inputKept_of_failed {front : Front} (failed : front.phase = .failed)
    (quiet : front.sendPending = false) : InputKept front := by
  rintro (other | pending)
  · exact absurd failed other
  · exact absurd (quiet.symm.trans pending) (by simp)

theorem frontFed_kept {bytes : Bytes} (quiet : w.front.sendPending = false)
    (receiving : w.front.input.Receiving) :
    InputKept (final (frontFed host bytes.length
      (inputFeed w.front.input bytes) w)).front := by
  have cut := inputFeed_cut receiving bytes
  generalize inputFeed w.front.input bytes = fed at cut
  unfold frontFed
  cases cut with
  | more receiving' => exact fun _ => receiving'
  | failed refused =>
    rw [if_neg refused.bad.2, if_pos refused.bad.1]
    exact inputKept_of_failed rfl quiet
  | done failure ready =>
    rw [if_neg (by simp), if_neg (by simp)]
    split_ifs
    · exact inputKept_of_failed rfl quiet
    · cases frontCodec (inputMessage _) with
      | error e => exact inputKept_of_failed rfl quiet
      | ok message => exact frontMessage_kept _ _ quiet failure

variable (host)

theorem FrontCall.run_dead (failed : w.front.phase = .failed)
    (quiet : w.front.sendPending = false) (call : FrontCall) :
    (call.run host w).2.front.phase = .failed ∧
      (call.run host w).2.front.sendPending = false := by
  have latched : Latched host w call :=
    latched_of_other host fun _ => quiet
  have failed' := (latched failed).2.1
  refine ⟨failed', ?_⟩
  by_contra pending
  have before := (FrontCall.run_failed host failed'
    (Bool.eq_true_of_not_eq_false pending)).1
  exact absurd (quiet.symm.trans before) (by simp)

theorem FrontCall.run_kept (kept : InputKept w.front) (call : FrontCall) :
    InputKept (call.run host w).2.front := by
  have others (same : (call.run host w).2.front.input = w.front.input) :
      InputKept (call.run host w).2.front := by
    by_cases alive : w.front.phase ≠ .failed ∨ w.front.sendPending
    · exact fun _ => same ▸ kept alive
    · simp only [not_or, not_not, Bool.not_eq_true] at alive
      obtain ⟨failed, quiet⟩ := FrontCall.run_dead host alive.1 alive.2 call
      exact inputKept_of_failed failed quiet
  cases call with
  | feed bytes =>
    rw [FrontCall.run]
    unfold frontendFeed
    split_ifs with busy receiving
    · exact kept
    · have quiet : w.front.sendPending = false := by simpa using (not_or.mp busy).1
      exact inputKept_of_failed rfl quiet
    · have quiet : w.front.sendPending = false := by simpa using (not_or.mp busy).1
      refine frontFed_kept quiet (kept (.inl fun failed => ?_))
      rw [failed] at receiving
      exact receiving rfl
  | emit capacity =>
    refine others ?_
    rw [FrontCall.run, handedOut_final]
    exact frontendEmit_input _ w
  | acknowledge => exact others (frontendAcknowledge_taken w).2
  | tlsReady => exact others (frontendTlsReady_input w)

theorem frontRun_kept (kept : InputKept w.front) (calls : List FrontCall) :
    InputKept (frontRun host calls w).front := by
  induction calls generalizing w with
  | nil => exact kept
  | cons call calls ih => exact ih (call.run_kept host kept)

end Input

section Serve

/-- A connection that waits for a command, between two messages or inside one. -/
structure FrontWorld.Waiting (w : FrontWorld σ) : Prop where
  phase : w.front.phase = .command
  quiet : w.front.sendPending = false
  input : w.front.input.Receiving

structure FrontWorld.Replying (w : FrontWorld σ) : Prop where
  phase : w.front.phase = .sendCommand
  quiet : w.front.sendPending = false
  input : w.front.input.Receiving

def Slot.Served (slot : Slot σ) : Prop := slot.state = .receiving → slot.world.Waiting

variable {slot : Slot σ} {rounds : Nat}

theorem slotDrive_receive (slot : Slot σ) :
    slotDrive host outputBytes rounds .receive slot =
      { slot with state := .receiving } := by
  cases rounds <;> rfl

theorem slotDrive_disconnect (slot : Slot σ) :
    slotDrive host outputBytes rounds .disconnect slot =
      { slot with state := .closing } := by
  cases rounds <;> rfl

/-- A reply is driven to its end without a look at what arrives. -/
theorem slotDrive_reply (replying : slot.world.Replying) :
    (slotDrive host outputBytes rounds .send slot).Served ∧
      (slotDrive host outputBytes rounds .send slot).world.history =
        slot.world.history := by
  induction rounds generalizing slot with
  | zero => exact ⟨nofun, rfl⟩
  | succ rounds ih =>
    have emit : frontendEmit host ⟨some [], outputBytes, 0⟩ slot.world =
        frontCommandEmit host ⟨some [], outputBytes, 0⟩ slot.world := by
      unfold frontendEmit
      rw [if_neg (by simp), if_neg (by simp [replying.quiet]), replying.phase]
    unfold slotDrive
    rw [emit]
    unfold frontCommandEmit inDispatch
    cases dispatchEmit (slot.world.sdk host) host.locale ⟨some [], outputBytes, 0⟩
        ⟨slot.world.front.dispatch, slot.world.env⟩ with
    | error e v => exact ⟨nofun, rfl⟩
    | ok emission v =>
      cases emission with
      | complete =>
        dsimp only
        rw [slotDrive_receive]
        exact ⟨fun _ => ⟨rfl, replying.quiet, replying.input⟩, rfl⟩
      | disconnect =>
        dsimp only
        rw [slotDrive_disconnect]
        exact ⟨nofun, rfl⟩
      | packet out =>
        dsimp only
        split_ifs
        · exact ⟨nofun, rfl⟩
        · unfold frontendAcknowledge inDispatch
          dsimp only
          cases dispatchAcknowledge _ _ with
          | error e v => exact ⟨nofun, rfl⟩
          | ok a v => exact ih ⟨rfl, rfl, replying.input⟩

/-- The connection was closed with nothing done since `slot`. -/
structure Slot.ClosedAt (slot closed : Slot σ) : Prop where
  state : closed.state = .closing
  history : closed.world.history = slot.world.history
  env : closed.world.env = slot.world.env
  sent : closed.sent = slot.sent

variable (host outputBytes rounds)

/-- What the server does with `p`, and with `p` when more arrives with it. -/
inductive ReceiveCut (slot : Slot σ) (p : Bytes) : Slot σ → Prop
  | more {next : Slot σ} (receiving : next.state = .receiving) (waiting : next.world.Waiting)
      (history : next.world.history = slot.world.history)
      (input : ∀ q, inputFeed slot.world.front.input (p ++ q) =
        (inputFeed next.world.front.input q).after p.length)
      (goesOn : ∀ q, slotReceive host outputBytes rounds slot (p ++ q) =
        slotReceive host outputBytes rounds next q) :
      ReceiveCut slot p next
  | done {next : Slot σ} {event : FrontEvent} (served : next.Served)
      (history : next.world.history = slot.world.history ++ [event])
      (input : ∀ q, (inputFeed slot.world.front.input (p ++ q)).status = .ok ∧
        (inputFeed slot.world.front.input (p ++ q)).consumed = p.length) :
      ReceiveCut slot p next
  | past {next : Slot σ} (closed : slot.ClosedAt next)
      (some : 0 < (inputFeed slot.world.front.input p).consumed)
      (past : (inputFeed slot.world.front.input p).consumed < p.length) :
      ReceiveCut slot p next
  | failed {next : Slot σ} (closed : slot.ClosedAt next)
      (input : ∀ q, (inputFeed slot.world.front.input (p ++ q)).status.Bad)
      (fails : ∀ q, slot.ClosedAt
        (slotReceive host outputBytes rounds slot (p ++ q))) :
      ReceiveCut slot p next

variable {host outputBytes rounds}

variable (host outputBytes rounds) in
/-- What follows the framing of a chunk of `size` bytes. -/
def slotFramed (size : Nat) (fed : InputFeed) (slot : Slot σ) : Slot σ :=
  slotFed host outputBytes rounds size slot
    (fed.consumed, frontFed host size fed slot.world)

theorem slotReceive_eq (receiving : slot.state = .receiving) (waiting : slot.world.Waiting)
    (chunk : Bytes) :
    slotReceive host outputBytes rounds slot chunk =
      slotFramed host outputBytes rounds chunk.length
        (inputFeed slot.world.front.input chunk) slot := by
  unfold slotReceive frontendFeed
  rw [if_pos receiving, if_neg (by simp [waiting.quiet, waiting.phase, FrontPhase.sending]),
    if_neg (by simp [waiting.phase, FrontPhase.receiving])]
  rfl

/-- Bytes that only led to a wait for more may as well have been fed before. -/
theorem slotFramed_after (input : Input) (k size : Nat) (fed : InputFeed) (slot : Slot σ) :
    slotFramed host outputBytes rounds (k + size) (fed.after k) slot =
      slotFramed host outputBytes rounds size fed
        { slot with world.front.input := input } := by
  have same : k + fed.consumed ≠ k + size ↔ fed.consumed ≠ size := by omega
  have front : frontFed host (k + size) (fed.after k) slot.world =
      frontFed host size fed { slot.world with front.input := input } := by
    unfold frontFed
    simp only [InputFeed.after, same]
  unfold slotFramed slotFed
  rw [front]
  cases frontFed host size fed { slot.world with front.input := input } with
  | error e w => rfl
  | ok action w => simp only [InputFeed.after, same]

/-- A command is recorded, and unless it fails a reply is to be sent. -/
theorem frontCommand_spec (message : Bytes) (next : UInt8) {w : FrontWorld σ}
    (phase : w.front.phase = .command) (quiet : w.front.sendPending = false)
    (fine : w.front.input.failure = .ok) :
    (∀ action w', frontMessage host message next w = .ok action w' →
      action = .send ∧ w'.Replying) ∧
      (final (frontMessage host message next w)).history =
        w.history ++ [.command message next] := by
  have command : frontMessage host message next w =
      frontLatch "command admission failed" (frontCommand host message next) w := by
    unfold frontMessage
    rw [phase]
  have recorded : frontCommand host message next w =
      (inDispatch (dispatchAccept (w.sdk host) host.sizes host.locale message next) >>= fun _ =>
        frontRelease 0 >>= fun _ => frontGoOn .sendCommand .send)
        { w with history := w.history ++ [.command message next] } := rfl
  constructor
  · intro action w' run
    have kept : InputKept (final (frontMessage host message next w)).front :=
      frontMessage_kept message next quiet fine
    have leaves : Leaves (fun w : FrontWorld σ => w.front.sendPending)
        (frontMessage host message next) := frontMessage_pending message next
    have still := (leaves w).trans quiet
    rw [run] at kept still
    rw [command, frontLatch_eq_ok, recorded, run_bind_eq_ok] at run
    obtain ⟨_, v, -, run⟩ := run
    obtain ⟨_, u, -, goOn⟩ := run_bind_eq_ok.mp run
    obtain ⟨rfl, rfl⟩ := EStateM.Result.ok.inj goOn
    exact ⟨rfl, rfl, still, kept (.inl nofun)⟩
  · have leaves : Leaves (fun w : FrontWorld σ => w.history)
        (inDispatch (dispatchAccept (w.sdk host) host.sizes host.locale message next) >>= fun _ =>
          frontRelease 0 >>= fun _ => frontGoOn .sendCommand .send) :=
      (inDispatch_leaves fun _ _ _ => rfl).bind fun _ =>
        (frontRelease_leaves (fun _ _ => rfl) 0).bind fun _ =>
          Leaves.bind (leaves_modify fun _ => rfl) fun _ => leaves_pure _
    have left := leaves { w with history := w.history ++ [.command message next] }
    rw [command]
    unfold frontLatch
    rw [recorded]
    generalize (inDispatch (dispatchAccept (w.sdk host) host.sizes host.locale message next) >>= fun _ =>
      frontRelease 0 >>= fun _ => frontGoOn .sendCommand .send)
        { w with history := w.history ++ [.command message next] } = result at left ⊢
    cases result <;> exact left

theorem slotFramed_done {next : Input} (waiting : slot.world.Waiting) (failure : next.failure = .ok)
    (ready : next.ready) (size : Nat) :
    let after := slotFramed host outputBytes rounds size ⟨next, size, .ok⟩ slot
    after.Served ∧ after.world.history = slot.world.history ++
      [.command next.storage next.stream.expectedSequence] := by
  have message : frontCodec (inputMessage next) = .ok next.storage := by
    simp [inputMessage, failure, ready, reject, frontCodec, pure, Except.pure, bind, Except.bind,
      Except.mapError]
  generalize made : ({ slot.world with front.input := next } : FrontWorld σ) = w
  have phase : w.front.phase = .command := by rw [← made]; exact waiting.phase
  have quiet : w.front.sendPending = false := by rw [← made]; exact waiting.quiet
  have fine : w.front.input.failure = .ok := by rw [← made]; exact failure
  have before : w.history = slot.world.history := by rw [← made]
  have framed : frontFed host size ⟨next, size, .ok⟩ slot.world =
      frontMessage host next.storage next.stream.expectedSequence w := by
    unfold frontFed
    simp [message, made]
  have spec : _ ∧ (final (frontMessage host next.storage
      next.stream.expectedSequence w)).history = _ :=
    frontCommand_spec next.storage next.stream.expectedSequence phase quiet fine
  obtain ⟨reply, history⟩ := spec
  rw [before] at history
  unfold slotFramed slotFed
  rw [framed]
  cases run : frontMessage host next.storage next.stream.expectedSequence w with
  | error e w' =>
    rw [run] at history
    exact ⟨by rintro ⟨⟩, history⟩
  | ok action w' =>
    obtain ⟨rfl, replying⟩ := reply action w' run
    rw [run] at history
    dsimp only
    rw [if_neg (by simp)]
    have driven : (slotDrive host outputBytes rounds .send
        { slot with world := w' }).Served ∧ _ := slotDrive_reply replying
    exact ⟨driven.1, driven.2.trans history⟩

theorem slotReceive_cut (receiving : slot.state = .receiving) (waiting : slot.world.Waiting)
    (p : Bytes) :
    ReceiveCut host outputBytes rounds slot p
      (slotReceive host outputBytes rounds slot p) := by
  have framed (q : Bytes) : slotReceive host outputBytes rounds slot q =
      slotFramed host outputBytes rounds q.length
        (inputFeed slot.world.front.input q) slot := slotReceive_eq receiving waiting q
  have bad {q : Bytes} (bad : (inputFeed slot.world.front.input q).status.Bad) :
      slot.ClosedAt (slotReceive host outputBytes rounds slot q) := by
    rw [framed]
    unfold slotFramed frontFed
    rw [if_neg bad.2, if_pos bad.1]
    exact ⟨rfl, rfl, rfl, rfl⟩
  have cut := inputFeed_cut waiting.input p
  generalize isFed : inputFeed slot.world.front.input p = fed at cut
  cases cut with
  | @more next receiving' _ goesOn =>
    have here : slotReceive host outputBytes rounds slot p =
        { slot with world.front.input := next } := by
      rw [framed, isFed]
      simp [slotFramed, frontFed, slotFed, slotDrive_receive, receiving]
    have waiting' : ({ slot with world.front.input := next } : Slot σ).world.Waiting :=
      ⟨waiting.phase, waiting.quiet, receiving'⟩
    rw [here]
    generalize made : ({ slot with world.front.input := next } : Slot σ) = slot' at waiting'
    have receiving'' : slot'.state = .receiving := by rw [← made]; exact receiving
    have input : slot'.world.front.input = next := by rw [← made]
    have history : slot'.world.history = slot.world.history := by rw [← made]
    refine .more receiving'' waiting' history (input ▸ goesOn) fun q => ?_
    rw [framed, goesOn q, length_append, slotReceive_eq receiving'' waiting', input, ← made]
    exact slotFramed_after _ _ _ _ _
  | @done next k failure ready some within same =>
    by_cases all : k = p.length
    · subst all
      rw [framed, isFed]
      obtain ⟨served, history⟩ := slotFramed_done waiting failure ready p.length
      exact .done served history fun q => by simp [same]
    · refine .past ?_ (isFed ▸ some) (isFed ▸ lt_of_le_of_ne within all)
      rw [framed, isFed]
      unfold slotFramed frontFed
      rw [if_neg (by simp), if_neg (by simp), if_pos all]
      exact ⟨rfl, rfl, rfl, rfl⟩
  | failed refused fails =>
    have fails' (q : Bytes) : (inputFeed slot.world.front.input (p ++ q)).status.Bad :=
      (fails q).symm ▸ refused.bad
    exact .failed (bad (isFed ▸ refused.bad)) fails' fun q => bad (fails' q)

theorem Slot.Served.receive (served : slot.Served) (p : Bytes) :
    (slotReceive host outputBytes rounds slot p).Served := by
  by_cases receiving : slot.state = .receiving
  · have cut : ReceiveCut host outputBytes rounds slot p _ :=
      slotReceive_cut receiving (served receiving) p
    cases cut with
    | more _ waiting => exact fun _ => waiting
    | done served => exact served
    | past closed => exact fun receiving => absurd (closed.state.symm.trans receiving) (by simp)
    | failed closed => exact fun receiving => absurd (closed.state.symm.trans receiving) (by simp)
  · rw [slotReceive, if_neg receiving]
    exact served

theorem Slot.Served.serve (served : slot.Served) (chunks : List Bytes) :
    (serve host outputBytes rounds chunks slot).Served := by
  induction chunks generalizing slot with
  | nil => exact served
  | cons chunk chunks ih => exact ih (served.receive chunk)

theorem serve_idle (idle : slot.state ≠ .receiving) (chunks : List Bytes) :
    serve host outputBytes rounds chunks slot = slot := by
  induction chunks with
  | nil => rfl
  | cons chunk chunks ih =>
    rw [serve, foldl_cons, slotReceive, if_neg idle]
    exact ih

theorem serve_append (first second : List Bytes) (slot : Slot σ) :
    serve host outputBytes rounds (first ++ second) slot =
      serve host outputBytes rounds second
        (serve host outputBytes rounds first slot) := foldl_append

/-- What is seen of a connection: the commands it was given, what it asked the engine for, the
packets it sent and whether it is open. -/
def Slot.observed (slot : Slot σ) : List FrontEvent × Env σ × List Bytes × SlotState :=
  (slot.world.history, slot.world.env, slot.sent, slot.state)

/-- The same connection, or two that were closed in the same place. -/
inductive Slot.Alike : Slot σ → Slot σ → Prop
  | same (slot : Slot σ) : Alike slot slot
  | closed {slot a b : Slot σ} (left : slot.ClosedAt a) (right : slot.ClosedAt b) : Alike a b

theorem Slot.Alike.observed {a b : Slot σ} (alike : a.Alike b) : a.observed = b.observed := by
  cases alike with
  | same => rfl
  | closed left right =>
    rw [Slot.observed, Slot.observed, left.history, left.env, left.sent, left.state,
      right.history, right.env, right.sent, right.state]

/-- The chunk completes a message and goes on behind its frame. -/
def Slot.PastEnd (slot : Slot σ) (chunk : Bytes) : Prop :=
  slot.state = .receiving ∧ (inputFeed slot.world.front.input chunk).status = .ok ∧
    (inputFeed slot.world.front.input chunk).consumed < chunk.length

/-- A message ends where its frame does; `got` is what the connection has read of the frame. -/
theorem Slot.pastEnd_iff {capacity : Nat} {sequence : UInt8} {start : Input}
    {payload got chunk behind : Bytes} (receiving : slot.state = .receiving)
    (init : inputInit capacity sequence = .ok start) (fits : payload.length ≤ capacity)
    (read : inputFeed start got = ⟨slot.world.front.input, got.length, .needMore⟩)
    (coming : got ++ chunk <+: frame payload sequence ++ behind) :
    slot.PastEnd chunk ↔ (frame payload sequence).length < got.length + chunk.length := by
  obtain ⟨fresh, rfl, whole⟩ := inputFeed_frame init payload behind
  obtain ⟨later, same⟩ := coming
  rw [← same, append_assoc, ReadBack, if_pos fits] at whole
  rw [Slot.PastEnd, and_iff_right receiving]
  have first := inputFeed_cut fresh got
  rw [read] at first
  generalize slot.world.front.input = input at *
  cases first with
  | failed refused => exact absurd rfl refused.bad.2
  | more receiving _ goesOn =>
    obtain ⟨consumed, status, -⟩ := whole
    rw [goesOn, InputFeed.after] at consumed status
    have cut := inputFeed_cut receiving chunk
    generalize inputFeed input chunk = fed at cut
    cases cut with
    | more _ _ goesOn =>
      rw [goesOn, InputFeed.after] at consumed
      simp [← consumed]
    | done _ _ _ _ same =>
      rw [same] at consumed
      simp [← consumed]
    | failed refused fails =>
      rw [fails] at status
      exact absurd status refused.bad.1

/-- A chunk that goes past the end of a message closes the connection. -/
theorem Slot.PastEnd.closes {chunk : Bytes} (past : slot.PastEnd chunk) (served : slot.Served) :
    slot.ClosedAt (slotReceive host outputBytes rounds slot chunk) := by
  have cut : ReceiveCut host outputBytes rounds slot chunk _ :=
    slotReceive_cut past.1 (served past.1) chunk
  obtain ⟨-, status, consumed⟩ := past
  cases cut with
  | more _ waiting _ input =>
    rw [← append_nil chunk, input, inputFeed_loop waiting.input, inputFeedLoop_nil] at status
    cases status
  | done _ _ input =>
    have all := (input []).2
    rw [append_nil] at all
    exact absurd consumed (by rw [all]; exact lt_irrefl _)
  | past closed => exact closed
  | failed closed => exact closed

section Served

variable (served : slot.Served)
include served

theorem slotReceive_nil : slotReceive host outputBytes rounds slot [] = slot := by
  by_cases receiving : slot.state = .receiving
  · have waiting := served receiving
    have fed : inputFeed slot.world.front.input [] = ⟨slot.world.front.input, 0, .needMore⟩ := by
      rw [inputFeed_loop waiting.input, inputFeedLoop_nil]
    rw [slotReceive_eq receiving waiting, fed]
    simp [slotFramed, frontFed, slotFed, slotDrive_receive, ← receiving]
  · rw [slotReceive, if_neg receiving]

theorem slotReceive_bytes (chunk : Bytes) (short : ¬slot.PastEnd chunk) :
    (slotReceive host outputBytes rounds slot chunk).Alike
      (serve host outputBytes rounds (chunk.map ([·])) slot) := by
  induction chunk generalizing slot with
  | nil =>
    rw [slotReceive_nil served]
    exact .same slot
  | cons byte rest ih =>
    by_cases receiving : slot.state = .receiving
    · have cut : ReceiveCut host outputBytes rounds slot [byte] _ :=
        slotReceive_cut receiving (served receiving) [byte]
      rw [map_cons, serve, foldl_cons]
      change Slot.Alike _ (serve host outputBytes rounds _ _)
      generalize isNext : slotReceive host outputBytes rounds slot [byte] = next
        at cut
      cases cut with
      | more receiving' waiting history input goesOn =>
        have whole := goesOn rest
        rw [singleton_append] at whole
        rw [whole]
        refine ih (fun _ => waiting) fun past => short ⟨receiving, ?_⟩
        rw [← singleton_append, input]
        refine ⟨past.2.1, ?_⟩
        rw [InputFeed.after, length_append]
        exact Nat.add_lt_add_left past.2.2 1
      | done served history input =>
        -- The message ends here, so that a chunk that does not go past it ends here too.
        have nil : rest = [] := by
          by_contra more
          obtain ⟨status, consumed⟩ := input rest
          rw [singleton_append] at status consumed
          refine short ⟨receiving, status, ?_⟩
          rw [consumed]
          simpa using length_pos_iff.mpr more
        subst nil
        rw [isNext]
        exact .same next
      | past closed some past =>
        exact absurd past (Nat.not_lt.mpr some)
      | failed closed input fails =>
        have whole := fails rest
        rw [serve_idle (by rw [closed.state]; simp)]
        exact .closed whole closed
    · rw [serve_idle receiving, slotReceive, if_neg receiving]
      exact .same slot

theorem serve_history (chunks : List Bytes) :
    slot.world.history.length ≤
      (serve host outputBytes rounds chunks slot).world.history.length := by
  induction chunks generalizing slot with
  | nil => exact le_rfl
  | cons chunk chunks ih =>
    refine le_trans ?_ (ih (served.receive chunk))
    by_cases receiving : slot.state = .receiving
    · have cut : ReceiveCut host outputBytes rounds slot chunk _ :=
        slotReceive_cut receiving (served receiving) chunk
      cases cut with
      | more _ _ history => rw [history]
      | done _ history => simp [history]
      | past closed => rw [closed.history]
      | failed closed => rw [closed.history]
    · rw [slotReceive, if_neg receiving]

/-- Bytes that hold a message have it handled, one by one. -/
theorem serve_bytes_history (receiving : slot.state = .receiving) {chunk : Bytes}
    (whole : (inputFeed slot.world.front.input chunk).status = .ok) :
    slot.world.history.length <
      (serve host outputBytes rounds (chunk.map ([·])) slot).world.history.length := by
  induction chunk generalizing slot with
  | nil =>
    rw [inputFeed_loop (served receiving).input, inputFeedLoop_nil] at whole
    cases whole
  | cons byte rest ih =>
    have cut : ReceiveCut host outputBytes rounds slot [byte] _ :=
      slotReceive_cut receiving (served receiving) [byte]
    rw [map_cons, serve, foldl_cons]
    rw [← singleton_append] at whole
    cases cut with
    | more receiving' waiting history input =>
      rw [input] at whole
      rw [← history]
      exact ih (fun _ => waiting) receiving' whole
    | done served' history =>
      refine lt_of_lt_of_le ?_ (serve_history served' _)
      simp [history]
    | past closed some past => exact absurd past (Nat.not_lt.mpr some)
    | failed closed input => exact absurd whole (input rest).1

end Served

variable (host outputBytes rounds) in
def Overruns : List Bytes → Slot σ → Prop
  | [], _ => False
  | chunk :: chunks, slot =>
    slot.PastEnd chunk ∨
      Overruns chunks (slotReceive host outputBytes rounds slot chunk)

theorem not_overruns_idle (idle : slot.state ≠ .receiving) (chunks : List Bytes) :
    ¬Overruns host outputBytes rounds chunks slot := by
  induction chunks with
  | nil => exact id
  | cons chunk chunks ih =>
    rintro (past | rest)
    · exact idle past.1
    · rw [slotReceive, if_neg idle] at rest
      exact ih rest

theorem serve_observed_iff (served : slot.Served) (chunks : List Bytes) :
    (serve host outputBytes rounds chunks slot).observed =
        (serve host outputBytes rounds (chunks.flatten.map ([·])) slot).observed ↔
      ¬Overruns host outputBytes rounds chunks slot := by
  induction chunks generalizing slot with
  | nil => exact ⟨fun _ => id, fun _ => rfl⟩
  | cons chunk chunks ih =>
    rw [flatten_cons, map_append, serve_append]
    change (serve host outputBytes rounds chunks
      (slotReceive host outputBytes rounds slot chunk)).observed = _ ↔ ¬(_ ∨ _)
    by_cases past : slot.PastEnd chunk
    · refine ⟨fun same => ?_, fun none => absurd (.inl past) none⟩
      have served' : (serve host outputBytes rounds (chunk.map ([·])) slot).Served :=
        served.serve _
      have longer : slot.world.history.length <
          (serve host outputBytes rounds (chunks.flatten.map ([·]))
            (serve host outputBytes rounds (chunk.map ([·])) slot)).world.history.length :=
        lt_of_lt_of_le (serve_bytes_history served past.1 past.2.1) (serve_history served' _)
      have closed : slot.ClosedAt (slotReceive host outputBytes rounds slot chunk) :=
        past.closes served
      rw [serve_idle (by simp [closed.state])] at same
      have history := congrArg (fun seen => seen.1.length) same
      simp only [Slot.observed, closed.history] at history
      exact absurd (history ▸ longer) (lt_irrefl _)
    · have alike : (slotReceive host outputBytes rounds slot chunk).Alike _ :=
        slotReceive_bytes served chunk past
      have served' : (slotReceive host outputBytes rounds slot chunk).Served :=
        served.receive chunk
      rw [or_iff_right past]
      generalize slotReceive host outputBytes rounds slot chunk = next at *
      cases alike with
      | same => exact ih served'
      | closed left right =>
        have idle : next.state ≠ .receiving := by simp [left.state]
        rw [serve_idle idle, serve_idle (by simp [right.state])]
        exact iff_of_true (Slot.Alike.closed left right).observed (not_overruns_idle idle chunks)

variable (host outputBytes rounds)

/-- A connection that waits for a command does the same whatever the chunks are in which its bytes
arrive, as long as no chunk goes past the end of a message. -/
theorem chunks_alike_iff {config : FrontendConfig} {inputCapacity scratchCapacity : Nat}
    {nonce : Option Bytes} {front : Front}
    (made : frontendInit config inputCapacity scratchCapacity nonce = .ok front) (env : Env σ)
    (calls : List FrontCall)
    (waits : (frontRun host calls ⟨front, env, []⟩).front.phase = .command)
    (chunks : List Bytes) :
    let slot : Slot σ := ⟨frontRun host calls ⟨front, env, []⟩, [], .receiving⟩
    (serve host outputBytes rounds chunks slot).observed =
        (serve host outputBytes rounds (chunks.flatten.map ([·])) slot).observed ↔
      ¬Overruns host outputBytes rounds chunks slot := by
  intro slot
  have fresh := frontendInit_fresh made
  have pending : Pending slot.world.front :=
    frontRun_pending host (pending_of_none fresh.quiet) calls
  obtain ⟨failure, ready, storage, stream⟩ := fresh.input
  have kept : InputKept slot.world.front :=
    frontRun_kept host
      (fun _ => ⟨stream ▸ packetStreamInit_sound _ _, failure, ready, storage ▸ Nat.zero_le _⟩) calls
  have quiet : slot.world.front.sendPending = false := by
    by_contra out
    rcases pending.phase (Bool.eq_true_of_not_eq_false out) with sending | failed
    · rw [waits] at sending
      cases sending
    · rw [waits] at failed
      cases failed
  exact serve_observed_iff (fun _ => ⟨waits, quiet, kept (.inl (by rw [waits]; nofun))⟩) chunks

/-- A request to close a statement, to which there is no reply, and a ping. -/
def closeThenPing : List Bytes :=
  [[5, 0, 0, 0, 0x19, 1, 0, 0, 0], [1, 0, 0, 0, 0x0E]]

/-- Two commands that arrive one after the other are both handled; in one chunk they end the
connection, although the client was free to send the second. -/
theorem chunks_not_alike :
    ∃ front, frontendInit .single 1024 1024 (some (replicate 20 1)) = .ok front ∧
      let slot : Slot (Nat × List Handle) :=
        ⟨frontRun .counting loginCalls ⟨front, ⟨(0, []), []⟩, []⟩, [], .receiving⟩
      (serve .counting 1024 8 closeThenPing slot).state = .receiving ∧
        (serve .counting 1024 8 [closeThenPing.flatten] slot).state = .closing := by
  refine ⟨_, rfl, ?_⟩
  decide +kernel

theorem chunks_alike_iff_ping :
    ∃ front, frontendInit .single 1024 1024 (some (replicate 20 1)) = .ok front ∧
      let slot : Slot (Nat × List Handle) :=
        ⟨frontRun .counting loginCalls ⟨front, ⟨(0, []), []⟩, []⟩, [], .receiving⟩
      (serve .counting 1024 8 closeThenPing slot).observed =
        (serve .counting 1024 8 (closeThenPing.flatten.map ([·])) slot).observed := by
  obtain ⟨front, made⟩ : ∃ front, frontendInit .single 1024 1024 (some (replicate 20 1)) =
      .ok front := ⟨_, rfl⟩
  refine ⟨front, made, (chunks_alike_iff _ _ _ made _ loginCalls ?_ closeThenPing).mpr ?_⟩
  · cases made
    decide +kernel
  · cases made
    unfold closeThenPing
    simp only [Overruns, Slot.PastEnd]
    decide +kernel

end Serve

end TurboDb.Mysql
