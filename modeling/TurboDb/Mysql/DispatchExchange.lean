import TurboDb.Mysql.DispatchAccept

/-!
The reply to a command, as it goes over the wire.

A command is accepted in any state that calls lead to, and then emits and
acknowledgements are made in any order, with outputs of any capacity. What has
been acknowledged are packets with consecutive numbers whose payloads are the
responses of one reply.
-/

namespace TurboDb.Mysql

open ByteOrder Effect Grammar List

/-- The payloads of the packets that a message is cut into. -/
def chunks : Nat → Bytes → List Bytes
  | 0, _ => []
  | packets + 1, payload =>
    payload.take packetMaxPayload :: chunks packets (payload.drop packetMaxPayload)

def split (payload : Bytes) : List Bytes := chunks (framePackets payload.length) payload

def packets : UInt8 → List Bytes → Bytes
  | _, [] => []
  | sequence, chunk :: chunks =>
    Wire.write 3 (UInt64.ofNat chunk.length) ++ sequence :: (chunk ++ packets (sequence + 1) chunks)

theorem length_chunks (count : Nat) (payload : Bytes) : (chunks count payload).length = count := by
  induction count generalizing payload with
  | zero => rfl
  | succ count ih => simp [chunks, ih]

theorem frameLoop_eq (count : Nat) (payload : Bytes) (sequence : UInt8) :
    (frameLoop count payload sequence).1 = packets sequence (chunks count payload) := by
  induction count generalizing payload sequence with
  | zero => rfl
  | succ count ih => rw [frameLoop_succ, chunks, packets, ← ih]

theorem frame_eq (payload : Bytes) (sequence : UInt8) :
    frame payload sequence = packets sequence (split payload) := frameLoop_eq _ _ _

theorem frameNext_eq (payload : Bytes) (sequence : UInt8) :
    frameNext payload sequence = sequence + UInt8.ofNat (split payload).length := by
  rw [frameNext, frameLoop_next, split, length_chunks]

theorem packets_append (sequence : UInt8) (first second : List Bytes) :
    packets sequence (first ++ second) =
      packets sequence first ++ packets (sequence + UInt8.ofNat first.length) second := by
  induction first generalizing sequence with
  | nil => simp [packets]
  | cons chunk chunks ih =>
    have next : sequence + 1 + UInt8.ofNat chunks.length =
        sequence + UInt8.ofNat (chunk :: chunks).length := by
      rw [length_cons, UInt8.ofNat_add, UInt8.add_assoc, UInt8.add_comm 1]
      rfl
    simp only [cons_append, packets, ih, next, append_assoc]

variable {next : UInt8} {capacity : Nat} {phase : Phase}

theorem frameEncode_ok {payload bytes : Bytes} {sequence : UInt8} {size : Nat} {out : Output}
    (framed : frameEncode payload sequence ⟨some bytes, capacity, size⟩ = .ok (out, next)) :
    out.data = some (frame payload sequence) ∧ next = frameNext payload sequence := by
  simp only [frameEncode, bind_eq_ok, pure_eq_ok, Prod.mk.injEq] at framed
  obtain ⟨-, -, -, -, rfl, rfl⟩ := framed
  exact ⟨rfl, rfl⟩

variable {σ : Type} {S : Setting σ} {deprecated : Bool} {kind : Option CommandKind}
  {items : List Response} {outgoing : Option Response} {since : List SqlEvent} {w : DispatchWorld σ}

section Exchange

variable (S)

inductive ReplyCall
  | emit (capacity : Nat)
  | acknowledge

/-- A reply seen from outside: the packet that was handed out last and those acknowledged. -/
structure Exchange (σ : Type) where
  world : DispatchWorld σ
  outgoing : Option Bytes
  sent : List Bytes

def Exchange.step (x : Exchange σ) : ReplyCall → Exchange σ
  | .emit capacity =>
    match dispatchEmit S.sdk S.locale ⟨some [], capacity, 0⟩ x.world with
    | .ok (.packet out) world => { x with world, outgoing := out.data }
    | .ok _ world => { x with world }
    | .error _ world => { x with world }
  | .acknowledge =>
    match dispatchAcknowledge S.sdk x.world with
    | .ok _ world => ⟨world, none, x.sent ++ x.outgoing.toList⟩
    | .error _ world => { x with world }

def Exchange.run (x : Exchange σ) (calls : List ReplyCall) : Exchange σ :=
  calls.foldl (Exchange.step S) x

def Encodes (r : Response) (payload : Bytes) : Prop :=
  ∃ capacity, dispatchEncode S.locale capacity r = .ok payload

def Follows (deprecated : Bool) (kind : Option CommandKind) (start : UInt8)
    (before : List SqlEvent) (x : Exchange σ) : Prop :=
  ∃ items payloads outgoing since, Course S deprecated kind items outgoing since x.world ∧
    x.world.env.log = before ++ since ∧ List.Forall₂ (Encodes S) items payloads ∧
    x.sent.flatten = packets start (payloads.flatMap split) ∧
    x.world.d.sequence = start + UInt8.ofNat (payloads.flatMap split).length ∧
    (x.world.d.emitted = true →
      x.outgoing = some (frame x.world.d.payload x.world.d.sequence) ∧
        x.world.d.nextSequence = frameNext x.world.d.payload x.world.d.sequence)

variable {S} {start : UInt8} {before : List SqlEvent} {x : Exchange σ}

/-- An emit that has a payload frames it or finds the output too small. -/
theorem dispatchFrame_spec (w : DispatchWorld σ) (capacity : Nat) :
    match dispatchFrame ⟨some [], capacity, 0⟩ w with
    | .ok e w' => ∃ out, e = .packet out ∧ out.data = some (frame w.d.payload w.d.sequence) ∧
      w' = { w with d := { w.d with
        nextSequence := frameNext w.d.payload w.d.sequence
        emitted := true } }
    | .error _ w' => w' = w := by
  unfold dispatchFrame
  cases framed : frameEncode w.d.payload w.d.sequence ⟨some [], capacity, 0⟩ with
  | error status => exact rfl
  | ok result =>
    obtain ⟨out, next⟩ := result
    obtain ⟨data, rfl⟩ := frameEncode_ok framed
    exact ⟨out, rfl, data, rfl⟩

theorem Course.fill_any {items : List Response} {outgoing : Option Response}
    {since : List SqlEvent} {w : DispatchWorld σ}
    (course : Course S deprecated kind items outgoing since w) (going : w.d.phase.over = false)
    (quiet : w.d.emitted = false) :
    ∃ more r w', dispatchFill S.sdk S.locale w = .ok () w' ∧ w'.env.log = w.env.log ++ more ∧
      w'.d.sequence = w.d.sequence ∧ w'.d.emitted = false ∧
      Course S deprecated kind items (some r) (since ++ more) w' := by
  cases outgoing with
  | none => exact course.fill going quiet
  | some r =>
    have pending : w.d.pending := course.pending
    refine ⟨[], r, w, ?_, (append_nil _).symm, rfl, quiet, by rwa [append_nil]⟩
    unfold dispatchFill
    rw [if_pos pending]

theorem Course.framed {items : List Response} {r : Response} {since : List SqlEvent}
    {w : DispatchWorld σ} (course : Course S deprecated kind items (some r) since w) :
    Course S deprecated kind items (some r) since
      { w with d := { w.d with nextSequence := next, emitted := true } } where
  tracked := course.tracked.congr rfl rfl rfl
  owner := course.owner
  inPhase := course.inPhase
  scratch := course.scratch
  room := course.room
  eof := course.eof
  pending := course.pending
  emitted := fun _ => rfl
  payload := course.payload
  code := course.code
  expects := course.expects
  held := course.held
  balanced := course.balanced
  rows := ⟨course.rows.sent, course.rows.active, course.rows.ending, course.rows.counted,
    course.rows.past⟩

theorem Phase.over_cases (past : phase.over) : phase = .idle ∨ phase = .terminal := by
  cases phase <;> first | exact .inl rfl | exact .inr rfl | exact Bool.noConfusion past

theorem dispatchEmit_busy (scratch : w.d.scratch) (busy : w.d.emitted)
    (capacity : Nat) :
    ∃ e, dispatchEmit S.sdk S.locale ⟨some [], capacity, 0⟩ w = .error e w := by
  unfold dispatchEmit
  rw [if_neg (by simp [scratch]), if_pos busy]
  exact ⟨_, rfl⟩

theorem dispatchEmit_over (scratch : w.d.scratch) (quiet : w.d.emitted = false)
    (past : w.d.phase.over) (capacity : Nat) :
    ∃ e, dispatchEmit S.sdk S.locale ⟨some [], capacity, 0⟩ w = .ok e w ∧ ∀ out, e ≠ .packet out := by
  unfold dispatchEmit
  rw [if_neg (by simp [scratch]), if_neg (by simp [quiet])]
  obtain idle | terminal := Phase.over_cases past
  · rw [if_pos idle]
    exact ⟨.complete, rfl, nofun⟩
  · rw [if_neg (by simp [terminal]), if_pos terminal]
    exact ⟨.disconnect, rfl, nofun⟩

theorem dispatchEmit_due (scratch : w.d.scratch) (quiet : w.d.emitted = false)
    (going : w.d.phase.over = false) (capacity : Nat) :
    dispatchEmit S.sdk S.locale ⟨some [], capacity, 0⟩ w =
      (dispatchFill S.sdk S.locale >>= fun _ => dispatchFrame ⟨some [], capacity, 0⟩) w := by
  have idle : w.d.phase ≠ .idle := fun h => by
    rw [h] at going
    cases going
  have terminal : w.d.phase ≠ .terminal := fun h => by
    rw [h] at going
    cases going
  unfold dispatchEmit
  rw [if_neg (by simp [scratch]), if_neg (by simp [quiet]), if_neg idle, if_neg terminal]

/-- An emit keeps to the reply; the world changes only if a packet is due. -/
theorem dispatchEmit_spec (course : Course S deprecated kind items outgoing since w)
    (capacity : Nat) :
    match dispatchEmit S.sdk S.locale ⟨some [], capacity, 0⟩ w with
    | .ok (.packet out) w' => ∃ more r, w'.env.log = w.env.log ++ more ∧
      Course S deprecated kind items (some r) (since ++ more) w' ∧
      w'.d.sequence = w.d.sequence ∧ out.data = some (frame w'.d.payload w'.d.sequence) ∧
      w'.d.nextSequence = frameNext w'.d.payload w'.d.sequence
    | .ok _ w' => w' = w
    | .error _ w' => w' = w ∨ ∃ more r, w'.env.log = w.env.log ++ more ∧
      Course S deprecated kind items (some r) (since ++ more) w' ∧
      w'.d.sequence = w.d.sequence ∧ w'.d.emitted = false := by
  by_cases busy : w.d.emitted
  · obtain ⟨e, refused⟩ := dispatchEmit_busy course.scratch busy capacity
    rw [refused]
    exact .inl rfl
  by_cases past : w.d.phase.over
  · obtain ⟨e, done, other⟩ := dispatchEmit_over course.scratch (Bool.eq_false_iff.mpr busy) past capacity
    rw [done]
    cases e with
    | packet out => exact absurd rfl (other out)
    | complete | disconnect => rfl
  have going := Bool.eq_false_iff.mpr past
  obtain ⟨more, r, w1, filled, log, sequence, quiet, course1⟩ :=
    course.fill_any going (Bool.eq_false_iff.mpr busy)
  rw [dispatchEmit_due course.scratch (Bool.eq_false_iff.mpr busy) going, run_bind_ok filled]
  have framed := dispatchFrame_spec w1 capacity
  cases done : dispatchFrame ⟨some [], capacity, 0⟩ w1 with
  | error e w' =>
    rw [done] at framed
    obtain rfl : w' = w1 := framed
    exact .inr ⟨more, r, log, course1, sequence, quiet⟩
  | ok e w' =>
    rw [done] at framed
    obtain ⟨out, rfl, data, rfl⟩ := framed
    exact ⟨more, r, log, course1.framed, sequence, data, rfl⟩

theorem dispatchAcknowledge_refused (quiet : w.d.emitted = false) :
    ∃ e, dispatchAcknowledge S.sdk w = .error e w := by
  unfold dispatchAcknowledge
  rw [if_pos (.inl quiet)]
  exact ⟨_, rfl⟩

section Follows

variable (follows : Follows S deprecated kind start before x)
include follows

theorem Follows.emit (capacity : Nat) :
    Follows S deprecated kind start before (x.step S (.emit capacity)) := by
  obtain ⟨items, payloads, outgoing, since, course, log, encodes, sent, sequence, emitted⟩ := follows
  have same : Follows S deprecated kind start before { x with world := x.world } :=
    ⟨items, payloads, outgoing, since, course, log, encodes, sent, sequence, emitted⟩
  have spec := dispatchEmit_spec course capacity
  rw [Exchange.step]
  cases done : dispatchEmit S.sdk S.locale ⟨some [], capacity, 0⟩ x.world with
  | error e w =>
    rw [done] at spec
    obtain rfl | ⟨more, r, log', course', sequence', quiet⟩ := spec
    · exact same
    · refine ⟨items, payloads, some r, since ++ more, course', ?_, encodes, sent,
        sequence'.trans sequence, fun h => absurd h (by simp [quiet])⟩
      rw [log', log, append_assoc]
  | ok emission w =>
    rw [done] at spec
    cases emission with
    | complete | disconnect =>
      obtain rfl := spec
      exact same
    | packet out =>
      obtain ⟨more, r, log', course', sequence', data, next⟩ := spec
      refine ⟨items, payloads, some r, since ++ more, course', ?_, encodes, sent,
        sequence'.trans sequence, fun _ => ⟨data, next⟩⟩
      rw [log', log, append_assoc]

theorem Follows.acknowledge : Follows S deprecated kind start before (x.step S .acknowledge) := by
  obtain ⟨items, payloads, outgoing, since, course, log, encodes, sent, sequence, emitted⟩ := follows
  rw [Exchange.step]
  by_cases ready : x.world.d.emitted
  swap
  · obtain ⟨e, refused⟩ := dispatchAcknowledge_refused (S := S) (Bool.eq_false_iff.mpr ready)
    rw [refused]
    exact ⟨items, payloads, outgoing, since, course, log, encodes, sent, sequence, emitted⟩
  obtain ⟨r, rfl⟩ := Option.isSome_iff_exists.mp (course.emitted ready)
  obtain ⟨acknowledged, course'⟩ := course.acknowledge ready
  obtain ⟨packet, next⟩ := emitted ready
  obtain ⟨-, encoded⟩ := course.payload r rfl
  rw [acknowledged]
  refine ⟨items ++ [r], payloads ++ [x.world.d.payload], none, since, course', log, ?_, ?_, ?_,
    fun h => Bool.noConfusion h⟩
  · exact rel_append encodes (.cons ⟨_, encoded⟩ .nil)
  · rw [packet, flatMap_append, packets_append, flatten_append, sent, ← sequence]
    simp [frame_eq]
  · change x.world.d.nextSequence = _
    rw [next, frameNext_eq, sequence, flatMap_append, length_append, UInt8.ofNat_add,
      UInt8.add_assoc]
    simp

theorem Follows.run (calls : List ReplyCall) :
    Follows S deprecated kind start before (x.run S calls) := by
  induction calls generalizing x with
  | nil => exact follows
  | cons call calls ih =>
    cases call with
    | emit capacity => exact ih (follows.emit capacity)
    | acknowledge => exact ih follows.acknowledge

end Follows

end Exchange

section History

variable (S)

inductive DispatchCall
  | accept (payload : Bytes) (sequence : UInt8)
  | reply (call : ReplyCall)

def DispatchCall.run (w : DispatchWorld σ) : DispatchCall → DispatchWorld σ
  | .accept payload sequence => final (dispatchAccept S.sdk S.sizes S.locale payload sequence w)
  | .reply (.emit capacity) =>
    final (dispatchEmit S.sdk S.locale ⟨some [], capacity, 0⟩ w)
  | .reply .acknowledge => final (dispatchAcknowledge S.sdk w)

def dispatchRun (calls : List DispatchCall) (w : DispatchWorld σ) : DispatchWorld σ :=
  calls.foldl (DispatchCall.run S) w

variable {S}

theorem Serves.reply (serves : Serves S deprecated w) (call : ReplyCall) :
    Serves S deprecated (DispatchCall.run S w (.reply call)) := by
  obtain ⟨kind, items, outgoing, since, course⟩ := serves
  have same : Serves S deprecated w := ⟨kind, items, outgoing, since, course⟩
  cases call with
  | emit capacity =>
    have spec := dispatchEmit_spec course capacity
    rw [DispatchCall.run]
    cases done : dispatchEmit S.sdk S.locale ⟨some [], capacity, 0⟩ w with
    | error e w' =>
      rw [done] at spec
      obtain rfl | ⟨more, r, -, course', -, -⟩ := spec
      · exact same
      · exact ⟨kind, items, some r, since ++ more, course'⟩
    | ok emission w' =>
      rw [done] at spec
      cases emission with
      | complete | disconnect =>
        obtain rfl := spec
        exact same
      | packet out =>
        obtain ⟨more, r, -, course', -, -, -⟩ := spec
        exact ⟨kind, items, some r, since ++ more, course'⟩
  | acknowledge =>
    rw [DispatchCall.run]
    by_cases ready : w.d.emitted
    · obtain ⟨r, rfl⟩ := Option.isSome_iff_exists.mp (course.emitted ready)
      obtain ⟨acknowledged, course'⟩ := course.acknowledge ready
      rw [acknowledged]
      exact ⟨kind, items ++ [r], none, since, course'⟩
    · obtain ⟨e, refused⟩ := dispatchAcknowledge_refused (S := S) (Bool.eq_false_iff.mpr ready)
      rw [refused]
      exact same

theorem Serves.run (serves : Serves S deprecated w) (calls : List DispatchCall) :
    Serves S deprecated (dispatchRun S calls w) := by
  induction calls generalizing w with
  | nil => exact serves
  | cons call calls ih =>
    refine ih ?_
    cases call with
    | reply call => exact serves.reply call
    | accept payload sequence =>
      have spec := dispatchAccept_spec serves payload sequence
      rw [DispatchCall.run]
      cases done : dispatchAccept S.sdk S.sizes S.locale payload sequence w with
      | error e w' =>
        rw [done] at spec
        exact spec
      | ok a w' =>
        rw [done] at spec
        obtain ⟨-, -, since, -, course⟩ := spec
        exact ⟨_, _, _, _, course⟩

/-- What an accepted command has led to: the packets acknowledged so far make one word of the
reply grammar, or the beginning of one that goes on. -/
structure Replied (S : Setting σ) (deprecated : Bool) (kind : Option CommandKind) (start : UInt8)
    (items : List Response) (since : List SqlEvent) (x : Exchange σ) : Prop where
  numbered : ∃ payloads, List.Forall₂ (Encodes S) items payloads ∧
    x.sent.flatten = packets start (payloads.flatMap split)
  word : items ∈ replies deprecated kind ↔ x.world.d.phase.over = true
  part : ∃ rest, items ++ rest ∈ replies deprecated kind
  rows : items.filterMap Response.answer <+: since.filterMap SqlEvent.answer
  whole : x.world.d.phase.over = true → (∀ r ∈ items, ¬IsErr r) → (∃ n, .count n ∈ items) →
    ∃ values, since.filterMap SqlEvent.answer =
      items.filterMap Response.answer ++ [.ok ⟨.done, values⟩]
  once : (since.filterMap SqlEvent.opened).length ≤ 1
  released : since.filterMap SqlEvent.released <+: since.filterMap SqlEvent.opened
  results : x.world.d.phase.over = true →
    since.filterMap SqlEvent.released = since.filterMap SqlEvent.opened
  statements : x.world.d.phase.over = true → (∃ r ∈ items, IsErr r) → Balanced since
  goesOn : x.world.d.phase.over = false → x.world.d.emitted = false →
    ∃ r payload, Encodes S r payload ∧ ∀ capacity ≤ sizeMax,
      payload.length + framePackets payload.length * packetHeaderSize ≤ capacity →
        ∃ out world, dispatchEmit S.sdk S.locale ⟨some [], capacity, 0⟩ x.world =
          .ok (.packet out) world

theorem Phase.over_of_active (active : phase.active) : phase.over = false := by
  cases phase <;> first | rfl | exact Bool.noConfusion active

theorem Phase.error_of (idle : phase.active = false) (going : phase.over = false) :
    phase = .error := by
  cases phase <;> first | rfl | exact Bool.noConfusion idle | exact Bool.noConfusion going

theorem rest_over {sdk : Sdk σ} {d : Dispatch} (past : d.phase.over) : rest sdk d = 1 := by
  obtain phase | phase := Phase.over_cases past <;> simp [rest, phase]

section Course

variable (course : Course S deprecated kind items outgoing since w)
include course

theorem Course.more (going : w.d.phase.over = false) :
    ∃ rest, rest ≠ [] ∧ items ++ rest ∈ replies deprecated kind := by
  have expects := course.expects
  unfold Expects at expects
  by_cases active : w.d.phase.active
  · rw [if_pos active] at expects
    obtain ⟨k, rfl, behind⟩ := expects
    obtain ⟨rest, mem, ne⟩ := proper_rest active course.inPhase
    exact ⟨rest, ne, le_interrupted (behind rest mem)⟩
  · rw [if_neg active] at expects
    have phase := Phase.error_of (Bool.eq_false_iff.mpr active) going
    have last : rest S.sdk w.d = letter IsErr := by simp [rest, phase]
    rw [last] at expects
    exact ⟨[.err 1 [] none], by simp, expects _ ⟨_, ⟨1, [], none, rfl⟩, rfl⟩⟩

theorem Course.word : items ∈ replies deprecated kind ↔ w.d.phase.over := by
  constructor
  · intro mem
    by_contra going
    obtain ⟨rest, ne, longer⟩ := course.more (Bool.eq_false_iff.mpr going)
    exact ne (prefixFree_replies kind items mem rest longer)
  · intro past
    have expects := course.expects
    have idle : w.d.phase.active ≠ true := fun active => by
      rw [Phase.over_of_active active] at past
      cases past
    rw [Expects, if_neg idle, rest_over past] at expects
    simpa using expects [] Language.nil_mem_one

theorem Course.part : ∃ rest, items ++ rest ∈ replies deprecated kind := by
  by_cases past : w.d.phase.over
  · exact ⟨[], by simpa using course.word.mpr past⟩
  · obtain ⟨rest, -, mem⟩ := course.more (Bool.eq_false_iff.mpr past)
    exact ⟨rest, mem⟩

theorem Course.result_over (past : w.d.phase.over) : w.d.response.result = none := by
  have owner := course.owner
  obtain phase | phase := Phase.over_cases past <;> rw [phase] at owner <;>
    simpa [Phase.reading] using owner

theorem Course.goesOn (going : w.d.phase.over = false) (quiet : w.d.emitted = false) :
    ∃ r payload, Encodes S r payload ∧ ∀ capacity ≤ sizeMax,
      payload.length + framePackets payload.length * packetHeaderSize ≤ capacity →
        ∃ out w', dispatchEmit S.sdk S.locale ⟨some [], capacity, 0⟩ w = .ok (.packet out) w' := by
  obtain ⟨more, r, w1, filled, -, -, -, course1⟩ := course.fill_any going quiet
  obtain ⟨-, encoded⟩ := course1.payload r rfl
  refine ⟨r, w1.d.payload, ⟨_, encoded⟩, fun capacity word fits => ?_⟩
  rw [dispatchEmit_due course.scratch quiet going, run_bind_ok filled]
  have framed : frameEncode w1.d.payload w1.d.sequence ⟨some [], capacity, 0⟩ = _ :=
    frameEncode_eq fits word
  unfold dispatchFrame
  rw [framed]
  exact ⟨_, _, rfl⟩

end Course

theorem Follows.replied {kind : Option CommandKind} {start : UInt8} {before : List SqlEvent}
    {x : Exchange σ} (follows : Follows S deprecated kind start before x) :
    ∃ items since, x.world.env.log = before ++ since ∧
      Replied S deprecated kind start items since x := by
  obtain ⟨items, payloads, outgoing, since, course, log, encodes, sent, -, -⟩ := follows
  have results := course.tracked.results
  refine ⟨items, since, log, ⟨payloads, encodes, sent⟩, course.word, course.part, ?_,
    course.rows.past, course.tracked.once, ⟨_, results⟩, fun past => ?_, fun past failed => ?_,
    course.goesOn⟩
  · have sent := course.rows.sent
    rw [filterMap_append] at sent
    exact (prefix_append _ _).trans sent
  · rwa [course.result_over past, Option.toList_none, append_nil] at results
  · refine course.balanced ?_ fun _ => failed
    obtain phase | phase := Phase.over_cases past <;> rw [phase] <;> rfl

/-- The engine that counts, with room for two statements. -/
def Setting.counting : Setting (Nat × List Handle) where
  sdk := Sdk.counting
  sizes := ⟨8, 96, 96, 8, 40, 8⟩
  locale := ⟨[46], fun _ => []⟩
  config := ⟨2, 4096, 64, ⟨4, 4, 64, 64, 100, 100⟩⟩
  live := Prod.snd
  lawful := Sdk.counting_lawful
  size := by decide

def Dispatch.counting : Dispatch :=
  { Dispatch.zero with
    registry := ⟨true, Setting.counting.config, ⟨[.empty, .empty], 2⟩, 0, .ok, false⟩
    scratch := true
    capacity := 1024
    deprecateEof := true }

end History

end TurboDb.Mysql
