import TurboDb.Mysql.PacketChunks

/-!
Framed messages are read back however they are cut.

A feed of all frames of a payload takes one packet in every round, until the
last one ends the message or one is announced that does not fit. A feed that has
read all its input goes on where it stopped, so that the feeds of the pieces come
to the end of the one feed.
-/

namespace TurboDb.Mysql

open ByteOrder Effect Wire List

def frame (payload : Bytes) (sequence : UInt8) : Bytes :=
  (frameLoop (framePackets payload.length) payload sequence).1

def frameNext (payload : Bytes) (sequence : UInt8) : UInt8 :=
  (frameLoop (framePackets payload.length) payload sequence).2

def frameAfter (length : Nat) (payload : Bytes) (sequence : UInt8) : Bytes :=
  if length < packetMaxPayload then [] else frame payload sequence

def frameNextAfter (length : Nat) (payload : Bytes) (sequence : UInt8) : UInt8 :=
  if length < packetMaxPayload then sequence else frameNext payload sequence

/-- A packet takes as much of the payload as there is room for. -/
theorem frameLoop_succ (packets : Nat) (payload : Bytes) (sequence : UInt8) :
    frameLoop (packets + 1) payload sequence =
      let (frames, next) := frameLoop packets (payload.drop packetMaxPayload) (sequence + 1)
      (write 3 (UInt64.ofNat (payload.take packetMaxPayload).length) ++ sequence ::
        (payload.take packetMaxPayload ++ frames), next) := by
  rw [frameLoop, length_take]
  by_cases large : payload.length > packetMaxPayload
  · rw [if_pos large, Nat.min_eq_left large.le]
  · have small := not_lt.mp large
    rw [if_neg large, Nat.min_eq_right small, take_of_length_le small, take_length,
      drop_eq_nil_of_le small, drop_length]

theorem frameLoop_payload (payload : Bytes) (sequence : UInt8) :
    ∃ part rest, payload = part ++ rest ∧ part.length ≤ packetMaxPayload ∧
      (part.length < packetMaxPayload → rest = []) ∧
      frame payload sequence = write 3 (UInt64.ofNat part.length) ++ sequence ::
        (part ++ frameAfter part.length rest (sequence + 1)) ∧
      frameNext payload sequence = frameNextAfter part.length rest (sequence + 1) := by
  have size : (payload.take packetMaxPayload).length = min packetMaxPayload payload.length :=
    length_take
  have after (rest : Bytes) (same : rest = payload.drop packetMaxPayload) :
      frameLoop (payload.length / packetMaxPayload) rest (sequence + 1) =
        (frameAfter (payload.take packetMaxPayload).length rest (sequence + 1),
          frameNextAfter (payload.take packetMaxPayload).length rest (sequence + 1)) := by
    by_cases short : payload.length < packetMaxPayload
    · rw [Nat.div_eq_of_lt short, frameAfter, frameNextAfter, if_pos (by omega), if_pos (by omega),
        frameLoop]
    · rw [frameAfter, frameNextAfter, if_neg (by omega), if_neg (by omega), frame, frameNext,
        same, length_drop, framePackets, ← Nat.div_eq_sub_div (by decide) (by omega)]
  refine ⟨payload.take packetMaxPayload, payload.drop packetMaxPayload, by simp, by omega,
    fun less => drop_eq_nil_of_le (by omega), ?_, ?_⟩
  · rw [frame, framePackets, frameLoop_succ, after _ rfl]
  · rw [frameNext, framePackets, frameLoop_succ, after _ rfl]

theorem length_frameLoop {packets : Nat} {payload : Bytes} (sequence : UInt8)
    (enough : payload.length ≤ packets * packetMaxPayload) :
    (frameLoop packets payload sequence).1.length = payload.length + packets * packetHeaderSize := by
  induction packets generalizing payload sequence with
  | zero =>
    have : payload.length = 0 := by omega
    simp [frameLoop, this]
  | succ packets ih =>
    rw [Nat.succ_mul] at enough
    have rest : (payload.drop packetMaxPayload).length ≤ packets * packetMaxPayload := by
      rw [length_drop]
      omega
    simp only [frameLoop_succ, length_append, length_cons, length_write, ih (sequence + 1) rest,
      length_take, length_drop, packetHeaderSize]
    omega

theorem frameLoop_next (packets : Nat) (payload : Bytes) (sequence : UInt8) :
    (frameLoop packets payload sequence).2 = sequence + UInt8.ofNat packets := by
  induction packets generalizing payload sequence with
  | zero => simp [frameLoop]
  | succ packets ih =>
    simp only [frameLoop, ih]
    rw [UInt8.ofNat_add, UInt8.add_assoc, UInt8.add_comm 1]
    rfl

theorem length_frame (payload : Bytes) (sequence : UInt8) :
    (frame payload sequence).length =
      payload.length + framePackets payload.length * packetHeaderSize := by
  refine length_frameLoop sequence ?_
  have := Nat.div_add_mod payload.length packetMaxPayload
  have := Nat.mod_lt payload.length (show 0 < packetMaxPayload by decide)
  rw [framePackets, Nat.succ_mul, Nat.mul_comm]
  omega

structure PacketStream.Between (stream : PacketStream) (sequence : UInt8) : Prop where
  header : stream.header = []
  outside : stream.inPayload = false
  maxPayload : stream.maxPayload = packetMaxPayload
  expected : stream.expectedSequence = sequence

theorem packetHeaderDecode_write {length : Nat} (sequence : UInt8)
    (bound : length ≤ packetMaxPayload) :
    packetHeaderDecode (write 3 (UInt64.ofNat length) ++ [sequence]) sequence
      packetMaxPayload = .ok (length, sequence) := by
  have fits : length < 256 ^ 3 := by simp only [packetMaxPayload] at bound; omega
  have size : (write 3 (UInt64.ofNat length)).length = 3 := length_write ..
  have value : (read (write 3 (UInt64.ofNat length))).toNat = length :=
    toNat_read_write (by decide) fits
  have byte : (write 3 (UInt64.ofNat length) ++ [sequence]).getD 3 0 = sequence := by
    simp [size]
  have enough : ¬(write 3 (UInt64.ofNat length) ++ [sequence]).length < packetHeaderSize := by
    simp [packetHeaderSize]
  have small : ¬length > packetMaxPayload := by omega
  simp only [packetHeaderDecode, reject, if_neg enough, take_left' size, value, byte,
    if_neg small, ne_eq, not_true_eq_false, if_false, pure_ok, ok_bind]

structure OnePacket (sequence : UInt8) (part : Bytes) (fed : PacketFeed) : Prop where
  fine : fed.status = .ok
  consumed : fed.consumed = packetHeaderSize + part.length
  between : fed.stream.Between (sequence + 1)
  data : fed.event.data = part
  messageEnd : fed.event.messageEnd = decide (part.length < packetMaxPayload)
  remaining : Input.remaining fed.stream fed.event = part.length

theorem packetStreamFeed_packet {stream : PacketStream} {sequence : UInt8} {part : Bytes}
    (between : stream.Between sequence) (bound : part.length ≤ packetMaxPayload) (more : Bytes) :
    OnePacket sequence part (packetStreamFeed stream
      (write 3 (UInt64.ofNat part.length) ++ sequence :: (part ++ more))) := by
  have size : (write 3 (UInt64.ofNat part.length) ++ [sequence]).length = packetHeaderSize := by
    simp [packetHeaderSize]
  rw [List.append_cons, packetStreamFeed_complete between.outside
    (by rw [between.header, size]; rfl), size, packetStreamHeader]
  simp only [between.header, List.nil_append, between.expected, between.maxPayload,
    packetHeaderDecode_write sequence bound]
  by_cases none : part.length = 0
  · rw [if_pos none]
    exact ⟨rfl, by rw [none]; rfl, ⟨rfl, rfl, rfl, rfl⟩, (List.length_eq_zero_iff.mp none).symm,
      by rw [none]; rfl, by rw [none]; rfl⟩
  · have some : part ++ more ≠ [] := by simpa using fun nil => absurd nil (by simpa using none)
    rw [if_neg none]
    simp only [packetStreamPayload, List.isEmpty_iff, some, if_false, Nat.sub_zero, Nat.zero_add,
      List.take_left, decide_true, if_true, Bool.true_and]
    exact ⟨rfl, rfl, ⟨rfl, rfl, rfl, rfl⟩, rfl, rfl, by simp [Input.remaining, none]⟩

/-- What a feed of all frames of a payload does; `taken` is where they end. -/
def ReadBack (payload : Bytes) (last : UInt8) (capacity taken : Nat) (feed : InputFeed) : Prop :=
  if payload.length ≤ capacity then feed.consumed = taken ∧ feed.status = .ok ∧
    feed.input.storage = payload ∧ feed.input.stream.expectedSequence = last
  else feed.status = .limit

/-- One round takes one packet; the induction is on what is left of the payload. -/
theorem inputFeedLoop_frame {payload rest behind : Bytes} {sequence : UInt8} {input : Input}
    {rounds : Nat} (cursor : Nat) (between : input.stream.Between sequence)
    (within : input.storage.length ≤ input.capacity) (stored : input.storage ++ rest = payload)
    (enough : (frame rest sequence ++ behind).length ≤ rounds) :
    ReadBack payload (frameNext rest sequence) input.capacity
      (cursor + (frame rest sequence).length)
      (inputFeedLoop rounds input cursor (frame rest sequence ++ behind)) := by
  induction rounds generalizing rest sequence input cursor with
  | zero =>
    rw [length_append, length_frame, framePackets, packetHeaderSize, Nat.succ_mul] at enough
    omega
  | succ rounds ih =>
    obtain ⟨part, rest', rfl, bound, short, isFrame, isNext⟩ := frameLoop_payload rest sequence
    have packet := packetStreamFeed_packet between bound
      (frameAfter part.length rest' (sequence + 1) ++ behind)
    have whole : write 3 (UInt64.ofNat part.length) ++ sequence ::
        (part ++ (frameAfter part.length rest' (sequence + 1) ++ behind)) =
          frame (part ++ rest') sequence ++ behind := by
      simp [isFrame]
    have size : (frame (part ++ rest') sequence).length =
        packetHeaderSize + part.length + (frameAfter part.length rest' (sequence + 1)).length := by
      simp [isFrame, packetHeaderSize]
      omega
    have dropped : (frame (part ++ rest') sequence ++ behind).drop
        (packetHeaderSize + part.length) = frameAfter part.length rest' (sequence + 1) ++ behind := by
      rw [← whole, append_cons, ← append_assoc, drop_left']
      simp [packetHeaderSize]
      omega
    rw [whole] at packet
    rw [inputFeedLoop_succ (by simp [isFrame]), isNext, size]
    generalize packetStreamFeed input.stream (frame (part ++ rest') sequence ++ behind) = fed at packet
    have fine : ¬fed.status.Bad := packet.fine ▸ not_bad_ok
    have overfull : input.Overfull fed ↔ input.capacity < input.storage.length + part.length := by
      rw [Input.Overfull, packet.remaining, packet.data]
      omega
    by_cases full : input.capacity < input.storage.length + part.length
    · rw [inputRound_full fine (overfull.mpr full), ReadBack, if_neg]
      · rfl
      · rw [← stored, length_append, length_append]
        omega
    rw [inputRound_stored fine (mt overfull.mp full)
      (by rw [packet.consumed]; exact Nat.add_pos_left (by decide) _), packet.messageEnd, packet.fine]
    have kept : (input.stored fed).storage = input.storage ++ part := by
      rw [Input.stored, packet.data]
    by_cases ends : part.length < packetMaxPayload
    · obtain rfl := short ends
      rw [append_nil] at stored
      rw [if_pos (decide_eq_true ends), ReadBack, frameAfter, frameNextAfter, if_pos ends, if_pos ends,
        if_pos (by rw [← stored, length_append]; omega)]
      exact ⟨congrArg (cursor + ·) packet.consumed, rfl, kept.trans stored, packet.between.expected⟩
    · rw [if_neg (by simp [ends]), if_neg (by simp), packet.consumed]
      dsimp only
      rw [dropped]
      simp only [frameAfter, frameNextAfter, if_neg ends] at size ⊢
      have left : (frame rest' (sequence + 1) ++ behind).length ≤ rounds := by
        rw [length_append, size, packetHeaderSize] at enough
        rw [length_append]
        omega
      rw [← Nat.add_assoc cursor]
      exact ih _ packet.between (by rw [kept, length_append]; exact Nat.not_lt.mp full)
        (by rw [kept, append_assoc, stored]) left

def inputFeeds : Input → List Bytes → List InputFeed
  | _, [] => []
  | input, data :: chunks => inputFeed input data :: inputFeeds (inputFeed input data).input chunks

theorem inputFeeds_stuck {input : Input} {status : WireStatus}
    (stuck : ∀ data, inputFeed input data = ⟨input, 0, status⟩) (chunks : List Bytes) :
    ∀ fed ∈ inputFeeds input chunks, fed = ⟨input, 0, status⟩ := by
  induction chunks with
  | nil => simp [inputFeeds]
  | cons data chunks ih => simpa [inputFeeds, stuck] using ih

/-- What the answers to all feeds say about the message. -/
structure Received (payload : Bytes) (last : UInt8) (capacity : Nat) (todo : Bytes)
    (chunks : List Bytes) (feeds : List InputFeed) : Prop where
  fits : payload.length ≤ capacity → ∃ i fed, feeds[i]? = some fed ∧ fed.status = .ok ∧
    fed.input.storage = payload ∧ fed.input.stream.expectedSequence = last ∧
    (chunks.take i).flatten.length + fed.consumed = todo.length ∧
    (∀ j data other, j < i → chunks[j]? = some data → feeds[j]? = some other →
      other.consumed = data.length) ∧
    ∀ j other, feeds[j]? = some other → other.status = .ok → j = i
  large : capacity < payload.length → ∃ i < feeds.length, ∀ j fed, i ≤ j →
    feeds[j]? = some fed → fed.status = .limit
  bounded : ∀ fed ∈ feeds, fed.input.storage.length ≤ capacity

section Steps

variable {payload : Bytes} {last : UInt8} {capacity : Nat} {data left todo : Bytes}
  {chunks : List Bytes} {feeds : List InputFeed} {input : Input} {consumed : Nat}

theorem Received.more (rest : Received payload last capacity left chunks feeds)
    (within : input.storage.length ≤ capacity)
    (behind : payload.length ≤ capacity → data.length + left.length = todo.length) :
    Received payload last capacity todo (data :: chunks)
      (⟨input, data.length, .needMore⟩ :: feeds) := by
  refine ⟨fun fits => ?_, fun large => ?_, forall_mem_cons.mpr ⟨within, rest.bounded⟩⟩
  · obtain ⟨i, answer, found, ok, stored, next, total, earlier, only⟩ := rest.fits fits
    refine ⟨i + 1, answer, by simpa using found, ok, stored, next, ?_, ?_, ?_⟩
    · rw [take_succ_cons, flatten_cons, length_append, ← behind fits]
      omega
    · intro j piece other before hpiece hother
      cases j with
      | zero =>
        simp only [getElem?_cons_zero, Option.some.injEq] at hpiece hother
        rw [← hpiece, ← hother]
      | succ j =>
        exact earlier j piece other (by omega) hpiece hother
    · intro j other hother answered
      cases j with
      | zero =>
        simp only [getElem?_cons_zero, Option.some.injEq] at hother
        rw [← hother] at answered
        cases answered
      | succ j =>
        rw [only j other hother answered]
  · obtain ⟨i, inside, after⟩ := rest.large large
    refine ⟨i + 1, by simpa using inside, fun j fed le hfed => ?_⟩
    cases j with
    | zero => omega
    | succ j =>
      exact after j fed (by omega) hfed

theorem Received.done (fits : payload.length ≤ capacity) (stored : input.storage = payload)
    (next : input.stream.expectedSequence = last)
    (stuck : ∀ fed ∈ feeds, fed = ⟨input, 0, .busy⟩) :
    Received payload last capacity todo (data :: chunks) (⟨input, todo.length, .ok⟩ :: feeds) := by
  refine ⟨fun _ => ⟨0, _, rfl, rfl, stored, next, by simp, fun j _ _ before => by omega, ?_⟩,
    fun large => by omega, forall_mem_cons.mpr ⟨stored ▸ fits, ?_⟩⟩
  · intro j other hother answered
    cases j with
    | zero => rfl
    | succ j =>
      rw [stuck other (mem_of_getElem? hother)] at answered
      cases answered
  · intro fed mem
    rw [stuck fed mem]
    exact stored ▸ fits

theorem Received.full (large : capacity < payload.length)
    (within : input.storage.length ≤ capacity) (stuck : ∀ fed ∈ feeds, fed = ⟨input, 0, .limit⟩) :
    Received payload last capacity todo (data :: chunks) (⟨input, consumed, .limit⟩ :: feeds) := by
  refine ⟨fun fits => by omega, fun _ => ⟨0, by simp, fun j fed _ hfed => ?_⟩,
    forall_mem_cons.mpr ⟨within, fun fed mem => by rwa [stuck fed mem]⟩⟩
  cases j with
  | zero =>
    simp only [getElem?_cons_zero, Option.some.injEq] at hfed
    rw [← hfed]
  | succ j =>
    rw [stuck fed (mem_of_getElem? hfed)]

end Steps

theorem inputFeeds_received {payload : Bytes} {last : UInt8} {input : Input} {todo : Bytes}
    {chunks : List Bytes} (receiving : input.Receiving)
    (read : ReadBack payload last input.capacity todo.length (inputFeed input chunks.flatten)) :
    Received payload last input.capacity todo chunks (inputFeeds input chunks) := by
  induction chunks generalizing input todo with
  | nil =>
    rw [flatten_nil, inputFeed_loop receiving, inputFeedLoop_nil, ReadBack] at read
    split_ifs at read
    exact absurd read.2.1 nofun
  | cons data chunks ih =>
    have cut := inputFeed_cut receiving data
    rw [flatten_cons] at read
    rw [inputFeeds]
    generalize inputFeed input data = answer at cut
    cases cut with
    | @more next receiving' capacity goesOn =>
      rw [goesOn, ReadBack] at read
      have behind (fits : payload.length ≤ input.capacity) :
          data.length + (todo.drop data.length).length = todo.length := by
        rw [if_pos fits] at read
        have total : data.length + _ = todo.length := read.1
        rw [length_drop]
        omega
      have onward : ReadBack payload last next.capacity (todo.drop data.length).length
          (inputFeed next chunks.flatten) := by
        rw [ReadBack, capacity]
        split_ifs at read ⊢ with fits
        · refine ⟨?_, read.2⟩
          have total : data.length + _ = todo.length := read.1
          omega
        · exact read
      have rest := ih receiving' onward
      rw [capacity] at rest
      exact rest.more (capacity ▸ receiving'.within) behind
    | @done next k failure ready some within same =>
      have stuck (data : Bytes) : inputFeed next data = ⟨next, 0, .busy⟩ := by
        simp [inputFeed, failure, ready]
      rw [same, ReadBack] at read
      split_ifs at read with fits
      obtain ⟨rfl, -, stored, last⟩ := read
      exact .done fits stored last (inputFeeds_stuck stuck chunks)
    | @failed answer refused fails =>
      have stuck (data : Bytes) : inputFeed answer.input data = ⟨answer.input, 0, answer.status⟩ := by
        rw [inputFeed, refused.failure, if_pos refused.bad.1]
      rw [ReadBack, fails] at read
      split_ifs at read with fits
      · exact absurd read.2.1 refused.bad.1
      · obtain ⟨next, consumed, rfl⟩ : ∃ next consumed, answer = ⟨next, consumed, .limit⟩ :=
          ⟨_, _, by rw [← read]⟩
        exact .full (Nat.not_le.mp fits) refused.within (inputFeeds_stuck stuck chunks)

theorem frameEncode_eq {payload : Bytes} {sequence : UInt8} {out : Output}
    (fits : payload.length + framePackets payload.length * packetHeaderSize ≤ out.capacity)
    (word : out.capacity ≤ sizeMax) :
    frameEncode payload sequence out =
      .ok ({ out with
        data := out.data.map fun _ => frame payload sequence
        size := (frame payload sequence).length }, frameNext payload sequence) := by
  have room : ¬framePackets payload.length > (sizeMax - payload.length) / packetHeaderSize := by
    rw [not_lt, Nat.le_div_iff_mul_le (by decide)]
    omega
  have within : ¬payload.length + framePackets payload.length * packetHeaderSize > out.capacity := by
    omega
  rw [length_frame, frameNext, frameLoop_next]
  obtain ⟨data, capacity, size⟩ := out
  cases data with
  | none => simp [frameEncode, reject, room, within, pure_ok, ok_bind]
  | some bytes => simp [frameEncode, reject, room, within, pure_ok, ok_bind, frameLoop_next, frame]

/-- Measuring and writing agree on the outcome, the size and the next sequence number. -/
theorem frameEncode_measure (payload : Bytes) (sequence : UInt8) (bytes : Bytes)
    (capacity size : Nat) :
    (fun framed => (framed.1.size, framed.2)) <$> frameEncode payload sequence ⟨none, capacity, size⟩ =
      (fun framed => (framed.1.size, framed.2)) <$>
        frameEncode payload sequence ⟨some bytes, capacity, size⟩ := by
  simp only [frameEncode, reject]
  split_ifs
  · rfl
  · rfl
  · rfl
  · change Except.ok _ = Except.ok _
    rw [frameLoop_next]

/-- A new assembler reads the frame that comes first. -/
theorem inputFeed_frame {capacity : Nat} {sequence : UInt8} {input : Input}
    (init : inputInit capacity sequence = .ok input) (payload behind : Bytes) :
    input.Receiving ∧ input.capacity = capacity ∧
      ReadBack payload (frameNext payload sequence) capacity (frame payload sequence).length
        (inputFeed input (frame payload sequence ++ behind)) := by
  simp only [inputInit, bind_eq_ok, reject_eq_ok, exists_unit, pure_eq_ok] at init
  obtain ⟨_, rfl⟩ := init
  have receiving : Input.Receiving
      ⟨packetStreamInit sequence packetMaxPayload, [], capacity, .ok, false⟩ :=
    ⟨packetStreamInit_sound _ _, rfl, rfl, Nat.zero_le _⟩
  refine ⟨receiving, rfl, ?_⟩
  rw [inputFeed_loop receiving, ← Nat.zero_add (frame payload sequence).length]
  exact inputFeedLoop_frame 0 ⟨rfl, rfl, rfl, rfl⟩ receiving.within rfl le_rfl

/-- A framed payload is read back whatever follows it and however the bytes are
cut: one call completes the message behind its last byte when it fits, and when
it does not the assembler answers with the limit for good. -/
theorem inputFeeds_frameEncode (payload : Bytes) (sequence : UInt8) (buffer : Bytes)
    (room size : Nat)
    (fits : payload.length + framePackets payload.length * packetHeaderSize ≤ room)
    (word : room ≤ sizeMax) :
    (∀ capacity size : Nat,
      (fun framed => (framed.1.size, framed.2)) <$>
          frameEncode payload sequence ⟨none, capacity, size⟩ =
        (fun framed => (framed.1.size, framed.2)) <$>
          frameEncode payload sequence ⟨some buffer, capacity, size⟩) ∧
    ∃ frames next,
      frameEncode payload sequence ⟨some buffer, room, size⟩ =
        .ok (⟨some frames, room, frames.length⟩, next) ∧
      ∀ {capacity : Nat} {input : Input}, inputInit capacity sequence = .ok input →
        ∀ {chunks : List Bytes} {behind : Bytes}, chunks.flatten = frames ++ behind →
          Received payload next capacity frames chunks (inputFeeds input chunks) := by
  refine ⟨frameEncode_measure payload sequence buffer, frame payload sequence,
    frameNext payload sequence, frameEncode_eq fits word, ?_⟩
  intro capacity input init chunks behind coming
  obtain ⟨receiving, rfl, read⟩ := inputFeed_frame init payload behind
  rw [← coming] at read
  exact inputFeeds_received receiving read

/-- A message cut in its header and in its payload, with a byte behind it; the sequence number
wraps. -/
theorem inputFeeds_frameEncode_cut :
    ∃ frames next,
      frameEncode [7, 8, 9] 255 ⟨some [], 7, 0⟩ = .ok (⟨some frames, 7, frames.length⟩, next) ∧
      Received [7, 8, 9] next 3 frames [[3, 0], [0, 255, 7], [8, 9, 1]]
        (inputFeeds ⟨packetStreamInit 255 packetMaxPayload, [], 3, .ok, false⟩
          [[3, 0], [0, 255, 7], [8, 9, 1]]) := by
  obtain ⟨-, frames, next, encoded, received⟩ :=
    inputFeeds_frameEncode [7, 8, 9] 255 [] 7 0 (by decide) (by decide)
  have whole : [[3, 0], [0, 255, 7], [8, 9, 1]].flatten = frames ++ [1] := ?_
  refine ⟨frames, next, encoded, received rfl whole⟩
  cases encoded
  rfl

end TurboDb.Mysql
