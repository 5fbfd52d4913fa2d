import TurboDb.Mysql.Packet

/-!
Where the network cuts its input.

The assembler keeps what it has read of a header or of a payload, so that bytes
fed in two pieces leave what they leave in one, up to the end of a message. There
a feed stops, and what it consumed tells how far the piece goes. It is enough to
cut behind one byte: a piece that leaves the assembler asking for more does so
behind each of its bytes.
-/

namespace TurboDb.Mysql

open ByteOrder Effect List Nat

/-- There is some of the payload to come, or of the header. -/
structure PacketStream.Sound (stream : PacketStream) : Prop where
  payload : stream.inPayload = true → stream.payloadSeen < stream.packetPayloadLength
  header : stream.inPayload = false → stream.header.length < packetHeaderSize

theorem packetStreamInit_sound (sequence : UInt8) (maxPayload : Nat) :
    (packetStreamInit sequence maxPayload).Sound :=
  ⟨nofun, fun _ => zero_lt_succ _⟩

def PacketFeed.after (k : Nat) (fed : PacketFeed) : PacketFeed :=
  { fed with consumed := k + fed.consumed }

variable {stream : PacketStream} {b : UInt8} {p q : Bytes} {input : Input} {fed : PacketFeed}

theorem packetStreamPayload_after (stream : PacketStream) (k : Nat) (p : Bytes) :
    packetStreamPayload stream k p = (packetStreamPayload stream 0 p).after k := by
  unfold packetStreamPayload
  by_cases empty : p.isEmpty
  · simp [empty, PacketFeed.after]
  · simp [empty, PacketFeed.after]

theorem packetStreamFeed_inside (inside : stream.inPayload) (p : Bytes) :
    packetStreamFeed stream p = packetStreamPayload stream 0 p := by
  rw [packetStreamFeed, if_pos inside]

theorem packetStreamFeed_announced (inside : stream.inPayload) (some : q ≠ []) :
    (packetStreamFeed stream q).status = .ok ∧
      (packetStreamFeed stream q).event.packetPayloadLength = stream.packetPayloadLength ∧
      (packetStreamFeed stream q).event.offset = stream.payloadSeen ∧
      (packetStreamFeed stream q).event.data.length ≤
        stream.packetPayloadLength - stream.payloadSeen := by
  rw [packetStreamFeed_inside inside]
  simp [packetStreamPayload, some]

/-- The stream behind a byte of a payload that does not end it. -/
def PacketStream.seen (stream : PacketStream) : PacketStream :=
  { stream with payloadSeen := stream.payloadSeen + 1 }

theorem packetStreamFeed_single (inside : stream.inPayload)
    (short : stream.payloadSeen + 1 < stream.packetPayloadLength) :
    packetStreamFeed stream [b] = ⟨stream.seen, 1, .ok,
      ⟨[b], stream.payloadSeen, stream.packetPayloadLength, stream.sequenceId, false, false⟩⟩ := by
  have taken : [b].take (stream.packetPayloadLength - stream.payloadSeen) = [b] :=
    take_of_length_le (by rw [length_singleton]; omega)
  rw [packetStreamFeed_inside inside]
  simp [packetStreamPayload, taken, short.ne, PacketStream.seen]

/-- A byte that does not end the payload goes in front of the event of those behind it. -/
theorem packetStreamFeed_joined (inside : stream.inPayload) (more : q ≠ [])
    (short : stream.payloadSeen + 1 < stream.packetPayloadLength) :
    packetStreamFeed stream (b :: q) =
      { (packetStreamFeed stream.seen q).after 1 with
        event := { (packetStreamFeed stream.seen q).event with
          data := b :: (packetStreamFeed stream.seen q).event.data, offset := stream.payloadSeen } } := by
  obtain ⟨left, todo⟩ := Nat.exists_eq_add_of_lt short
  have inside' : stream.seen.inPayload := inside
  rw [packetStreamFeed_inside inside, packetStreamFeed_inside inside']
  have here : stream.packetPayloadLength - stream.payloadSeen = left + 1 + 1 := by omega
  have behind : stream.packetPayloadLength - (stream.payloadSeen + 1) = left + 1 := by omega
  simp [packetStreamPayload, more, PacketStream.seen, PacketFeed.after, here, behind,
    add_assoc, add_comm 1]
  rfl

theorem packetStreamFeed_complete (outside : stream.inPayload = false)
    (whole : stream.header.length + p.length = packetHeaderSize) (q : Bytes) :
    packetStreamFeed stream (p ++ q) =
      packetStreamHeader { stream with header := stream.header ++ p } p.length q := by
  have taken : (p ++ q).take (packetHeaderSize - stream.header.length) = p := by
    rw [← whole, Nat.add_sub_cancel_left, take_left']
    rfl
  simp [packetStreamFeed, outside, taken, whole]

theorem packetStreamHeader_after (stream : PacketStream) (k j : Nat) (p : Bytes) :
    packetStreamHeader stream (k + j) p = (packetStreamHeader stream j p).after k := by
  unfold packetStreamHeader
  cases packetHeaderDecode stream.header stream.expectedSequence stream.maxPayload with
  | error status => rfl
  | ok decoded =>
    obtain ⟨length, sequenceId⟩ := decoded
    dsimp only
    by_cases empty : length = 0
    · rw [if_pos empty, if_pos empty]
      rfl
    · rw [if_neg empty, if_neg empty, packetStreamPayload_after, packetStreamPayload_after _ j]
      simp [PacketFeed.after, add_assoc]

theorem packetStreamFeed_more (outside : stream.inPayload = false)
    (short : stream.header.length + 1 < packetHeaderSize) (q : Bytes) :
    packetStreamFeed stream (b :: q) =
      (packetStreamFeed { stream with header := stream.header ++ [b] } q).after 1 := by
  obtain ⟨left, todo⟩ := Nat.exists_eq_add_of_lt short
  have here : packetHeaderSize - stream.header.length = left + 1 + 1 := by omega
  have behind : packetHeaderSize - (stream.header.length + 1) = left + 1 := by omega
  simp only [packetStreamFeed, outside, Bool.false_eq_true, ↓reduceIte, here, take_succ_cons,
    length_append, length_nil, zero_add, length_cons, drop_succ_cons, behind,
    append_assoc, singleton_append]
  generalize q.take (left + 1) = rest
  by_cases less : stream.header.length + (rest.length + 1) < packetHeaderSize
  · rw [if_pos less, if_pos less, add_comm rest.length]
    rfl
  · rw [if_neg less, if_neg less, add_comm rest.length]
    exact packetStreamHeader_after _ _ _ _

theorem packetHeaderDecode_error {header : Bytes} {expected : UInt8} {maxPayload : Nat}
    {status : WireStatus} (whole : packetHeaderSize ≤ header.length)
    (failed : packetHeaderDecode header expected maxPayload = .error status) :
    status ≠ .ok ∧ status ≠ .needMore := by
  have enough : ¬header.length < packetHeaderSize := not_lt.mpr whole
  simp only [packetHeaderDecode, bind_eq_error, reject_eq_error, enough, false_and, false_or,
    pure_ne_error, and_false, exists_false, or_false, reject_eq_ok, not_false_eq_true, true_and,
    exists_unit] at failed
  obtain ⟨-, rfl⟩ | ⟨-, -, rfl⟩ := failed
  · exact ⟨by simp, by simp⟩
  · exact ⟨by simp, by simp⟩

theorem packetStreamFeed_consumed (sound : stream.Sound) (some : q ≠ []) :
    0 < (packetStreamFeed stream q).consumed := by
  have length : 0 < q.length := length_pos_iff.mpr some
  cases inside : stream.inPayload with
  | true =>
    have todo := sound.payload inside
    rw [packetStreamFeed_inside inside]
    simp [packetStreamPayload, some]
    omega
  | false =>
    have room := sound.header inside
    have taken : 0 < (q.take (packetHeaderSize - stream.header.length)).length := by
      rw [length_take]
      omega
    simp only [packetStreamFeed, inside, Bool.false_eq_true, ↓reduceIte]
    split
    · exact taken
    · rw [← add_zero (q.take _).length, packetStreamHeader_after]
      exact Nat.add_pos_left taken _

section Rounds

/-- A round of a feed ends it or goes on with the bytes behind it. -/
inductive Round
  | stop (feed : InputFeed)
  | next (input : Input) (consumed : Nat)

def InputFeed.after (k : Nat) (fed : InputFeed) : InputFeed :=
  { fed with consumed := k + fed.consumed }

def Round.after (k : Nat) : Round → Round
  | .stop feed => .stop (feed.after k)
  | .next input consumed => .next input (k + consumed)

def WireStatus.Bad (status : WireStatus) : Prop := status ≠ .ok ∧ status ≠ .needMore

def Input.Overfull (input : Input) (fed : PacketFeed) : Prop :=
  input.storage.length > input.capacity ∨
    Input.remaining fed.stream fed.event > input.capacity - input.storage.length ∨
    fed.event.data.length > input.capacity - input.storage.length

instance (input : Input) (fed : PacketFeed) : Decidable (input.Overfull fed) :=
  inferInstanceAs (Decidable (_ ∨ _ ∨ _))

/-- What a round makes of the answer of the packet stream. -/
def inputRound (input : Input) (fed : PacketFeed) : Round :=
  if fed.status ≠ .ok ∧ fed.status ≠ .needMore then
    .stop ({ input with stream := fed.stream }.fail fed.consumed fed.status)
  else if input.Overfull fed then .stop ({ input with stream := fed.stream }.fail fed.consumed .limit)
  else
    let stored := { input with stream := fed.stream, storage := input.storage ++ fed.event.data }
    if fed.event.messageEnd then .stop ⟨{ stored with ready := true }, fed.consumed, .ok⟩
    else if fed.status = .needMore then .stop ⟨stored, fed.consumed, .needMore⟩
    else if fed.consumed = 0 then .stop (stored.fail fed.consumed .invalid)
    else .next stored fed.consumed

variable {data : Bytes} {rounds cursor k : Nat}

theorem inputFeedLoop_succ (some : data ≠ []) :
    inputFeedLoop (rounds + 1) input cursor data =
      match inputRound input (packetStreamFeed input.stream data) with
      | .stop feed => feed.after cursor
      | .next input k => inputFeedLoop rounds input (cursor + k) (data.drop k) := by
  have full : data.isEmpty = false := by simpa using some
  simp only [inputFeedLoop, full, Bool.false_eq_true, ↓reduceIte, inputRound]
  split
  · rfl
  · change (if input.Overfull _ then _ else _) = _
    split
    · rfl
    · split
      · rfl
      · split
        · rfl
        · split <;> rfl

theorem inputFeedLoop_nil : inputFeedLoop rounds input cursor [] = ⟨input, cursor, .needMore⟩ := by
  cases rounds <;> rfl

theorem inputRound_after (some : 0 < fed.consumed) :
    inputRound input (fed.after k) = (inputRound input fed).after k := by
  have some' : k + fed.consumed ≠ 0 := by omega
  unfold inputRound
  simp only [PacketFeed.after, Input.Overfull, some', ne_of_gt some, ↓reduceIte]
  repeat' split
  all_goals rfl

theorem inputRound_failed (bad : fed.status.Bad) :
    inputRound input fed =
      .stop ({ input with stream := fed.stream }.fail fed.consumed fed.status) := if_pos bad

theorem inputRound_full (fine : ¬fed.status.Bad) (full : input.Overfull fed) :
    inputRound input fed = .stop ({ input with stream := fed.stream }.fail fed.consumed .limit) :=
  (if_neg fine).trans (if_pos full)

def Input.stored (input : Input) (fed : PacketFeed) : Input :=
  { input with stream := fed.stream, storage := input.storage ++ fed.event.data }

theorem inputRound_stored (fine : ¬fed.status.Bad) (room : ¬input.Overfull fed)
    (some : 0 < fed.consumed) :
    inputRound input fed =
      if fed.event.messageEnd then .stop ⟨{ input.stored fed with ready := true }, fed.consumed, .ok⟩
      else if fed.status = .needMore then .stop ⟨input.stored fed, fed.consumed, .needMore⟩
      else .next (input.stored fed) fed.consumed := by
  refine (if_neg fine).trans ((if_neg room).trans ?_)
  simp only [ne_of_gt some, ↓reduceIte]
  rfl

theorem stored_within (room : ¬input.Overfull fed) :
    (input.stored fed).storage.length ≤ input.capacity := by
  rw [Input.stored, length_append]
  unfold Input.Overfull at room
  omega

theorem not_overfull (some : fed.event.packetPayloadLength ≠ 0)
    (fits : input.storage.length + (fed.event.packetPayloadLength - fed.event.offset) ≤ input.capacity)
    (part : fed.event.data.length ≤ fed.event.packetPayloadLength - fed.event.offset) :
    ¬input.Overfull fed := by
  rw [Input.Overfull, Input.remaining, if_pos some]
  omega

theorem limit_bad : WireStatus.Bad .limit := ⟨nofun, nofun⟩

theorem not_bad_ok : ¬WireStatus.Bad .ok := fun bad => bad.1 rfl

theorem not_bad_needMore : ¬WireStatus.Bad .needMore := fun bad => bad.2 rfl

structure Input.Refused (input : Input) (feed : InputFeed) : Prop where
  bad : feed.status.Bad
  failure : feed.input.failure = feed.status
  within : feed.input.storage.length ≤ input.capacity

section Within

variable (within : input.storage.length ≤ input.capacity)
include within

/-- A round that fails does so for good, and one that goes on has taken a byte. -/
theorem inputRound_spec (fed : PacketFeed) :
    match inputRound input fed with
    | .stop feed => feed.status.Bad → input.Refused feed
    | .next next k =>
      0 < k ∧ next.capacity = input.capacity ∧ next.storage.length ≤ input.capacity := by
  have stored (room : ¬input.Overfull fed) := stored_within room
  unfold inputRound
  split_ifs with bad full _ _ none
  · exact fun bad => ⟨bad, rfl, within⟩
  · exact fun bad => ⟨bad, rfl, within⟩
  · exact fun bad => absurd bad not_bad_ok
  · exact fun bad => absurd bad not_bad_needMore
  · exact fun bad => ⟨bad, rfl, stored full⟩
  · exact ⟨pos_of_ne_zero none, rfl, stored full⟩

theorem inputFeedLoop_refused (bad : (inputFeedLoop rounds input cursor data).status.Bad) :
    input.Refused (inputFeedLoop rounds input cursor data) := by
  induction rounds generalizing input cursor data with
  | zero => exact absurd bad not_bad_needMore
  | succ rounds ih =>
    by_cases nil : data = []
    · rw [nil, inputFeedLoop_nil] at bad
      exact absurd bad not_bad_needMore
    have spec := inputRound_spec within (packetStreamFeed input.stream data)
    rw [inputFeedLoop_succ nil] at bad ⊢
    generalize inputRound input (packetStreamFeed input.stream data) = round at *
    cases round with
    | stop feed => exact ⟨bad, (spec bad).failure, (spec bad).within⟩
    | next next k =>
      have refused := ih (spec.2.1 ▸ spec.2.2) bad
      exact ⟨bad, refused.failure, spec.2.1 ▸ refused.within⟩

/-- As many rounds as there are bytes suffice, and the cursor is only counted. -/
theorem inputFeedLoop_rounds {more : Nat} (enough : data.length ≤ rounds)
    (enough' : data.length ≤ more) :
    inputFeedLoop rounds input (k + cursor) data = (inputFeedLoop more input cursor data).after k := by
  induction rounds generalizing more input cursor data with
  | zero =>
    obtain rfl := length_eq_zero_iff.mp (le_zero.mp enough)
    rw [inputFeedLoop_nil, inputFeedLoop_nil]
    rfl
  | succ rounds ih =>
    by_cases nil : data = []
    · rw [nil, inputFeedLoop_nil, inputFeedLoop_nil]
      rfl
    have some : 0 < data.length := length_pos_iff.mpr nil
    obtain ⟨more, rfl⟩ : ∃ n, more = n + 1 := ⟨more - 1, by omega⟩
    have spec := inputRound_spec within (packetStreamFeed input.stream data)
    rw [inputFeedLoop_succ nil, inputFeedLoop_succ nil]
    generalize inputRound input (packetStreamFeed input.stream data) = round at *
    cases round with
    | stop feed => simp [InputFeed.after, add_assoc]
    | next next taken =>
      obtain ⟨some, capacity, within'⟩ := spec
      dsimp only
      rw [add_assoc]
      refine ih (capacity ▸ within') ?_ ?_ <;> (rw [length_drop]; omega)

end Within

end Rounds

section Feed

structure Input.Receiving (input : Input) : Prop where
  sound : input.stream.Sound
  failure : input.failure = .ok
  ready : input.ready = false
  within : input.storage.length ≤ input.capacity

/-- What a feed does with `p`, and with `p` when more follows it: an assembler that asks
for more goes on with what follows, and one that has a message does not look at it. -/
inductive InputCut (input : Input) (p : Bytes) : InputFeed → Prop
  | more {next : Input} (receiving : next.Receiving) (capacity : next.capacity = input.capacity)
      (goesOn : ∀ q, inputFeed input (p ++ q) = (inputFeed next q).after p.length) :
      InputCut input p ⟨next, p.length, .needMore⟩
  | done {next : Input} {k : Nat} (failure : next.failure = .ok) (ready : next.ready = true)
      (some : 0 < k) (within : k ≤ p.length)
      (same : ∀ q, inputFeed input (p ++ q) = ⟨next, k, .ok⟩) : InputCut input p ⟨next, k, .ok⟩
  | failed {feed : InputFeed} (refused : input.Refused feed)
      (fails : ∀ q, (inputFeed input (p ++ q)).status = feed.status) : InputCut input p feed

variable {next : Input}

theorem inputFeed_loop (receiving : input.Receiving) (p : Bytes) :
    inputFeed input p = inputFeedLoop p.length input 0 p := by
  rw [inputFeed, if_neg (by simp [receiving.failure]), if_neg (by simp [receiving.ready])]

theorem inputFeed_nil (receiving : input.Receiving) : inputFeed input [] = ⟨input, 0, .needMore⟩ := by
  rw [inputFeed_loop receiving, inputFeedLoop_nil]

theorem inputCut_more (receiving' : next.Receiving) (capacity : next.capacity = input.capacity)
    (goesOn : ∀ q, inputFeed input (b :: q) = (inputFeed next q).after 1) :
    InputCut input [b] (inputFeed input [b]) := by
  rw [goesOn, inputFeed_nil receiving']
  exact .more receiving' capacity goesOn

variable (receiving : input.Receiving)
include receiving

theorem inputFeed_refused (bad : (inputFeed input p).status.Bad) :
    input.Refused (inputFeed input p) := by
  rw [inputFeed_loop receiving] at bad ⊢
  exact inputFeedLoop_refused receiving.within bad

theorem inputFeed_cons (b : UInt8) (q : Bytes) : inputFeed input (b :: q) =
    match inputRound input (packetStreamFeed input.stream (b :: q)) with
    | .stop feed => feed
    | .next next k =>
      (inputFeedLoop ((b :: q).drop k).length next 0 ((b :: q).drop k)).after k := by
  rw [inputFeed_loop receiving, length_cons, inputFeedLoop_succ (cons_ne_nil b q)]
  have spec := inputRound_spec receiving.within (packetStreamFeed input.stream (b :: q))
  generalize inputRound input (packetStreamFeed input.stream (b :: q)) = round at *
  cases round with
  | stop feed => simp [InputFeed.after]
  | next next k =>
    obtain ⟨some, capacity, within⟩ := spec
    dsimp only
    rw [add_comm]
    refine inputFeedLoop_rounds (capacity ▸ within) ?_ le_rfl
    rw [length_drop, length_cons]
    omega

theorem inputCut_failed {status : WireStatus} (bad : status.Bad)
    (fails : ∀ q, ∃ feed : InputFeed, feed.status = status ∧
      inputRound input (packetStreamFeed input.stream (b :: q)) = .stop feed) :
    InputCut input [b] (inputFeed input [b]) := by
  have answers (q : Bytes) : (inputFeed input (b :: q)).status = status := by
    obtain ⟨feed, isStatus, round⟩ := fails q
    rw [inputFeed_cons receiving, round]
    exact isStatus
  refine .failed (inputFeed_refused receiving ?_) fun q => ?_
  · rw [answers]
    exact bad
  · rw [answers]
    exact answers q

/-- A byte that is read on its own as it is in front of others. -/
theorem inputCut_rounds (receiving' : next.Receiving) (capacity : next.capacity = input.capacity)
    (here : inputFeed input [b] = ⟨next, 1, .needMore⟩)
    (rounds : ∀ {q}, q ≠ [] → inputRound input (packetStreamFeed input.stream (b :: q)) =
      (inputRound next (packetStreamFeed next.stream q)).after 1) :
    InputCut input [b] (inputFeed input [b]) := by
  refine inputCut_more receiving' capacity fun q => ?_
  cases q with
  | nil =>
    rw [here, inputFeed_nil receiving']
    rfl
  | cons c q =>
    rw [inputFeed_cons receiving, rounds (cons_ne_nil c q), inputFeed_cons receiving']
    cases inputRound next (packetStreamFeed next.stream (c :: q)) with
    | stop feed => rfl
    | next next k =>
      have dropped : (b :: c :: q).drop (1 + k) = (c :: q).drop k := by rw [add_comm]; rfl
      simp only [Round.after, dropped]
      simp [InputFeed.after, add_assoc]

theorem inputCut_ended
    (same : ∀ q, packetStreamFeed input.stream (b :: q) = packetStreamFeed input.stream [b])
    (fine : (packetStreamFeed input.stream [b]).status = .ok)
    (consumed : (packetStreamFeed input.stream [b]).consumed = 1)
    (sound : (packetStreamFeed input.stream [b]).stream.Sound) :
    InputCut input [b] (inputFeed input [b]) := by
  generalize packetStreamFeed input.stream [b] = fed at *
  have fine' : ¬fed.status.Bad := fine ▸ not_bad_ok
  by_cases full : input.Overfull fed
  · exact inputCut_failed receiving limit_bad fun q => ⟨_, rfl, by rw [same, inputRound_full fine' full]⟩
  have stored := inputRound_stored fine' full (consumed ▸ one_pos)
  rw [consumed, fine] at stored
  by_cases last : fed.event.messageEnd
  · have answers (q : Bytes) :
        inputFeed input (b :: q) = ⟨{ input.stored fed with ready := true }, 1, .ok⟩ := by
      rw [inputFeed_cons receiving, same, stored, if_pos last]
    rw [answers]
    exact .done receiving.failure rfl one_pos le_rfl answers
  · have receiving' : (input.stored fed).Receiving :=
      ⟨sound, receiving.failure, receiving.ready, stored_within full⟩
    refine inputCut_more receiving' rfl fun q => ?_
    rw [inputFeed_cons receiving, same, stored, if_neg last, inputFeed_loop receiving']
    rfl

/-- A byte of a header that is not complete, or complete without a byte of its payload. -/
theorem inputCut_behind (sound : stream.Sound)
    (goesOn : ∀ {q}, q ≠ [] →
      packetStreamFeed input.stream (b :: q) = (packetStreamFeed stream q).after 1)
    (here : packetStreamFeed input.stream [b] = ⟨stream, 1, .needMore, .empty⟩) :
    InputCut input [b] (inputFeed input [b]) := by
  by_cases full : input.Overfull ⟨stream, 1, .needMore, .empty⟩
  · refine inputCut_failed receiving limit_bad fun q => ?_
    by_cases nil : q = []
    · rw [nil, here]
      exact ⟨_, rfl, inputRound_full not_bad_needMore full⟩
    obtain past | announced | past := full
    · exact absurd past (not_lt.mpr receiving.within)
    · -- The length that the header announced is the one that the first payload byte finds.
      have inside : stream.inPayload := by
        by_contra outside
        simp [Input.remaining, PacketEvent.empty, outside] at announced
      obtain ⟨fine, length, offset, -⟩ := packetStreamFeed_announced inside nil
      have some := sound.payload inside
      rw [goesOn nil]
      refine ⟨_, rfl, inputRound_full (by simp [PacketFeed.after, fine, not_bad_ok]) (.inr (.inl ?_))⟩
      simp only [Input.remaining, PacketFeed.after, length, offset]
      rw [if_pos (by omega)]
      simpa [Input.remaining, PacketEvent.empty, inside] using announced
    · exact absurd past (not_lt_zero _)
  have receiving' : ({ input with stream } : Input).Receiving :=
    ⟨sound, receiving.failure, receiving.ready, receiving.within⟩
  refine inputCut_rounds receiving receiving' rfl ?_ fun {q} nil => ?_
  · rw [inputFeed_cons receiving, here, inputRound_stored not_bad_needMore full one_pos]
    simp [PacketEvent.empty, Input.stored]
  · rw [goesOn nil, inputRound_after (packetStreamFeed_consumed sound nil)]
    rfl

theorem inputCut_payload (inside : input.stream.inPayload) (b : UInt8) :
    InputCut input [b] (inputFeed input [b]) := by
  have todo := receiving.sound.payload inside
  have announced {q : Bytes} := packetStreamFeed_announced inside (cons_ne_nil b q)
  by_cases fits : input.capacity <
      input.storage.length + (input.stream.packetPayloadLength - input.stream.payloadSeen)
  · refine inputCut_failed receiving limit_bad fun q => ?_
    obtain ⟨fine, length, offset, -⟩ := @announced q
    refine ⟨_, rfl, inputRound_full (fine ▸ not_bad_ok) (.inr (.inl ?_))⟩
    rw [Input.remaining, length, offset, if_pos (by omega)]
    omega
  by_cases last : input.stream.payloadSeen + 1 = input.stream.packetPayloadLength
  · have one : input.stream.packetPayloadLength - input.stream.payloadSeen = 1 := by omega
    have ended (q : Bytes) := packetStreamFeed_inside inside (b :: q)
    refine inputCut_ended receiving (fun q => ?_) announced.1 ?_ ?_
    all_goals rw [ended]
    · rw [ended]
      simp [packetStreamPayload, one]
    · simp [packetStreamPayload, one]
    · simp only [packetStreamPayload, one, take_succ_cons, take_zero, length_singleton, last,
        isEmpty_cons, Bool.false_eq_true, decide_true, ↓reduceIte]
      exact ⟨nofun, fun _ => zero_lt_succ _⟩
  have short : input.stream.payloadSeen + 1 < input.stream.packetPayloadLength := by omega
  have single := packetStreamFeed_single (b := b) inside short
  have receiving' : Input.Receiving
      { input with stream := input.stream.seen, storage := input.storage ++ [b] } := by
    refine ⟨⟨fun _ => short, fun outside => ?_⟩, receiving.failure, receiving.ready, ?_⟩
    · exact Bool.noConfusion (inside.symm.trans outside)
    · rw [length_append, length_singleton]
      dsimp only
      omega
  refine inputCut_rounds receiving receiving' rfl ?_ fun {q} nil => ?_
  · rw [inputFeed_cons receiving, single, inputRound_stored not_bad_ok (not_overfull ?_ ?_ ?_) one_pos]
    · rfl
    all_goals dsimp only [length_singleton]; omega
  · have inside' : input.stream.seen.inPayload = true := inside
    obtain ⟨fine, length, offset, data⟩ := packetStreamFeed_announced inside' nil
    have consumed := packetStreamFeed_consumed receiving'.sound nil
    rw [packetStreamFeed_joined inside nil short]
    generalize packetStreamFeed input.stream.seen q = fed at *
    dsimp only [PacketStream.seen] at length offset data
    have fine' : ¬fed.status.Bad := fine ▸ not_bad_ok
    have room : ¬input.Overfull { fed.after 1 with
        event := { fed.event with data := b :: fed.event.data, offset := input.stream.payloadSeen } } := by
      refine not_overfull ?_ ?_ ?_ <;> (dsimp only [length_cons]; omega)
    have room' : ¬Input.Overfull
        { input with stream := input.stream.seen, storage := input.storage ++ [b] } fed := by
      refine not_overfull ?_ ?_ ?_
      · omega
      · rw [length_append, length_singleton]
        dsimp only
        omega
      · omega
    rw [inputRound_stored (by exact fine') room (Nat.add_pos_left Nat.one_pos _),
      inputRound_stored fine' room' consumed]
    simp only [PacketFeed.after, Input.stored, append_assoc, singleton_append, fine]
    cases fed.event.messageEnd <;> rfl

theorem inputCut_header (outside : input.stream.inPayload = false) (b : UInt8) :
    InputCut input [b] (inputFeed input [b]) := by
  have room := receiving.sound.header outside
  by_cases short : input.stream.header.length + 1 < packetHeaderSize
  · have goesOn (q : Bytes) := packetStreamFeed_more (b := b) outside short q
    refine inputCut_behind receiving ⟨fun inside => ?_, fun _ => ?_⟩ (fun {q} _ => goesOn q) ?_
    · exact Bool.noConfusion (inside.symm.trans outside)
    · simpa using short
    · rw [goesOn]
      simp [packetStreamFeed, outside, short, PacketFeed.after]
  have whole : input.stream.header.length + [b].length = packetHeaderSize := by
    rw [length_singleton]
    omega
  have header (q : Bytes) : packetStreamFeed input.stream (b :: q) = _ :=
    packetStreamFeed_complete outside whole q
  unfold packetStreamHeader at header
  cases decoded : packetHeaderDecode (input.stream.header ++ [b]) input.stream.expectedSequence
      input.stream.maxPayload with
  | error status =>
    simp only [decoded] at header
    have bad : status.Bad := packetHeaderDecode_error (by rw [length_append, whole]) decoded
    exact inputCut_failed receiving bad fun q => ⟨_, rfl, by rw [header, inputRound_failed bad]⟩
  | ok value =>
    obtain ⟨length, sequenceId⟩ := value
    simp only [decoded] at header
    by_cases empty : length = 0
    · simp only [if_pos empty] at header
      refine inputCut_ended receiving (fun q => by rw [header, header]) ?_ ?_ ?_
      all_goals rw [header]
      · rfl
      · exact ⟨nofun, fun _ => zero_lt_succ _⟩
    · simp only [if_neg empty] at header
      refine inputCut_behind receiving ?_ (fun {q} _ => ?_) (header [])
      · exact ⟨fun _ => pos_of_ne_zero empty, nofun⟩
      · rw [header, packetStreamPayload_after]
        rfl

theorem inputFeed_cut (p : Bytes) : InputCut input p (inputFeed input p) := by
  induction p generalizing input with
  | nil =>
    rw [inputFeed_nil receiving]
    exact .more receiving rfl fun q => by simp [InputFeed.after]
  | cons b p ih =>
    have cut : InputCut input [b] (inputFeed input [b]) := by
      cases inside : input.stream.inPayload with
      | true => exact inputCut_payload receiving inside b
      | false => exact inputCut_header receiving inside b
    generalize inputFeed input [b] = feed at cut
    cases cut with
    | @more next receiving' capacity goesOn =>
      have goesOn (q : Bytes) : inputFeed input (b :: q) = (inputFeed next q).after 1 := goesOn q
      rw [goesOn]
      have rest := ih receiving'
      generalize inputFeed next p = feed at rest
      cases rest with
      | more receiving'' capacity' goesOn' =>
        rw [InputFeed.after, add_comm]
        refine .more receiving'' (capacity'.trans capacity) fun q => ?_
        rw [cons_append, goesOn, goesOn']
        simp only [InputFeed.after, length_cons]
        congr 1
        omega
      | done failure ready some within same =>
        refine .done failure ready (Nat.add_pos_left Nat.one_pos _) ?_ fun q => ?_
        · rw [length_cons]
          dsimp only
          omega
        · rw [cons_append, goesOn, same]
          rfl
      | failed refused fails =>
        refine .failed ⟨refused.bad, refused.failure, capacity ▸ refused.within⟩ fun q => ?_
        rw [cons_append, goesOn]
        exact fails q
    | done failure ready some within same =>
      have same (q : Bytes) : inputFeed input (b :: q) = _ := same q
      rw [same]
      exact .done failure ready some (within.trans (by simp)) fun q => same _
    | failed refused fails =>
      have fails (q : Bytes) : (inputFeed input (b :: q)).status = _ := fails q
      refine .failed (inputFeed_refused receiving ?_) fun q => ?_
      · rw [fails]
        exact refused.bad
      · rw [fails]
        exact fails _

end Feed

end TurboDb.Mysql
