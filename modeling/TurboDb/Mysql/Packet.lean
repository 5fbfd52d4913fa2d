import TurboDb.Mysql.Wire

/-!
Packets and logical messages of the MySQL protocol.

A packet has a header of four bytes: the length of its payload in three bytes
and a sequence number. A message is cut into packets of the largest payload and
ends with the first shorter packet, which may be empty. The packet stream keeps
what it has read of a header or a payload; the message assembler of the server
copies payloads into storage of fixed capacity and checks the announced length
of a packet before its bytes arrive.

The source counters `header_used` and `used` are the lengths of lists. That no stream
is asked for a larger `max_payload` than a header can announce is not checked again.
-/

namespace TurboDb.Mysql

open ByteOrder Effect

def packetHeaderSize : Nat := 4

def packetMaxPayload : Nat := 0xFFFFFF

def sizeMax : Nat := 2 ^ 64 - 1

structure PacketEvent where
  data : Bytes
  offset : Nat
  packetPayloadLength : Nat
  sequenceId : UInt8
  packetEnd : Bool
  messageEnd : Bool
  deriving DecidableEq

def PacketEvent.empty : PacketEvent := ⟨[], 0, 0, 0, false, false⟩

structure PacketStream where
  header : Bytes
  packetPayloadLength : Nat
  payloadSeen : Nat
  maxPayload : Nat
  sequenceId : UInt8
  expectedSequence : UInt8
  inPayload : Bool
  deriving DecidableEq

structure PacketFeed where
  stream : PacketStream
  consumed : Nat
  status : WireStatus
  event : PacketEvent
  deriving DecidableEq

def packetHeaderDecode (header : Bytes) (expectedSequence : UInt8) (maxPayload : Nat) :
    Except WireStatus (Nat × UInt8) := do
  reject (header.length < packetHeaderSize) .needMore
  let length := (Wire.read (header.take 3)).toNat
  let sequenceId := header.getD 3 0
  reject (length > maxPayload) .limit
  reject (sequenceId ≠ expectedSequence) .sequence
  pure (length, sequenceId)

def packetStreamInit (expectedSequence : UInt8) (maxPayload : Nat) : PacketStream :=
  ⟨[], 0, 0, maxPayload, 0, expectedSequence, false⟩

def packetStreamReset (stream : PacketStream) (expectedSequence : UInt8) : PacketStream :=
  packetStreamInit expectedSequence stream.maxPayload

def packetStreamPayload (stream : PacketStream) (cursor : Nat) (input : Bytes) : PacketFeed :=
  if input.isEmpty then ⟨stream, cursor, .needMore, .empty⟩
  else
    let remaining := stream.packetPayloadLength - stream.payloadSeen
    let chunk := input.take remaining
    let seen := stream.payloadSeen + chunk.length
    let ended : Bool := seen = stream.packetPayloadLength
    let event : PacketEvent :=
      { data := chunk
        offset := stream.payloadSeen
        packetPayloadLength := stream.packetPayloadLength
        sequenceId := stream.sequenceId
        packetEnd := ended
        messageEnd := ended && decide (stream.packetPayloadLength < packetMaxPayload) }
    let stream :=
      if ended then
        { stream with
          expectedSequence := stream.expectedSequence + 1
          header := []
          packetPayloadLength := 0
          payloadSeen := 0
          inPayload := false }
      else { stream with payloadSeen := seen }
    ⟨stream, cursor + chunk.length, .ok, event⟩

def packetStreamHeader (stream : PacketStream) (cursor : Nat) (input : Bytes) : PacketFeed :=
  match packetHeaderDecode stream.header stream.expectedSequence stream.maxPayload with
  | .error status => ⟨stream, cursor, status, .empty⟩
  | .ok (length, sequenceId) =>
    let opened := { stream with
      packetPayloadLength := length
      sequenceId
      payloadSeen := 0
      inPayload := true }
    if length = 0 then
      let event := { PacketEvent.empty with sequenceId, packetEnd := true, messageEnd := true }
      let closed := { opened with
        expectedSequence := stream.expectedSequence + 1
        header := []
        inPayload := false }
      ⟨closed, cursor, .ok, event⟩
    else packetStreamPayload opened cursor input

def packetStreamFeed (stream : PacketStream) (input : Bytes) : PacketFeed :=
  if stream.inPayload then packetStreamPayload stream 0 input
  else
    let taken := input.take (packetHeaderSize - stream.header.length)
    let stream := { stream with header := stream.header ++ taken }
    if stream.header.length < packetHeaderSize then ⟨stream, taken.length, .needMore, .empty⟩
    else packetStreamHeader stream taken.length (input.drop taken.length)

/-- The message assembler; `failure` is `ok` while it has not failed. -/
structure Input where
  stream : PacketStream
  storage : Bytes
  capacity : Nat
  failure : WireStatus
  ready : Bool
  deriving DecidableEq

structure InputFeed where
  input : Input
  consumed : Nat
  status : WireStatus
  deriving DecidableEq

def inputInit (capacity : Nat) (sequence : UInt8) : Except WireStatus Input := do
  reject (capacity = 0) .invalid
  pure ⟨packetStreamInit sequence packetMaxPayload, [], capacity, .ok, false⟩

def Input.remaining (stream : PacketStream) (event : PacketEvent) : Nat :=
  if event.packetPayloadLength ≠ 0 then event.packetPayloadLength - event.offset
  else if stream.inPayload then stream.packetPayloadLength - stream.payloadSeen else 0

def Input.fail (input : Input) (consumed : Nat) (status : WireStatus) : InputFeed :=
  ⟨{ input with failure := status }, consumed, status⟩

/-- The loop of a feed. Every round but the last takes a byte, so that as many
rounds as there are bytes suffice. -/
def inputFeedLoop : Nat → Input → Nat → Bytes → InputFeed
  | 0, input, cursor, _ => ⟨input, cursor, .needMore⟩
  | rounds + 1, input, cursor, data =>
    if data.isEmpty then ⟨input, cursor, .needMore⟩
    else
      let fed := packetStreamFeed input.stream data
      let input := { input with stream := fed.stream }
      let cursor := cursor + fed.consumed
      if fed.status ≠ .ok ∧ fed.status ≠ .needMore then input.fail cursor fed.status
      else
        -- Reject the announced remaining payload before buffering a large body.
        let room := input.capacity - input.storage.length
        if input.storage.length > input.capacity ∨ Input.remaining fed.stream fed.event > room ∨
            fed.event.data.length > room then input.fail cursor .limit
        else
          let input := { input with storage := input.storage ++ fed.event.data }
          if fed.event.messageEnd then ⟨{ input with ready := true }, cursor, .ok⟩
          else if fed.status = .needMore then ⟨input, cursor, .needMore⟩
          else if fed.consumed = 0 then input.fail cursor .invalid
          else inputFeedLoop rounds input cursor (data.drop fed.consumed)

def inputFeed (input : Input) (data : Bytes) : InputFeed :=
  if input.failure ≠ .ok then ⟨input, 0, input.failure⟩
  else if input.ready then ⟨input, 0, .busy⟩
  else inputFeedLoop data.length input 0 data

def inputMessage (input : Input) : Except WireStatus Bytes := do
  reject (input.failure ≠ .ok) input.failure
  reject (!input.ready) .needMore
  pure input.storage

def inputRelease (input : Input) (sequence : UInt8) : Except WireStatus Input := do
  reject (input.failure ≠ .ok) input.failure
  reject (!input.ready) .busy
  pure { input with
    storage := []
    ready := false
    stream := packetStreamReset input.stream sequence }

/-- An output buffer; `data` is what was written to it, and an output without
`data` only measures. -/
structure Output where
  data : Option Bytes
  capacity : Nat
  size : Nat
  deriving DecidableEq

def framePackets (size : Nat) : Nat := size / packetMaxPayload + 1

/-- The writing loop. The buffer was measured, so that no header write fails. -/
def frameLoop : Nat → Bytes → UInt8 → Bytes × UInt8
  | 0, _, sequence => ([], sequence)
  | packets + 1, payload, sequence =>
    let bytes := if payload.length > packetMaxPayload then packetMaxPayload else payload.length
    let (frames, next) := frameLoop packets (payload.drop bytes) (sequence + 1)
    (Wire.write 3 (UInt64.ofNat bytes) ++ sequence :: (payload.take bytes ++ frames), next)

def frameEncode (payload : Bytes) (sequence : UInt8) (out : Output) :
    Except WireStatus (Output × UInt8) := do
  let size := payload.length
  let packets := framePackets size
  reject (packets > (sizeMax - size) / packetHeaderSize) .limit
  let total := size + packets * packetHeaderSize
  reject (total > out.capacity) .limit
  match out.data with
  | some _ =>
    let (frames, next) := frameLoop packets payload sequence
    pure ({ out with data := some frames, size := total }, next)
  | none => pure ({ out with size := total }, sequence + UInt8.ofNat packets)

end TurboDb.Mysql
