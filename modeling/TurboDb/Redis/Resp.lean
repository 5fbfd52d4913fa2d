import Mathlib.Data.List.TakeDrop
import TurboDb.Library.Decimal
import TurboDb.Library.Incremental

/-!
Reading replies of the server.

A reply is a tree written in lines: each begins with the type of a value and ends
with carriage return and line feed, a bulk string is followed by its bytes and an
array by its elements. The reader keeps the position behind the values read so
far, the arrays it is inside of, and how far it has looked for the end of the
line. It charges the memory of a reply against a limit. Allocations succeed, and
words have eight bytes.
-/

namespace TurboDb.Redis

open ByteOrder Decimal Incremental

inductive Salts
  | ok | einval | ebusy | enotconn | ecanceled | eproto | enobufs | eio | eshutdown
  | native (code : Int)
  deriving DecidableEq, Repr

inductive Reply
  | string (text : Bytes)
  | error (text : Bytes)
  | integer (value : Int64)
  | bulkString (bytes : Bytes)
  | array (elements : List Reply)
  | null

inductive RespType
  | string | error | integer | bulk | array
  deriving DecidableEq, Repr

def RespType.ofByte (b : UInt8) : Option RespType :=
  if b = 43 then some .string
  else if b = 45 then some .error
  else if b = 58 then some .integer
  else if b = 36 then some .bulk
  else if b = 42 then some .array
  else none

def RespType.isNumber : RespType → Bool
  | .string | .error => false
  | .integer | .bulk | .array => true

structure RespToken where
  type : RespType
  value : Bytes
  intValue : Int

def isNumberText (text : Bytes) : Bool :=
  let digits := if text.head? = some 45 then text.drop 1 else text
  digits ≠ [] && digits.all isDigit

def isPlainText (text : Bytes) : Bool := text.all fun b => b ≠ 13 && b ≠ 10

def respScanHeader (first : UInt8) (value : Bytes) : Option RespType :=
  (RespType.ofByte first).filter fun type =>
    if type.isNumber then isNumberText value else isPlainText value

def respParseDigits (limit : Nat) : Nat → Bytes → Option Nat
  | magnitude, [] => some magnitude
  | magnitude, b :: rest =>
    if !isDigit b then none
    else if (limit - (b.toNat - 48)) / 10 < magnitude then none
    else respParseDigits limit (magnitude * 10 + (b.toNat - 48)) rest

def respParseInteger (text : Bytes) : Option Int :=
  match text with
  | [] => none
  | 45 :: digits =>
    if digits = [] then none else (respParseDigits (2 ^ 63) 0 digits).map fun m : Nat => -(m : Int)
  | digits => (respParseDigits (2 ^ 63 - 1) 0 digits).map Int.ofNat

/-- The first line of the data, up to its first line feed. -/
def respScanToken : Bytes → Outcome Unit RespToken Unit
  | [] => .more ()
  | first :: rest =>
    match rest.idxOf? 10 with
    | none => .more ()
    | some newline =>
      if newline = 0 ∨ rest[newline - 1]? ≠ some 13 then .fail ()
      else
        let value := rest.take (newline - 1)
        match respScanHeader first value with
        | none => .fail ()
        | some type =>
          if type.isNumber then
            match respParseInteger value with
            | none => .fail ()
            | some intValue => .done ⟨type, value, intValue⟩ (newline + 2)
          else .done ⟨type, value, 0⟩ (newline + 2)

def respLine (first : UInt8) (text : Bytes) : Bytes := first :: (text ++ [13, 10])

/-- Where the first pair of carriage return and line feed stands. -/
def crlf : Bytes → Option Nat
  | [] => none
  | b :: rest => if b = 13 ∧ rest.head? = some 10 then some 0 else (crlf rest).map (· + 1)

def intMax : Nat := 2 ^ 31 - 1

def sizeMax : Nat := 2 ^ 64 - 1

def respMaxDepth : Nat := 128

/-- Bytes of a reply, of the record of a string, of a string besides its text and
of a pointer to an element. -/
def allocationBytes : Nat := 56
def stringBytes : Nat := 16
def tstrOverhead : Nat := 17
def pointerBytes : Nat := 8

structure ReplyLimits where
  ownerBytes : Nat
  maxReplyBytes : Nat

inductive RespError
  | protocol | limit
  deriving DecidableEq, Repr

def ownerCharge (limits : ReplyLimits) (charged bytes : Nat) : Except RespError Nat :=
  if limits.maxReplyBytes - charged < bytes then .error .limit else .ok (charged + bytes)

/-- An array with the elements read so far; it waits for another one. -/
structure RespFrame where
  count : Nat
  items : List Reply
  waits : items.length < count

/-- The state between calls; the innermost array is the first frame. With no
frame there is no root yet, for a root without frames is complete. -/
structure ReplyReader where
  charged : Nat
  frames : List RespFrame
  offset : Nat
  lineScan : Nat
  bulk : Option (Nat × Nat)

/-- Put a value in its place; the arrays that it completes are values as well. -/
def completeValue : List RespFrame → Reply → List RespFrame × Option Reply
  | [], reply => ([], some reply)
  | frame :: rest, reply =>
    if h : frame.items.length + 1 < frame.count then
      (⟨frame.count, frame.items ++ [reply], by simpa using h⟩ :: rest, none)
    else completeValue rest (.array (frame.items ++ [reply]))

inductive ReaderStep
  | next (impl : ReplyReader)
  | more (impl : ReplyReader)
  | done (reply : Reply) (consumed charged : Nat)
  | fail (error : RespError)

def attachValue (impl : ReplyReader) (reply : Reply) : ReaderStep :=
  match completeValue impl.frames reply with
  | (frames, none) => .next { impl with frames }
  | (_, some root) =>
    if intMax < impl.offset then .fail .protocol else .done root impl.offset impl.charged

def attachArray (impl : ReplyReader) (count : Nat) (h : 0 < count) : ReaderStep :=
  if respMaxDepth < impl.frames.length then .fail .protocol
  else .next { impl with frames := ⟨count, [], h⟩ :: impl.frames }

/-- The line at the offset, or how far there is none. -/
def replyReaderLine (buffer : Bytes) (impl : ReplyReader) : Outcome Nat RespToken Unit :=
  let index := max impl.lineScan impl.offset
  match crlf (buffer.drop index) with
  | none => .more (if impl.offset < buffer.length then buffer.length - 1 else impl.offset)
  | some i =>
    let len := index + i + 2 - impl.offset
    match respScanToken ((buffer.drop impl.offset).take len) with
    | .done token headerLen => if headerLen = len then .done token len else .fail ()
    | _ => .fail ()

inductive Parsed
  | value (reply : Reply)
  | array (count : Nat) (nonempty : 0 < count)

/-- The value of a line other than that of a bulk string, and what is charged. -/
def parsedToken (limits : ReplyLimits) (charged : Nat) (token : RespToken) :
    Except RespError (Nat × Parsed) := do
  let charged ← ownerCharge limits charged allocationBytes
  match token.type with
  | .string =>
    let charged ← ownerCharge limits charged (stringBytes + tstrOverhead + token.value.length)
    return (charged, .value (.string token.value))
  | .error =>
    let charged ← ownerCharge limits charged (stringBytes + tstrOverhead + token.value.length)
    return (charged, .value (.error token.value))
  | .integer => return (charged, .value (.integer (Int64.ofInt token.intValue)))
  | .bulk => if token.intValue ≠ -1 then throw .protocol else return (charged, .value .null)
  | .array =>
    if token.intValue = -1 then return (charged, .value .null)
    else if token.intValue < 0 then throw .protocol
    else if h : 0 < token.intValue.toNat then
      if sizeMax / pointerBytes < token.intValue.toNat then throw .protocol
      let charged ← ownerCharge limits charged (token.intValue.toNat * pointerBytes)
      return (charged, .array token.intValue.toNat h)
    else return (charged, .value (.array []))

/-- What the loop of the reader takes from the buffer in one turn. -/
inductive RespItem
  | token (token : RespToken)
  | bulk (bytes : Bytes)

/-- The bulk string that the last line announced, or the next line. -/
def replyReaderItem (buffer : Bytes) (impl : ReplyReader) : Outcome ReplyReader RespItem Unit :=
  match impl.bulk with
  | some (headerLen, len) =>
    let total := headerLen + len + 2
    if intMax < total ∨ intMax - total < impl.offset then .fail ()
    else if buffer.length - impl.offset < total then .more impl
    else if (buffer.drop (impl.offset + headerLen + len)).take 2 ≠ [13, 10] then .fail ()
    else .done (.bulk ((buffer.drop (impl.offset + headerLen)).take len)) total
  | none =>
    match replyReaderLine buffer impl with
    | .more lineScan => .more { impl with lineScan }
    | .fail _ => .fail ()
    | .done token headerLen =>
      if intMax < headerLen ∨ intMax - headerLen < impl.offset then .fail ()
      else .done (.token token) headerLen

def ReplyReader.skip (impl : ReplyReader) (charged size : Nat) : ReplyReader :=
  ⟨charged, impl.frames, impl.offset + size, impl.offset + size, none⟩

def replyReaderTake (limits : ReplyLimits) (impl : ReplyReader) (size : Nat) : RespItem → ReaderStep
  | .bulk bytes =>
    match (do
      let charged ← ownerCharge limits impl.charged allocationBytes
      ownerCharge limits charged (stringBytes + tstrOverhead + bytes.length)) with
    | .error error => .fail error
    | .ok charged => attachValue (impl.skip charged size) (.bulkString bytes)
  | .token token =>
    if token.type = .bulk ∧ 0 ≤ token.intValue then
      .next { impl with bulk := some (size, token.intValue.toNat) }
    else
      match parsedToken limits impl.charged token with
      | .error error => .fail error
      | .ok (charged, .value reply) => attachValue (impl.skip charged size) reply
      | .ok (charged, .array count nonempty) => attachArray (impl.skip charged size) count nonempty

def replyReaderStep (limits : ReplyLimits) (buffer : Bytes) (impl : ReplyReader) : ReaderStep :=
  if respMaxDepth < impl.frames.length then .fail .protocol
  else
    match replyReaderItem buffer impl with
    | .more impl => .more impl
    | .fail _ => .fail .protocol
    | .done item size => replyReaderTake limits impl size item

def ReplyReader.left (buffer : Bytes) (impl : ReplyReader) : Nat :=
  2 * (buffer.length - impl.offset) + (if impl.bulk.isNone then 1 else 0)

section Step

variable {limits : ReplyLimits} {buffer : Bytes} {impl impl' : ReplyReader} {token : RespToken} {n : Nat}

theorem crlf_le {data : Bytes} {i : Nat} (h : crlf data = some i) : i + 2 ≤ data.length := by
  induction data generalizing i with
  | nil => cases h
  | cons b rest ih =>
    rw [crlf] at h
    split at h
    · rename_i here
      cases h
      cases rest with
      | nil => simp at here
      | cons c rest => simp
    · obtain ⟨k, found, rfl⟩ := Option.map_eq_some_iff.mp h
      have := ih found
      rw [List.length_cons]
      omega

theorem replyReaderLine_le (h : replyReaderLine buffer impl = .done token n) :
    2 ≤ n ∧ impl.offset + n ≤ buffer.length := by
  rw [replyReaderLine] at h
  split at h
  · cases h
  · rename_i i found
    have := crlf_le found
    rw [List.length_drop] at this
    dsimp only at h
    split at h
    · split at h
      · cases h
        omega
      · cases h
    · cases h

/-- An item lies inside the buffer, and a line is read only when no bulk string
is due. -/
theorem replyReaderItem_done {item : RespItem} (h : replyReaderItem buffer impl = .done item n) :
    2 ≤ n ∧ impl.offset + n ≤ buffer.length ∧ (∀ token, item = .token token → impl.bulk = none) := by
  rw [replyReaderItem] at h
  split at h
  · dsimp only at h
    split at h
    · cases h
    · split at h
      · cases h
      · split at h
        · cases h
        · cases h
          exact ⟨by omega, by omega, nofun⟩
  · rename_i line
    split at h
    · cases h
    · cases h
    · rename_i found
      split_ifs at h
      cases h
      have := replyReaderLine_le found
      exact ⟨this.1, this.2, fun _ _ => line⟩

theorem attachValue_next {reply : Reply} (h : attachValue impl reply = .next impl') :
    ∃ frames, impl' = { impl with frames } := by
  rw [attachValue] at h
  split at h
  · exact ⟨_, (ReaderStep.next.inj h).symm⟩
  · split at h <;> cases h

theorem attachArray_next {count : Nat} {nonempty : 0 < count}
    (h : attachArray impl count nonempty = .next impl') :
    ∃ frames, impl' = { impl with frames } := by
  rw [attachArray] at h
  split at h
  · cases h
  · exact ⟨_, (ReaderStep.next.inj h).symm⟩

/-- An item is a value behind which the reader goes on, or it announces a bulk
string. -/
theorem replyReaderTake_next {item : RespItem} (h : replyReaderTake limits impl n item = .next impl') :
    (∃ charged frames, impl' = { impl.skip charged n with frames }) ∨
      ∃ token len, item = .token token ∧ impl' = { impl with bulk := some (n, len) } := by
  cases item with
  | bulk bytes =>
    rw [replyReaderTake] at h
    split at h
    · cases h
    · obtain ⟨frames, rfl⟩ := attachValue_next h
      exact .inl ⟨_, frames, rfl⟩
  | token token =>
    rw [replyReaderTake] at h
    split at h
    · exact .inr ⟨token, _, rfl, (ReaderStep.next.inj h).symm⟩
    · split at h
      · cases h
      · obtain ⟨frames, rfl⟩ := attachValue_next h
        exact .inl ⟨_, frames, rfl⟩
      · obtain ⟨frames, rfl⟩ := attachArray_next h
        exact .inl ⟨_, frames, rfl⟩

theorem replyReaderStep_next (h : replyReaderStep limits buffer impl = .next impl') :
    ∃ item n, replyReaderItem buffer impl = .done item n ∧
      replyReaderTake limits impl n item = .next impl' := by
  rw [replyReaderStep] at h
  split at h
  · cases h
  · split at h
    · cases h
    · cases h
    · rename_i item n found
      exact ⟨item, n, found, h⟩

/-- Every turn of the loop takes bytes from the buffer or notes a bulk string. -/
theorem replyReaderStep_left (h : replyReaderStep limits buffer impl = .next impl') :
    impl'.left buffer < impl.left buffer := by
  obtain ⟨item, n, found, taken⟩ := replyReaderStep_next h
  obtain ⟨two, le, line⟩ := replyReaderItem_done found
  rcases replyReaderTake_next taken with ⟨charged, frames, rfl⟩ | ⟨token, len, rfl, rfl⟩
  · have offset : ({ impl.skip charged n with frames } : ReplyReader).left buffer =
        2 * (buffer.length - (impl.offset + n)) + 1 := rfl
    rw [offset, ReplyReader.left]
    omega
  · rw [ReplyReader.left, ReplyReader.left, line token rfl]
    simp

end Step

def replyReaderLoop (limits : ReplyLimits) (buffer : Bytes) (impl : ReplyReader) :
    Outcome ReplyReader (Reply × Nat) RespError :=
  match _h : replyReaderStep limits buffer impl with
  | .next impl' => replyReaderLoop limits buffer impl'
  | .more impl' => .more impl'
  | .done reply consumed charged => .done (reply, charged) consumed
  | .fail error => .fail error
  termination_by impl.left buffer
  decreasing_by exact replyReaderStep_left _h

def replyReaderBegin (limits : ReplyLimits) : Option ReplyReader → Except RespError ReplyReader
  | some impl => .ok impl
  | none => (ownerCharge limits 0 limits.ownerBytes).map fun charged => ⟨charged, [], 0, 0, none⟩

def replyReaderNextBuffer (limits : ReplyLimits) : Reader UInt8 (Option ReplyReader) (Reply × Nat) RespError :=
  fun buffer reader =>
    if limits.maxReplyBytes = 0 then .fail .protocol
    else if buffer = [] then .more reader
    else
      match replyReaderBegin limits reader with
      | .error error => .fail error
      | .ok impl => (replyReaderLoop limits buffer impl).map some

end TurboDb.Redis
