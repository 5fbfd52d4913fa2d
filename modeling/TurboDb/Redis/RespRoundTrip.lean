import TurboDb.Redis.RespReader

/-!
Replies are read back as they were written.

Every value is put into the array it belongs to with its last byte, so reading an
encoded reply amounts to charging its cost and putting it in place, whatever
arrays the reader is inside of and whatever follows.
-/

namespace TurboDb.Redis

open ByteOrder Decimal Incremental Effect Reply RespType List Nat

def integerText (value : Int) : Bytes :=
  if value < 0 then 45 :: numeral value.natAbs else numeral value.natAbs

/-- The bytes that a server sends for a reply. The texts of strings and errors must
not end their lines, and there are two ways to write that there is no value. -/
inductive Reply.Encodes : Reply → Bytes → Prop
  | string {text : Bytes} : isPlainText text = true → Encodes (.string text) (respLine 43 text)
  | error {text : Bytes} : isPlainText text = true → Encodes (.error text) (respLine 45 text)
  | integer (value : Int64) : Encodes (.integer value) (respLine 58 (integerText value.toInt))
  | bulkString (bytes : Bytes) :
      Encodes (.bulkString bytes) (respLine 36 (numeral bytes.length) ++ (bytes ++ [13, 10]))
  | array {elements : List (Reply × Bytes)} : (∀ element ∈ elements, Encodes element.1 element.2) →
      Encodes (.array (elements.map Prod.fst))
        (respLine 42 (numeral elements.length) ++ (elements.map Prod.snd).flatten)
  | nullBulk : Encodes .null (respLine 36 (integerText (-1)))
  | nullArray : Encodes .null (respLine 42 (integerText (-1)))

mutual

def Reply.depth : Reply → Nat
  | .array (reply :: rest) => max reply.depth (depthAll rest) + 1
  | _ => 0

def Reply.depthAll : List Reply → Nat
  | [] => 0
  | reply :: rest => max reply.depth (depthAll rest)

end

mutual

def Reply.cost : Reply → Nat
  | .string text | .error text => allocationBytes + (stringBytes + tstrOverhead + text.length)
  | .integer _ | .null => allocationBytes
  | .bulkString bytes => allocationBytes + (stringBytes + tstrOverhead + bytes.length)
  | .array elements => allocationBytes + elements.length * pointerBytes + costAll elements

def Reply.costAll : List Reply → Nat
  | [] => 0
  | reply :: rest => reply.cost + costAll rest

end

section Texts

variable {text rest : Bytes} {n limit : Nat}
variable {first : UInt8} {type : RespType}

theorem respParseDigits_append {magnitude : Nat} {more : Bytes} :
    respParseDigits limit magnitude (text ++ more) =
      (respParseDigits limit magnitude text).bind fun m => respParseDigits limit m more := by
  induction text generalizing magnitude with
  | nil => rfl
  | cons b text ih =>
    rw [cons_append, respParseDigits, respParseDigits]
    split
    · rfl
    · split
      · rfl
      · exact ih

theorem respParseDigits_digit {d magnitude : Nat} (digit_lt : d < 10) :
    respParseDigits limit magnitude [digit d] =
      if (limit - d) / 10 < magnitude then none else some (magnitude * 10 + d) := by
  have isDigit : isDigit (digit d) := isDigit_iff.mpr ⟨d, digit_lt, rfl⟩
  have value : (digit d).toNat - 48 = d := by rw [toNat_digit digit_lt]; omega
  rw [respParseDigits, isDigit, value, if_neg (by simp)]
  rfl

theorem respParseDigits_numeral (le : n ≤ limit) : respParseDigits limit 0 (numeral n) = some n := by
  induction n using Nat.strongRecOn with
  | ind n ih =>
    by_cases small : n < 10
    · rw [numeral_of_lt small, respParseDigits_digit small, if_neg (not_lt_zero _)]
      simp
    · have fits : ¬ (limit - n % 10) / 10 < n / 10 := by
        omega
      rw [numeral_of_le (by omega), respParseDigits_append, ih (n / 10) (by omega) (by omega),
        Option.bind_some, respParseDigits_digit (by omega), if_neg fits]
      congr 1
      omega

theorem respParseDigits_large (nine : 9 ≤ limit) (lt : limit < n) :
    respParseDigits limit 0 (numeral n) = none := by
  induction n using Nat.strongRecOn with
  | ind n ih =>
    rw [numeral_of_le (by omega), respParseDigits_append]
    by_cases le : n / 10 ≤ limit
    · have exceeds : (limit - n % 10) / 10 < n / 10 := by
        omega
      rw [respParseDigits_numeral le, Option.bind_some, respParseDigits_digit (by omega), if_pos exceeds]
    · rw [ih (n / 10) (by omega) (by omega), Option.bind_none]

theorem numeral_cons (n : Nat) : ∃ b tail, numeral n = b :: tail ∧ b ≠ 45 := by
  obtain ⟨b, tail, same⟩ := exists_cons_of_ne_nil (numeral_ne_nil (n := n))
  have digit : isDigit b := numeral_digits (n := n) (by rw [same]; exact mem_cons_self)
  refine ⟨b, tail, same, ?_⟩
  rintro rfl
  cases digit

theorem respParseInteger_integerText {value : Int} (low : -2 ^ 63 ≤ value) (high : value < 2 ^ 63) :
    respParseInteger (integerText value) = some value := by
  rw [integerText]
  split
  · have digits : numeral value.natAbs ≠ [] := numeral_ne_nil
    rw [respParseInteger, if_neg digits, respParseDigits_numeral (by omega), Option.map_some]
    congr 1
    omega
  · obtain ⟨b, tail, same, ne⟩ := numeral_cons value.natAbs
    have parsed : respParseDigits (2 ^ 63 - 1) 0 (numeral value.natAbs) = some value.natAbs :=
      respParseDigits_numeral (by omega)
    rw [same] at parsed ⊢
    rw [respParseInteger]
    · rw [parsed, Option.map_some]
      congr 1
      exact Int.natAbs_of_nonneg (by omega)
    · nofun
    · rintro digits ⟨rfl⟩
      exact ne rfl

theorem numeral_all_digits : (numeral n).all isDigit :=
  all_eq_true.mpr fun _ member => numeral_digits member

theorem isNumberText_integerText (value : Int) : isNumberText (integerText value) := by
  rw [integerText]
  split
  · simp [isNumberText, numeral_ne_nil, numeral_all_digits]
  · obtain ⟨b, tail, same, ne⟩ := numeral_cons value.natAbs
    have sign : ¬ (numeral value.natAbs).head? = some 45 := by
      rw [same]
      simpa using ne
    simp only [isNumberText, if_neg sign, numeral_all_digits, Bool.and_true, decide_eq_true_eq]
    exact numeral_ne_nil

theorem isPlainText_integerText (value : Int) : isPlainText (integerText value) := by
  have digits : isPlainText (numeral value.natAbs) := by
    rw [isPlainText, all_eq_true]
    intro b member
    have digit := numeral_digits member
    simp only [Bool.and_eq_true, decide_eq_true_eq]
    constructor
    · rintro rfl
      cases digit
    · rintro rfl
      cases digit
  rw [integerText]
  split
  · exact digits
  · exact digits

theorem idxOf_line (plain : isPlainText text) :
    (text ++ [13, 10]).idxOf? 10 = some (text.length + 1) := by
  induction text with
  | nil => rfl
  | cons b text ih =>
    simp only [isPlainText, all_cons, Bool.and_eq_true, decide_eq_true_eq] at plain
    rw [cons_append, idxOf?_cons, if_neg (by simpa using plain.1.2), ih plain.2]
    rfl

section OfByte

variable (ofByte : ofByte first = some type)
include ofByte

theorem respScanToken_line (plain : isPlainText text)
    (number : type.isNumber → isNumberText text) :
    respScanToken (respLine first text) =
      if type.isNumber then
        match respParseInteger text with
        | none => .fail ()
        | some value => .done ⟨type, text, value⟩ (text.length + 3)
      else .done ⟨type, text, 0⟩ (text.length + 3) := by
  have header : respScanHeader first text = some type := by
    rw [respScanHeader, ofByte]
    cases kind : type.isNumber with
    | true => simp [Option.filter, kind, number kind]
    | false => simp [Option.filter, kind, plain]
  rw [respLine, respScanToken, idxOf_line plain]
  dsimp only
  rw [if_neg (by simp), Nat.add_sub_cancel, take_left]
  cases kind : type.isNumber <;> cases respParseInteger text <;> simp [header, kind]

theorem respScanToken_text (word : type.isNumber = false) (plain : isPlainText text) :
    respScanToken (respLine first text) = .done ⟨type, text, 0⟩ (text.length + 3) := by
  rw [respScanToken_line ofByte plain (by simp [word]), if_neg (by simp [word])]

theorem respScanToken_number {value : Int} (number : type.isNumber) (low : -2 ^ 63 ≤ value)
    (high : value < 2 ^ 63) :
    respScanToken (respLine first (integerText value)) =
      .done ⟨type, integerText value, value⟩ ((integerText value).length + 3) := by
  rw [respScanToken_line ofByte (isPlainText_integerText value) (fun _ => isNumberText_integerText value),
    if_pos number, respParseInteger_integerText low high]

end OfByte

theorem integerText_ofNat (n : Nat) : integerText n = numeral n := by
  rw [integerText, if_neg (by omega), Int.natAbs_natCast]

theorem isPlainText_numeral (n : Nat) : isPlainText (numeral n) := by
  exact isPlainText_integerText n

/-- The lexer takes the line of a size, or refuses one that is too large. -/
theorem respScanToken_size (ofByte : ofByte first = some type)
    (number : type.isNumber) (n : Nat) :
    respScanToken (respLine first (numeral n)) = .done ⟨type, numeral n, n⟩ ((numeral n).length + 3) ∨
      respScanToken (respLine first (numeral n)) = .fail () ∧ 2 ^ 63 ≤ n := by
  by_cases small : n < 2 ^ 63
  · left
    have scan := respScanToken_number ofByte number (show -2 ^ 63 ≤ (n : Int) by omega) (by omega)
    rwa [integerText_ofNat] at scan
  · right
    have isNumber := isNumberText_integerText n
    refine ⟨?_, not_lt.mp small⟩
    rw [respScanToken_line ofByte (isPlainText_numeral n) (fun _ => isNumber), if_pos number]
    obtain ⟨b, tail, same, ne⟩ := numeral_cons n
    have large : respParseDigits (2 ^ 63 - 1) 0 (numeral n) = none :=
      respParseDigits_large (by decide) (by omega)
    rw [same] at large ⊢
    rw [respParseInteger]
    · rw [large]
      rfl
    · nofun
    · rintro digits ⟨rfl⟩
      exact ne rfl

theorem crlf_line (plain : isPlainText text) (ne : first ≠ 13) :
    crlf (respLine first text ++ rest) = some (text.length + 1) := by
  have tail : crlf (text ++ [13, 10] ++ rest) = some text.length := by
    induction text with
    | nil => rfl
    | cons b text ih =>
      simp only [isPlainText, all_cons, Bool.and_eq_true, decide_eq_true_eq] at plain
      rw [cons_append, cons_append, crlf, if_neg (fun both => plain.1.1 both.1), ih plain.2]
      rfl
  rw [respLine, cons_append, crlf, if_neg (fun both => ne both.1), tail]
  rfl

end Texts

def readerAt (charged : Nat) (frames : List RespFrame) (offset : Nat) : ReplyReader :=
  ⟨charged, frames, offset, offset, none⟩

section Encoded

variable {limits : ReplyLimits} {before rest text : Bytes} {charged : Nat} {frames : List RespFrame}
variable {first : UInt8} {buffer : Bytes} {impl : ReplyReader}

theorem length_respLine : (respLine first text).length = text.length + 3 := by
  simp [respLine]

section Plain

variable (plain : isPlainText text) (ne : first ≠ 13)
include plain ne

theorem replyReaderLine_line :
    replyReaderLine (before ++ (respLine first text ++ rest)) (readerAt charged frames before.length) =
      match respScanToken (respLine first text) with
      | .done token headerLen =>
        if headerLen = text.length + 3 then .done token (text.length + 3) else .fail ()
      | _ => .fail () := by
  have index : max before.length before.length = before.length := max_self _
  have len : before.length + (text.length + 1) + 2 - before.length = text.length + 3 := by omega
  have line : ((respLine first text ++ rest).take (text.length + 3)) = respLine first text := by
    rw [← length_respLine, take_left]
  rw [replyReaderLine]
  cases scanned : respScanToken (respLine first text) <;>
    simp only [readerAt, index, drop_left, crlf_line plain ne, len, line, scanned]

theorem replyReaderItem_line {token : RespToken}
    (scan : respScanToken (respLine first text) = .done token (text.length + 3)) :
    replyReaderItem (before ++ (respLine first text ++ rest)) (readerAt charged frames before.length) =
      if intMax < before.length + (text.length + 3) then .fail ()
      else .done (.token token) (text.length + 3) := by
  have line : replyReaderLine (before ++ (respLine first text ++ rest))
      (readerAt charged frames before.length) = .done token (text.length + 3) := by
    rw [replyReaderLine_line plain ne, scan]
    exact if_pos rfl
  have far : (intMax < text.length + 3 ∨ intMax - (text.length + 3) < before.length) ↔
      intMax < before.length + (text.length + 3) := by omega
  simp only [replyReaderItem, readerAt] at line ⊢
  rw [line]
  exact if_congr far rfl rfl

theorem replyReaderItem_refused (scan : respScanToken (respLine first text) = .fail ()) :
    replyReaderItem (before ++ (respLine first text ++ rest)) (readerAt charged frames before.length) =
      .fail () := by
  have line : replyReaderLine (before ++ (respLine first text ++ rest))
      (readerAt charged frames before.length) = .fail () := by
    rw [replyReaderLine_line plain ne, scan]
  simp only [replyReaderItem, readerAt] at line ⊢
  rw [line]

end Plain

theorem replyReaderLoop_item {item : RespItem} {n : Nat}
    (shallow : impl.frames.length ≤ respMaxDepth) (found : replyReaderItem buffer impl = .done item n) :
    replyReaderLoop limits buffer impl = (replyReaderTake limits impl n item).resume limits buffer := by
  rw [replyReaderLoop_eq, replyReaderStep, if_neg (not_lt.mpr shallow), found]

theorem replyReaderLoop_deep (deep : respMaxDepth < impl.frames.length) :
    replyReaderLoop limits buffer impl = .fail .protocol := by
  rw [replyReaderLoop_eq, replyReaderStep, if_pos deep]
  rfl

theorem replyReaderLoop_refused (refused : replyReaderItem buffer impl = .fail ()) :
    replyReaderLoop limits buffer impl = .fail .protocol := by
  rw [replyReaderLoop_eq, replyReaderStep, refused]
  split <;> rfl

theorem ownerCharge_cases (limits : ReplyLimits) (charged bytes : Nat) :
    ownerCharge limits charged bytes = .ok (charged + bytes) ∨
      ownerCharge limits charged bytes = .error .limit ∧ limits.maxReplyBytes < charged + bytes := by
  rw [ownerCharge]
  split
  · exact .inr ⟨rfl, by omega⟩
  · exact .inl rfl

theorem ownerCharge_text {α : Type} (limits : ReplyLimits) (charged n : Nat) (k : Nat → Except RespError α) :
    (do
      let charged ← ownerCharge limits charged allocationBytes
      let charged ← ownerCharge limits charged (stringBytes + tstrOverhead + n)
      k charged) = k (charged + (allocationBytes + (stringBytes + tstrOverhead + n))) ∨
    (do
      let charged ← ownerCharge limits charged allocationBytes
      let charged ← ownerCharge limits charged (stringBytes + tstrOverhead + n)
      k charged) = .error .limit ∧
        limits.maxReplyBytes < charged + (allocationBytes + (stringBytes + tstrOverhead + n)) := by
  rcases ownerCharge_cases limits charged allocationBytes with ok | ⟨error, past⟩
  · rw [ok, ok_bind]
    rcases ownerCharge_cases limits (charged + allocationBytes) (stringBytes + tstrOverhead + n) with
      ok | ⟨error, past⟩
    · rw [ok, ok_bind, add_assoc]
      exact .inl rfl
    · rw [error]
      exact .inr ⟨rfl, by omega⟩
  · rw [error]
    exact .inr ⟨rfl, by omega⟩

/-- A reply at a place is within the limits of depth, memory and length. -/
structure Fits (limits : ReplyLimits) (charged depth offset : Nat) (reply : Reply) (bytes : Bytes) : Prop where
  depth : depth + reply.depth ≤ respMaxDepth
  cost : charged + reply.cost ≤ limits.maxReplyBytes
  length : offset + bytes.length ≤ intMax

/-- Reading an encoded reply charges its cost and puts it in its place, or fails if
it is not within the limits. -/
def Reads (limits : ReplyLimits) (reply : Reply) (bytes : Bytes) : Prop :=
  ∀ (before rest : Bytes) (charged : Nat) (frames : List RespFrame),
    replyReaderLoop limits (before ++ (bytes ++ rest)) (readerAt charged frames before.length) =
      (attachValue (readerAt (charged + reply.cost) frames (before.length + bytes.length)) reply).resume
        limits (before ++ (bytes ++ rest)) ∨
    (∃ error, replyReaderLoop limits (before ++ (bytes ++ rest)) (readerAt charged frames before.length) =
      .fail error) ∧ ¬ Fits limits charged frames.length before.length reply bytes

theorem reads_line {reply : Reply} {token : RespToken} (ne : first ≠ 13)
    (plain : isPlainText text)
    (scan : respScanToken (respLine first text) = .done token (text.length + 3))
    (single : ¬ (token.type = .bulk ∧ 0 ≤ token.intValue))
    (parsed : ∀ charged, parsedToken limits charged token = .ok (charged + reply.cost, .value reply) ∨
      parsedToken limits charged token = .error .limit ∧ limits.maxReplyBytes < charged + reply.cost) :
    Reads limits reply (respLine first text) := by
  intro before rest charged frames
  by_cases shallow : frames.length ≤ respMaxDepth
  case neg =>
    refine .inr ⟨⟨_, replyReaderLoop_deep (not_le.mp shallow)⟩, fun fits => ?_⟩
    have := fits.depth
    omega
  by_cases near : before.length + (text.length + 3) ≤ intMax
  case neg =>
    refine .inr ⟨⟨_, replyReaderLoop_refused ?_⟩, fun fits => ?_⟩
    · rw [replyReaderItem_line plain ne scan, if_pos (not_le.mp near)]
    · have := fits.length
      rw [length_respLine] at this
      omega
  have found : replyReaderItem (before ++ (respLine first text ++ rest))
      (readerAt charged frames before.length) = .done (.token token) (text.length + 3) := by
    rw [replyReaderItem_line plain ne scan, if_neg (not_lt.mpr near)]
  have same : (readerAt charged frames before.length).charged = charged := rfl
  rw [replyReaderLoop_item shallow found, replyReaderTake, if_neg single, same, length_respLine]
  rcases parsed charged with ok | ⟨error, past⟩
  · rw [ok]
    exact .inl rfl
  · rw [error]
    exact .inr ⟨⟨_, rfl⟩, fun fits => not_le.mpr past fits.cost⟩

theorem reads_string (plain : isPlainText text) : Reads limits (.string text) (respLine 43 text) :=
  reads_line (by decide) plain (respScanToken_text (show ofByte 43 = some .string from rfl) rfl plain)
    (by simp) fun charged => ownerCharge_text limits charged text.length _

theorem reads_error (plain : isPlainText text) : Reads limits (.error text) (respLine 45 text) :=
  reads_line (by decide) plain (respScanToken_text (show ofByte 45 = some .error from rfl) rfl plain)
    (by simp) fun charged => ownerCharge_text limits charged text.length _

theorem reads_integer (value : Int64) :
    Reads limits (.integer value) (respLine 58 (integerText value.toInt)) := by
  refine reads_line (by decide) (isPlainText_integerText _)
    (respScanToken_number rfl rfl value.le_toInt value.toInt_lt) (by simp) fun charged => ?_
  rw [parsedToken, cost]
  rcases ownerCharge_cases limits charged allocationBytes with ok | ⟨error, past⟩
  · rw [ok, ok_bind]
    rw [Int64.ofInt_toInt]
    exact .inl rfl
  · rw [error]
    exact .inr ⟨rfl, past⟩

/-- Both lines that announce a size of minus one stand for no value. -/
theorem reads_null {type : RespType} (ofByte : ofByte first = some type)
    (sized : type = .bulk ∨ type = .array) : Reads limits .null (respLine first (integerText (-1))) := by
  have ne : first ≠ 13 := by
    rintro rfl
    cases ofByte
  have number : type.isNumber := by rcases sized with rfl | rfl <;> rfl
  refine reads_line ne (isPlainText_integerText _)
    (respScanToken_number ofByte number (by decide) (by decide)) (by simp) fun charged => ?_
  rw [parsedToken, cost]
  rcases ownerCharge_cases limits charged allocationBytes with ok | ⟨error, past⟩
  · rw [ok, ok_bind]
    rcases sized with rfl | rfl
    · exact .inl rfl
    · exact .inl rfl
  · rw [error]
    exact .inr ⟨rfl, past⟩

theorem replyReaderItem_size {type : RespType} (ofByte : ofByte first = some type)
    (number : type.isNumber) (n : Nat) :
    replyReaderItem (before ++ (respLine first (numeral n) ++ rest)) (readerAt charged frames before.length) =
      .done (.token ⟨type, numeral n, n⟩) (respLine first (numeral n)).length ∨
    replyReaderItem (before ++ (respLine first (numeral n) ++ rest)) (readerAt charged frames before.length) =
      .fail () ∧ (intMax < before.length + (respLine first (numeral n)).length ∨ 2 ^ 63 ≤ n) := by
  have ne : first ≠ 13 := by
    rintro rfl
    cases ofByte
  rw [length_respLine]
  rcases respScanToken_size ofByte number n with scan | ⟨scan, large⟩
  · rw [replyReaderItem_line (isPlainText_numeral n) ne scan]
    by_cases far : intMax < before.length + ((numeral n).length + 3)
    · rw [if_pos far]
      exact .inr ⟨rfl, .inl far⟩
    · rw [if_neg far]
      exact .inl rfl
  · exact .inr ⟨replyReaderItem_refused (isPlainText_numeral n) ne scan, .inr large⟩

/-- The bytes that a line announced are the next item unless they lie too far behind. -/
theorem replyReaderItem_bulk {header bytes : Bytes} (offset : impl.offset = before.length)
    (due : impl.bulk = some (header.length, bytes.length)) :
    replyReaderItem (before ++ (header ++ (bytes ++ ([13, 10] ++ rest)))) impl =
      if intMax < before.length + (header.length + bytes.length + 2) then .fail ()
      else .done (.bulk bytes) (header.length + bytes.length + 2) := by
  have start : (before ++ (header ++ (bytes ++ ([13, 10] ++ rest)))).drop (before.length + header.length) =
      bytes ++ ([13, 10] ++ rest) := by
    rw [← drop_drop, drop_left, drop_left]
  have stop : (before ++ (header ++ (bytes ++ ([13, 10] ++ rest)))).drop
      (before.length + header.length + bytes.length) = [13, 10] ++ rest := by
    rw [← drop_drop, start, drop_left]
  have long : ¬ (before ++ (header ++ (bytes ++ ([13, 10] ++ rest)))).length - before.length <
      header.length + bytes.length + 2 := by
    simp only [length_append, length_cons, length_nil]
    omega
  have far : (intMax < header.length + bytes.length + 2 ∨
      intMax - (header.length + bytes.length + 2) < before.length) ↔
        intMax < before.length + (header.length + bytes.length + 2) := by omega
  have ends : ¬ ([13, 10] ++ rest).take 2 ≠ [13, 10] := by simp
  rw [replyReaderItem, due]
  dsimp only
  rw [offset, if_neg long, stop, start, if_neg ends, take_left]
  exact if_congr far rfl rfl

theorem replyReaderTake_bulk (limits : ReplyLimits) (impl : ReplyReader) (n : Nat) (bytes : Bytes) :
    replyReaderTake limits impl n (.bulk bytes) =
      attachValue (impl.skip (impl.charged + (bulkString bytes).cost) n) (.bulkString bytes) ∨
    replyReaderTake limits impl n (.bulk bytes) = .fail .limit ∧
      limits.maxReplyBytes < impl.charged + (bulkString bytes).cost := by
  have charge := ownerCharge_text limits impl.charged bytes.length pure
  simp only [bind_pure] at charge
  rw [replyReaderTake, cost]
  rcases charge with ok | ⟨error, past⟩
  · rw [ok]
    exact .inl rfl
  · rw [error]
    exact .inr ⟨rfl, past⟩

theorem reads_bulkString (bytes : Bytes) :
    Reads limits (.bulkString bytes) (respLine 36 (numeral bytes.length) ++ (bytes ++ [13, 10])) := by
  intro before rest charged frames
  have length : (respLine 36 (numeral bytes.length) ++ (bytes ++ [13, 10])).length =
      (respLine 36 (numeral bytes.length)).length + bytes.length + 2 := by
    simp only [length_append, length_cons, length_nil]
    omega
  have split : respLine 36 (numeral bytes.length) ++ (bytes ++ [13, 10]) ++ rest =
      respLine 36 (numeral bytes.length) ++ (bytes ++ ([13, 10] ++ rest)) := by simp
  rw [split, length]
  by_cases shallow : frames.length ≤ respMaxDepth
  case neg =>
    refine .inr ⟨⟨_, replyReaderLoop_deep (not_le.mp shallow)⟩, fun fits => ?_⟩
    have := fits.depth
    omega
  rcases replyReaderItem_size (show ofByte 36 = some .bulk from rfl) rfl bytes.length with
    announced | ⟨refused, far⟩
  case inr =>
    refine .inr ⟨⟨_, replyReaderLoop_refused refused⟩, fun fits => ?_⟩
    have := fits.length
    rw [intMax] at this far
    omega
  rw [replyReaderLoop_item shallow announced, replyReaderTake, if_pos ⟨rfl, Int.natCast_nonneg _⟩,
    ReaderStep.resume, Int.toNat_natCast]
  -- The second turn finds the announced bytes.
  have found : replyReaderItem (before ++ (respLine 36 (numeral bytes.length) ++ (bytes ++ ([13, 10] ++ rest))))
      { readerAt charged frames before.length with
        bulk := some ((respLine 36 (numeral bytes.length)).length, bytes.length) } = _ :=
    replyReaderItem_bulk rfl rfl
  by_cases near : before.length + ((respLine 36 (numeral bytes.length)).length + bytes.length + 2) ≤ intMax
  case neg =>
    rw [if_pos (not_le.mp near)] at found
    refine .inr ⟨⟨_, replyReaderLoop_refused found⟩, fun fits => near ?_⟩
    rw [← length]
    exact fits.length
  rw [if_neg (not_lt.mpr near)] at found
  rw [replyReaderLoop_item shallow found]
  rcases replyReaderTake_bulk limits { readerAt charged frames before.length with
      bulk := some ((respLine 36 (numeral bytes.length)).length, bytes.length) }
      ((respLine 36 (numeral bytes.length)).length + bytes.length + 2) bytes with ok | ⟨error, past⟩
  · rw [ok]
    exact .inl rfl
  · rw [error]
    exact .inr ⟨⟨_, rfl⟩, fun fits => not_le.mpr past fits.cost⟩

theorem attachValue_frame {frame : RespFrame} {offset : Nat} {reply : Reply} :
    attachValue (readerAt charged (frame :: frames) offset) reply =
      if h : frame.items.length + 1 < frame.count then
        .next (readerAt charged
          (⟨frame.count, frame.items ++ [reply], by simpa using h⟩ :: frames) offset)
      else attachValue (readerAt charged frames offset) (.array (frame.items ++ [reply])) := by
  by_cases h : frame.items.length + 1 < frame.count
  · rw [dif_pos h, attachValue, readerAt, completeValue, dif_pos h]
    rfl
  · rw [dif_neg h, attachValue, readerAt, completeValue, dif_neg h]
    rfl

/-- The elements that an array still waits for are within the limits. -/
structure FitAll (limits : ReplyLimits) (charged depth offset : Nat) (elements : List (Reply × Bytes)) :
    Prop where
  depth : depth + depthAll (elements.map Prod.fst) ≤ respMaxDepth
  cost : charged + costAll (elements.map Prod.fst) ≤ limits.maxReplyBytes
  length : offset + (elements.map Prod.snd).flatten.length ≤ intMax

section FitAll

variable {depth offset : Nat} {reply : Reply} {bytes : Bytes} {elements : List (Reply × Bytes)}

theorem FitAll.cons (fit : FitAll limits charged depth offset ((reply, bytes) :: elements)) :
    Fits limits charged depth offset reply bytes ∧
      FitAll limits (charged + reply.cost) depth (offset + bytes.length) elements := by
  obtain ⟨deep, cost, length⟩ := fit
  simp only [map_cons, depthAll, costAll, flatten_cons, length_append]
    at deep cost length
  exact ⟨⟨by omega, by omega, by omega⟩, by omega, by omega, by omega⟩

end FitAll

variable {elements : List (Reply × Bytes)} {reply : Reply} {bytes : Bytes}

theorem reads_elements (each : ∀ element ∈ elements, Reads limits element.1 element.2) :
    ∀ (before rest : Bytes) (charged count : Nat) (items : List Reply) (waits : items.length < count),
      items.length + elements.length = count →
      replyReaderLoop limits (before ++ ((elements.map Prod.snd).flatten ++ rest))
          (readerAt charged (⟨count, items, waits⟩ :: frames) before.length) =
        (attachValue (readerAt (charged + costAll (elements.map Prod.fst)) frames
          (before.length + (elements.map Prod.snd).flatten.length))
          (.array (items ++ elements.map Prod.fst))).resume limits
            (before ++ ((elements.map Prod.snd).flatten ++ rest)) ∨
      (∃ error, replyReaderLoop limits (before ++ ((elements.map Prod.snd).flatten ++ rest))
          (readerAt charged (⟨count, items, waits⟩ :: frames) before.length) = .fail error) ∧
        ¬ FitAll limits charged (frames.length + 1) before.length elements := by
  induction elements with
  | nil =>
    intro before rest charged count items waits total
    exact absurd total (Nat.ne_of_lt waits)
  | cons element elements ih =>
    intro before rest charged count items waits total
    obtain ⟨reply, bytes⟩ := element
    have same : before ++ ((((reply, bytes) :: elements).map Prod.snd).flatten ++ rest) =
        before ++ (bytes ++ ((elements.map Prod.snd).flatten ++ rest)) := by simp
    rw [same]
    have first : Reads limits reply bytes := each (reply, bytes) mem_cons_self
    rcases first before ((elements.map Prod.snd).flatten ++ rest) charged
      (⟨count, items, waits⟩ :: frames) with read | ⟨failed, past⟩
    case inr => exact .inr ⟨failed, fun fit => past fit.cons.1⟩
    rw [read, attachValue_frame]
    cases elements with
    | nil =>
      have last : ¬ items.length + 1 < count := by
        rw [← total]
        simp
      rw [dif_neg last]
      exact .inl (by simp [costAll])
    | cons next elements =>
      have more : items.length + 1 < count := by
        rw [← total, length_cons, length_cons]
        omega
      have others := ih (fun element member => each element (mem_cons_of_mem _ member))
        (before ++ bytes) rest (charged + reply.cost) count (items ++ [reply]) (by simpa using more)
        (by rw [← total]; simp; omega)
      have behind : (before ++ bytes).length = before.length + bytes.length := length_append
      rw [append_assoc, append_assoc, behind] at others
      rw [dif_pos more, ReaderStep.resume]
      rcases others with read | ⟨failed, past⟩
      · rw [read]
        exact .inl (by simp [costAll, add_assoc])
      · exact .inr ⟨failed, fun fit => past fit.cons.2⟩

/-- An array with elements is charged before they are read, if there may be so many. -/
theorem parsedToken_array (limits : ReplyLimits) (charged : Nat) (value : Bytes) {count : Nat}
    (nonempty : 0 < count) :
    parsedToken limits charged ⟨.array, value, count⟩ =
      .ok (charged + (allocationBytes + count * pointerBytes), .array count nonempty) ∨
    (∃ error, parsedToken limits charged ⟨.array, value, count⟩ = .error error) ∧
      (limits.maxReplyBytes < charged + (allocationBytes + count * pointerBytes) ∨
        sizeMax / pointerBytes < count) := by
  have parsed : parsedToken limits charged ⟨.array, value, count⟩ =
      ownerCharge limits charged allocationBytes >>= fun charged =>
        if sizeMax / pointerBytes < count then .error .protocol
        else ownerCharge limits charged (count * pointerBytes) >>= fun charged =>
          .ok (charged, .array count nonempty) := by
    rw [parsedToken]
    congr 1
    funext charged
    dsimp only
    rw [if_neg (by omega), if_neg (by omega), dif_pos (by exact nonempty)]
    rfl
  rw [parsed]
  rcases ownerCharge_cases limits charged allocationBytes with ok | ⟨error, past⟩
  case inr =>
    rw [error]
    exact .inr ⟨⟨_, rfl⟩, .inl (by omega)⟩
  rw [ok, ok_bind]
  by_cases many : sizeMax / pointerBytes < count
  · rw [if_pos many]
    exact .inr ⟨⟨_, rfl⟩, .inr many⟩
  · rw [if_neg many]
    rcases ownerCharge_cases limits (charged + allocationBytes) (count * pointerBytes) with ok | ⟨error, past⟩
    · rw [ok, ok_bind, add_assoc]
      exact .inl rfl
    · rw [error]
      exact .inr ⟨⟨_, rfl⟩, .inl (by omega)⟩

theorem Reply.Encodes.length_pos (encodes : reply.Encodes bytes) : 0 < bytes.length := by
  cases encodes <;> simp [respLine]

theorem length_le_flatten (each : ∀ element ∈ elements, element.1.Encodes element.2) :
    elements.length ≤ (elements.map Prod.snd).flatten.length := by
  induction elements with
  | nil => exact le_refl 0
  | cons element elements ih =>
    have first := (each element mem_cons_self).length_pos
    have others := ih fun element member => each element (mem_cons_of_mem _ member)
    rw [map_cons, flatten_cons, length_append, length_cons]
    omega

theorem reads_array (few : elements.length ≤ (elements.map Prod.snd).flatten.length)
    (each : ∀ element ∈ elements, Reads limits element.1 element.2) :
    Reads limits (.array (elements.map Prod.fst))
      (respLine 42 (numeral elements.length) ++ (elements.map Prod.snd).flatten) := by
  intro before rest charged frames
  rw [append_assoc, length_append]
  by_cases shallow : frames.length ≤ respMaxDepth
  case neg =>
    refine .inr ⟨⟨_, replyReaderLoop_deep (not_le.mp shallow)⟩, fun fits => ?_⟩
    have := fits.depth
    omega
  rcases replyReaderItem_size (show ofByte 42 = some .array from rfl) rfl elements.length with
    announced | ⟨refused, far⟩
  case inr =>
    refine .inr ⟨⟨_, replyReaderLoop_refused refused⟩, fun fits => ?_⟩
    have := fits.length
    rw [length_append] at this
    rw [intMax] at this far
    omega
  have same : (readerAt charged frames before.length).charged = charged := rfl
  rw [replyReaderLoop_item shallow announced, replyReaderTake, if_neg (by simp), same]
  cases elements with
  | nil =>
    rw [parsedToken]
    rcases ownerCharge_cases limits charged allocationBytes with ok | ⟨error, past⟩
    · rw [ok]
      exact .inl rfl
    · rw [error]
      exact .inr ⟨⟨_, rfl⟩, fun fits => not_le.mpr past fits.cost⟩
  | cons element others =>
    have nonempty : 0 < (element :: others).length := succ_pos _
    rcases parsedToken_array limits charged (numeral (element :: others).length) nonempty with
      parsed | ⟨⟨error, refused⟩, past⟩
    case inr =>
      rw [refused]
      refine .inr ⟨⟨_, rfl⟩, fun fits => ?_⟩
      obtain ⟨_, cost, length⟩ := fits
      rw [Reply.cost, length_map] at cost
      rw [length_append] at length
      rw [intMax] at length
      have words : sizeMax / pointerBytes = 2 ^ 61 - 1 := by decide
      omega
    rw [parsed]
    dsimp only
    -- The announced array becomes the innermost frame, and the elements fill it.
    have attached : attachArray ((readerAt charged frames before.length).skip
        (charged + (allocationBytes + (element :: others).length * pointerBytes))
        (respLine 42 (numeral (element :: others).length)).length) _ nonempty =
          .next (readerAt (charged + (allocationBytes + (element :: others).length * pointerBytes))
            (⟨(element :: others).length, [], nonempty⟩ :: frames)
            (before.length + (respLine 42 (numeral (element :: others).length)).length)) :=
      if_neg (not_lt.mpr shallow)
    have filled := @reads_elements limits frames _ each
      (before ++ respLine 42 (numeral (element :: others).length)) rest
      (charged + (allocationBytes + (element :: others).length * pointerBytes)) _ [] nonempty (zero_add _)
    rw [append_assoc, length_append] at filled
    rw [attached, ReaderStep.resume]
    rcases filled with read | ⟨failed, past⟩
    · rw [read]
      exact .inl (by simp [cost, add_assoc])
    · refine .inr ⟨failed, fun fits => past ?_⟩
      obtain ⟨deep, cost, length⟩ := fits
      rw [Reply.cost, length_map] at cost
      rw [length_append] at length
      rw [map_cons, depth] at deep
      exact ⟨by rw [map_cons, depthAll]; omega, by omega, by omega⟩

theorem Reply.Encodes.reads (encodes : reply.Encodes bytes) : Reads limits reply bytes := by
  induction encodes with
  | string plain => exact reads_string plain
  | error plain => exact reads_error plain
  | integer value => exact reads_integer value
  | bulkString bytes => exact reads_bulkString bytes
  | array each ih => exact reads_array (length_le_flatten each) ih
  | nullBulk => exact reads_null rfl (.inl rfl)
  | nullArray => exact reads_null rfl (.inr rfl)

/-- A reply comes back from its bytes, whatever follows them, with its cost charged;
the reader fails only if the reply is not within the limits. -/
theorem replyReaderNextBuffer_encodes (encodes : reply.Encodes bytes) :
    replyReaderNextBuffer limits (bytes ++ rest) none =
      .done (reply, limits.ownerBytes + reply.cost) bytes.length ∨
    (∃ error, replyReaderNextBuffer limits (bytes ++ rest) none = .fail error) ∧
      ¬ Fits limits limits.ownerBytes 0 0 reply bytes := by
  have positive : 0 < reply.cost := by
    cases encodes <;> simp [cost, allocationBytes]
  have nonempty : bytes ++ rest ≠ [] := by
    rw [← length_pos_iff, length_append]
    have := encodes.length_pos
    omega
  rw [replyReaderNextBuffer]
  by_cases zero : limits.maxReplyBytes = 0
  case pos =>
    rw [if_pos zero]
    refine .inr ⟨⟨_, rfl⟩, fun fits => ?_⟩
    have := fits.cost
    omega
  rw [if_neg zero, if_neg nonempty, replyReaderBegin]
  rcases ownerCharge_cases limits 0 limits.ownerBytes with ok | ⟨error, past⟩
  case inr =>
    rw [error]
    refine .inr ⟨⟨_, rfl⟩, fun fits => ?_⟩
    have := fits.cost
    omega
  have begun : (ownerCharge limits 0 limits.ownerBytes).map
      (fun charged => (⟨charged, [], 0, 0, none⟩ : ReplyReader)) = .ok (readerAt limits.ownerBytes [] 0) := by
    rw [ok, zero_add]
    rfl
  rw [begun]
  dsimp only
  have reads : Reads limits reply bytes := encodes.reads
  rcases reads [] rest limits.ownerBytes [] with read | ⟨⟨error, failed⟩, past⟩
  case inr =>
    refine .inr ⟨⟨error, ?_⟩, past⟩
    rw [show replyReaderLoop limits (bytes ++ rest) (readerAt limits.ownerBytes [] 0) = _ from failed]
    rfl
  have loop : replyReaderLoop limits (bytes ++ rest) (readerAt limits.ownerBytes [] 0) = _ := read
  rw [loop, length_nil, zero_add]
  by_cases far : intMax < bytes.length
  · rw [show attachValue (readerAt (limits.ownerBytes + reply.cost) [] bytes.length) reply = .fail .protocol from
      if_pos far]
    refine .inr ⟨⟨_, rfl⟩, fun fits => ?_⟩
    have := fits.length
    omega
  · rw [show attachValue (readerAt (limits.ownerBytes + reply.cost) [] bytes.length) reply =
      .done reply bytes.length (limits.ownerBytes + reply.cost) from if_neg far]
    exact .inl rfl

end Encoded

/-- The reader is independent of how its input arrives, reads back what was
written, and keeps the memory of each reply within the limit. -/
theorem replyReader_correct (limits : ReplyLimits) :
    (∀ pieces : List Bytes,
      let cut := pieces.foldl (Session.feed (replyReaderNextBuffer limits) none)
        (Session.start (replyReaderNextBuffer limits) none)
      let whole := (Session.start (replyReaderNextBuffer limits) none).feed (replyReaderNextBuffer limits) none
        pieces.flatten
      cut.values = whole.values ∧ cut.failed = whole.failed) ∧
    (∀ (reply : Reply) (bytes rest : Bytes), reply.Encodes bytes → reply.depth ≤ respMaxDepth →
      limits.ownerBytes + reply.cost ≤ limits.maxReplyBytes → bytes.length ≤ intMax →
      replyReaderNextBuffer limits (bytes ++ rest) none =
        .done (reply, limits.ownerBytes + reply.cost) bytes.length) ∧
    ∀ pieces : List Bytes,
      let cut := pieces.foldl (Session.feed (replyReaderNextBuffer limits) none)
        (Session.start (replyReaderNextBuffer limits) none)
      ReaderCharged limits cut.state ∧ ∀ value ∈ cut.values, value.2 ≤ limits.maxReplyBytes := by
  refine ⟨fun pieces => ?_, fun reply bytes rest encodes deep cost length => ?_, fun pieces => ?_⟩
  · have simulates : Simulates (replyReaderNextBuffer limits) _ _ none _ := replyReaderNextBuffer_simulates
    have same := feed_pieces_map simulates replyReaderCore_resumable pieces
    simp only [Session.map, Session.mk.injEq] at same
    exact ⟨same.2.2.1, same.2.2.2⟩
  · rcases replyReaderNextBuffer_encodes encodes with read | ⟨_, past⟩
    · exact read
    · exact absurd ⟨by rwa [zero_add], cost, by rwa [zero_add]⟩ past
  · have fresh : ReaderCharged limits none := by simp [ReaderCharged]
    obtain ⟨charged, values⟩ := start_invariant fresh (@replyReaderNextBuffer_charged limits)
    exact foldl_feed_invariant fresh (@replyReaderNextBuffer_charged limits) charged values pieces

end TurboDb.Redis
