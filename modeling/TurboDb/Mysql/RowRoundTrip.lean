import TurboDb.Mysql.Row
import TurboDb.Library.Reader
import TurboDb.Mysql.StatementRoundTrip

/-!
Rows are decoded to the values they were encoded from.

A writer has written all bytes so far, kept or measured, or its capacity is
exceeded for good. The decoders are put together from readers that look at nothing
behind what they take, so that no row is an initial part of another one.
-/

namespace TurboDb.Mysql

open ByteOrder Effect Reader Bitmap List

variable {keeps : Bool} {capacity : Nat} {w : Writer} {values : List Value}

variable {before after : Bytes} {binary : Bool} {payload : Bytes} {columns : List ColumnDefinition}
  {valueCapacity : Nat} {definition : ColumnDefinition} {definitions : List ColumnDefinition}

section Write

def Wrote (keeps : Bool) (capacity : Nat) (out : Bytes) (w : Writer) : Prop :=
  w.capacity = capacity ∧
    if out.length ≤ capacity then
      w.status = .ok ∧ w.size = out.length ∧ w.data = if keeps then some out else none
    else w.status = .limit

variable {out : Bytes}

theorem Wrote.start (keeps : Bool) (capacity : Nat) :
    Wrote keeps capacity [] ⟨if keeps then some [] else none, 0, capacity, .ok⟩ := by
  simp [Wrote]

section Wrote

variable (wrote : Wrote keeps capacity out w)
include wrote

theorem Wrote.full (full : capacity < out.length) : w.status = .limit := by
  have := wrote.2
  rwa [if_neg (by omega)] at this

theorem Wrote.ok (fits : out.length ≤ capacity) :
    w = ⟨if keeps then some out else none, out.length, capacity, .ok⟩ := by
  obtain ⟨cap, state⟩ := wrote
  cases w
  simp_all

theorem Wrote.emit (data : Bytes) : Wrote keeps capacity (out ++ data) (w.emit data) := by
  by_cases fits : out.length ≤ capacity
  · obtain rfl := wrote.ok fits
    rw [Writer.emit, if_neg (by simp), if_neg (by simpa using fits)]
    by_cases more : data.length > capacity - out.length
    · rw [if_pos more]
      refine ⟨rfl, ?_⟩
      rw [if_neg (by rw [length_append]; omega)]
    · rw [if_neg more]
      refine ⟨rfl, ?_⟩
      rw [if_pos (by rw [length_append]; omega)]
      cases keeps <;> simp
  · have full := wrote.full (by omega)
    rw [Writer.emit, if_pos (by simp [full])]
    exact ⟨wrote.1, by rw [if_neg (by rw [length_append]; omega), full]⟩

theorem Wrote.bytes (value : Bytes) :
    Wrote keeps capacity (out ++ lenencBytes value) (w.bytes (some value)) := by
  rw [lenencBytes, ← append_assoc]
  exact (wrote.emit _).emit _

end Wrote

theorem Wrote.patch {map : Bytes} {i : Nat}
    (wrote : Wrote keeps capacity (before ++ (map ++ after)) w) (inside : i / 8 < map.length) :
    Wrote keeps capacity (before ++ (Bitmap.set map i ++ after)) (w.patch before.length i) := by
  have same : (before ++ (Bitmap.set map i ++ after)).length =
      (before ++ (map ++ after)).length := by
    simp
  obtain ⟨cap, state⟩ := wrote
  refine ⟨cap, ?_⟩
  rw [same]
  by_cases fits : (before ++ (map ++ after)).length ≤ capacity
  · rw [if_pos fits] at state ⊢
    obtain ⟨status, size, data⟩ := state
    refine ⟨status, size, ?_⟩
    rw [Writer.patch, data]
    cases keeps
    · rfl
    · simp [modify_bitmap before inside]
  · rw [if_neg fits] at state ⊢
    exact state

theorem Wrote.overflow (wrote : Wrote keeps capacity out w) (stopped : w.status ≠ .ok)
    {more : Bytes} (longer : out.length ≤ more.length) : Wrote keeps capacity more w := by
  have full : ¬out.length ≤ capacity := fun fits => stopped (by rw [wrote.ok fits])
  refine ⟨wrote.1, ?_⟩
  rw [if_neg (by omega)]
  exact wrote.full (by omega)

theorem Wrote.bitmap (wrote : Wrote keeps capacity out w) (count : Nat) :
    Wrote keeps capacity (out ++ replicate count 0) (rowBitmap count w) := by
  induction count generalizing out w with
  | zero => simpa [rowBitmap] using wrote
  | succ count ih =>
    have next : Wrote keeps capacity (out ++ [0]) (w.integer 0 1) := wrote.emit [0]
    simpa [rowBitmap, replicate_succ] using ih next

end Write

section Bytes

variable {value : Value}

def rowBytes : Value → Bytes
  | .null | .malformed _ => []
  | .int64 value => Wire.write 8 value.toUInt64
  | .uint64 value => Wire.write 8 value
  | .double bits => Wire.write 8 bits
  | .boolean value => [value]
  | .text bytes | .blob bytes => lenencBytes bytes

def rowNulls (values : List Value) : List Bool := values.map fun value => value = .null

def rowBitmapBytes (values : List Value) : Bytes :=
  Bitmap.mark (replicate ((values.length + 9) / 8) 0) 2 (rowNulls values)

def binaryRow (values : List Value) : Bytes :=
  0 :: (rowBitmapBytes values ++ values.flatMap rowBytes)

/-- The field that a value should have in a text row; how a double prints is given. -/
def textField (locale : Locale) : Value → Option Bytes
  | .null | .malformed _ => none
  | .text bytes | .blob bytes => some bytes
  | .int64 value => some ((if value.toInt < 0 then [45] else []) ++ Decimal.numeral value.toInt.natAbs)
  | .uint64 value => some (Decimal.numeral value.toNat)
  | .boolean value => some (if value = 0 then [48] else [49])
  | .double bits => some (locale.double bits)

def fieldBytes : Option Bytes → Bytes
  | none => [responseNullMarker]
  | some text => lenencBytes text

def textRow (locale : Locale) (values : List Value) : Bytes :=
  values.flatMap fun value => fieldBytes (textField locale value)

variable {locale : Locale}

theorem rowBinary_wrote {map : Bytes} {i : Nat}
    (wrote : Wrote keeps capacity (before ++ (map ++ after)) w) (valid : valueCheck value = .ok)
    (inside : (i + 2) / 8 < map.length) :
    Wrote keeps capacity
      (before ++ ((if value = .null then Bitmap.set map (i + 2) else map) ++
        (after ++ rowBytes value)))
      (rowBinary before.length i w value) := by
  have behind : ∀ data : Bytes, before ++ (map ++ (after ++ data)) =
      before ++ (map ++ after) ++ data := by
    simp
  cases value with
  | null => simpa [rowBytes, rowBinary, responseBinaryOffset] using wrote.patch inside
  | malformed kind => simp [valueCheck] at valid
  | int64 _ | uint64 _ | double _ =>
    simp only [reduceCtorEq, if_false, rowBytes, behind]
    exact wrote.emit _
  | boolean value =>
    simp only [reduceCtorEq, if_false, rowBytes, behind]
    have one : Wire.write 1 value.toUInt64 = [value] := by simp [Wire.write]
    simpa [rowBinary, Writer.integer, one] using wrote.emit [value]
  | text bytes | blob bytes =>
    simp only [reduceCtorEq, if_false, rowBytes, behind]
    exact wrote.bytes _

theorem rowLoop_stopped {bitmap : Nat} (i : Nat) (values : List Value) (stopped : w.status ≠ .ok) :
    rowLoop locale binary bitmap i values w = w := by
  cases values with
  | nil => rfl
  | cons value values => rw [rowLoop, if_pos stopped]

theorem rowLoop_binary {map : Bytes} (i : Nat)
    (wrote : Wrote keeps capacity (before ++ (map ++ after)) w)
    (valid : ∀ value ∈ values, valueCheck value = .ok)
    (inside : i + 2 + values.length ≤ 8 * map.length) :
    Wrote keeps capacity
      (before ++ (Bitmap.mark map (i + 2) (rowNulls values) ++
        (after ++ values.flatMap rowBytes)))
      (rowLoop locale true before.length i values w) := by
  induction values generalizing w i map after with
  | nil => simpa [rowNulls, Bitmap.mark, rowLoop] using wrote
  | cons value values ih =>
    obtain ⟨here, later⟩ := forall_mem_cons.mp valid
    rw [length_cons] at inside
    by_cases stopped : w.status ≠ .ok
    · rw [rowLoop_stopped _ _ stopped]
      refine wrote.overflow stopped ?_
      simp only [length_append, length_mark]
      omega
    · rw [rowLoop, if_neg stopped, if_neg (by simp [here]), if_pos rfl]
      have next := rowBinary_wrote wrote here (show (i + 2) / 8 < map.length by omega)
      have size : (if value = .null then Bitmap.set map (i + 2) else map).length =
          map.length := by
        split_ifs
        exacts [length_set _ _, rfl]
      have rest := ih (i + 1) next later (by omega)
      simpa [rowNulls, Bitmap.mark, Nat.add_right_comm] using rest

/-- The output when the bytes fit. -/
def Output.filled (out : Output) (bytes : Bytes) : Except WireStatus Output :=
  if bytes.length ≤ out.capacity
  then .ok { out with data := out.data.map fun _ => bytes, size := bytes.length }
  else .error .limit

theorem responseEncode_of_wrote {r : Response} {bytes : Bytes}
    (writes : ∀ keeps capacity, Wrote keeps capacity bytes (responseWrite locale r
      ⟨if keeps then some [] else none, 0, capacity, .ok⟩)) (out : Output) :
    responseEncode locale r out = out.filled bytes := by
  have measure : Wrote false out.capacity bytes
      (responseWrite locale r ⟨none, 0, out.capacity, .ok⟩) := writes false out.capacity
  have output : Wrote true out.capacity bytes
      (responseWrite locale r ⟨some [], 0, out.capacity, .ok⟩) := writes true out.capacity
  rw [responseEncode, Output.filled]
  by_cases fits : bytes.length ≤ out.capacity
  · simp only [measure.ok fits, output.ok fits, if_pos fits]
    cases out.data <;> rfl
  · simp only [measure.full (by omega), if_neg fits]
    rfl

structure Encodable (values : List Value) : Prop where
  some : values ≠ []
  few : values.length ≤ 0xFFFF
  valid : ∀ value ∈ values, valueCheck value = .ok

theorem rowEncode_binary (encodable : Encodable values) (out : Output) :
    rowEncode locale values true out = out.filled (binaryRow values) := by
  obtain ⟨some, few, valid⟩ := encodable
  refine responseEncode_of_wrote (fun keeps capacity => ?_) out
  change Wrote keeps capacity _ (rowWrite locale _ values _)
  rw [rowWrite, if_neg some, if_neg (by omega), if_pos rfl]
  have header : Wrote keeps capacity [0] (Writer.integer
      ⟨if keeps then .some [] else none, 0, capacity, .ok⟩ 0 1) :=
    (Wrote.start keeps capacity).emit [0]
  have bitmap := header.bitmap ((values.length + 8 - 1 + responseBinaryOffset) / 8)
  have size : (values.length + 8 - 1 + responseBinaryOffset) / 8 = (values.length + 9) / 8 := by
    rw [responseBinaryOffset]
    omega
  rw [size] at bitmap ⊢
  dsimp only
  by_cases fits : [(0 : UInt8)].length ≤ capacity
  · have place : (Writer.integer ⟨if keeps then .some [] else none, 0, capacity, .ok⟩ 0 1).size =
        [(0 : UInt8)].length := by
      rw [header.ok fits]
    rw [place]
    have start : Wrote keeps capacity ([0] ++ (replicate ((values.length + 9) / 8) 0 ++ []))
        (rowBitmap ((values.length + 9) / 8)
          (Writer.integer ⟨if keeps then .some [] else none, 0, capacity, .ok⟩ 0 1)) := by
      rwa [append_nil]
    exact rowLoop_binary 0 start valid (by rw [length_replicate]; omega)
  · -- Not even the header fits, and the loop does nothing.
    have stopped := bitmap.full (by rw [length_append]; omega)
    rw [rowLoop_stopped _ _ (by simp [stopped])]
    refine bitmap.overflow (by simp [stopped]) ?_
    simp [binaryRow, rowBitmapBytes]

theorem numberText_numeral {n : Nat} (small : n < 10 ^ 20) :
    (Decimal.numeral n).length ≤ 20 :=
  (Decimal.length_numeral_le_iff (by decide)).mpr small

section Text

variable (point : locale.decimalPoint = [46])
    (printed : ∀ bits, (locale.double bits).length < responseNumberBytes)
include point printed

theorem textValue_ok (valid : valueCheck value = .ok) (present : value ≠ .null) :
    ∃ text, textValue locale value = .ok text ∧ textField locale value = some text := by
  have number : ∀ text : Bytes, text.length < responseNumberBytes →
      numberText text = .ok text := by
    intro text short
    rw [numberText, reject, if_neg (by omega), pure_ok, ok_bind, pure_ok]
  cases value with
  | null => exact absurd rfl present
  | malformed kind => simp [valueCheck] at valid
  | text bytes => exact ⟨bytes, rfl, rfl⟩
  | blob bytes => exact ⟨bytes, rfl, rfl⟩
  | boolean value =>
    refine ⟨_, number _ (by simp [responseNumberBytes]), ?_⟩
    by_cases zero : value = 0 <;> simp [textField, zero]
  | uint64 value =>
    have := numberText_numeral (show value.toNat < 10 ^ 20 by have := value.toNat_lt; omega)
    exact ⟨_, number _ (by simp only [responseNumberBytes]; omega), rfl⟩
  | int64 value =>
    have low := value.le_toInt
    have high := value.toInt_lt
    have := numberText_numeral (show value.toInt.natAbs < 10 ^ 20 by omega)
    have negative : value < 0 ↔ value.toInt < 0 := Int64.lt_iff_toInt_lt
    refine ⟨integerText value, number _ ?_, ?_⟩ <;> simp only [integerText, textField, negative]
    · rw [responseNumberBytes]
      split_ifs
      · rw [length_cons]
        omega
      · omega
    · split_ifs <;> rfl
  | double bits =>
    refine ⟨locale.double bits, ?_, rfl⟩
    rw [textValue, reject, if_neg (by simp [point]), pure_ok, ok_bind, number _ (printed bits)]

theorem rowText_wrote {out : Bytes} (wrote : Wrote keeps capacity out w)
    (valid : valueCheck value = .ok) :
    Wrote keeps capacity (out ++ fieldBytes (textField locale value)) (rowText locale w value) := by
  by_cases null : value = .null
  · subst null
    exact wrote.emit [responseNullMarker]
  · obtain ⟨text, read, field⟩ := textValue_ok point printed valid null
    have written : rowText locale w value = w.bytes (some text) := by
      cases value <;> simp_all [rowText]
    rw [field, written]
    exact wrote.bytes text

theorem rowLoop_text {out : Bytes} (i bitmap : Nat) (wrote : Wrote keeps capacity out w)
    (valid : ∀ value ∈ values, valueCheck value = .ok) :
    Wrote keeps capacity (out ++ textRow locale values)
      (rowLoop locale false bitmap i values w) := by
  induction values generalizing w i out with
  | nil => simpa [textRow, rowLoop] using wrote
  | cons value values ih =>
    obtain ⟨here, later⟩ := forall_mem_cons.mp valid
    by_cases stopped : w.status ≠ .ok
    · rw [rowLoop_stopped _ _ stopped]
      exact wrote.overflow stopped (by simp)
    · rw [rowLoop, if_neg stopped, if_neg (by simp [here]), if_neg (by decide)]
      have rest := ih (i + 1) (rowText_wrote point printed wrote here) later
      simpa [textRow] using rest

theorem rowEncode_text (encodable : Encodable values) (out : Output) :
    rowEncode locale values false out = out.filled (textRow locale values) := by
  obtain ⟨some, few, valid⟩ := encodable
  refine responseEncode_of_wrote (fun keeps capacity => ?_) out
  change Wrote keeps capacity _ (rowWrite locale _ values _)
  rw [rowWrite, if_neg some, if_neg (by omega), if_neg (by decide)]
  exact rowLoop_text point printed 0 0 (Wrote.start keeps capacity) valid

end Text

end Bytes

theorem readLe_local (width : Nat) : Local (readLe width) := local_take width _ _

theorem readU16Le_local : Local readU16Le := (readLe_local 2).bind fun _ => local_pure _

theorem readU24Le_local : Local readU24Le := (readLe_local 3).bind fun _ => local_pure _

theorem readU32Le_local : Local readU32Le := (readLe_local 4).bind fun _ => local_pure _

theorem readBytes_local (count : Nat) : Local (readBytes count) := local_take count _ id

theorem readLenencUint_local : Local readLenencUint := by
  refine ⟨fun {input value rest} ok extra => ?_⟩
  cases input with
  | nil => cases ok
  | cons first input =>
    have reader : Local fun input => readLenencUint (first :: input) := by
      refine local_ite _ (local_pure _) (local_ite _ (local_pure _) (local_ite _ ?_
        (local_ite _ ?_ (local_ite _ ?_ (local_throw _)))))
      · exact readU16Le_local.bind fun _ => local_pure _
      · exact readU24Le_local.bind fun _ => local_pure _
      · exact (readLe_local 8).bind fun _ => local_pure _
    exact reader.append ok extra

theorem readLenencBytes_local : Local readLenencBytes := by
  refine readLenencUint_local.bind fun length => ?_
  cases length with
  | none => exact local_pure _
  | some length => exact local_take length.toNat _ some

theorem readPresent_local {α : Type} (present : Bool) (absent : α)
    {read : Bytes → Except WireStatus (α × Bytes)} (h : Local read) :
    Local (readPresent present absent read) :=
  local_ite _ h (local_pure _)

theorem rowDecodeDatetime_local (dateOnly : Bool) : Local (rowDecodeDatetime dateOnly) := by
  refine (readBytes_local 1).bind fun length => ?_
  refine local_ite _ (local_pure _) ?_
  refine Local.reject _ _ (Local.reject _ _ ?_)
  refine readU16Le_local.bind fun year => (readBytes_local 2).bind fun day => ?_
  refine (readPresent_local _ _ (readBytes_local 3)).bind fun clock => ?_
  refine (readPresent_local _ _ readU32Le_local).bind fun microsecond => ?_
  exact Local.reject _ _ (local_pure _)

theorem rowDecodeTime_local : Local rowDecodeTime := by
  refine (readBytes_local 1).bind fun length => ?_
  refine local_ite _ (local_pure _) ?_
  refine Local.reject _ _ ((readBytes_local 1).bind fun negative => ?_)
  refine Local.reject _ _ ?_
  refine readU32Le_local.bind fun days => (readBytes_local 3).bind fun clock => ?_
  refine (readPresent_local _ _ readU32Le_local).bind fun microsecond => ?_
  exact Local.reject _ _ (local_pure _)

theorem rowDecodeBytes_local : Local rowDecodeBytes := by
  refine readLenencBytes_local.bind fun bytes => ?_
  cases bytes with
  | none => exact local_throw _
  | some bytes => exact local_pure _

theorem rowDecodeValue_local (column : ColumnDefinition) : Local (rowDecodeValue column) := by
  have integer : ∀ width, Local (rowDecodeInteger column width) :=
    fun width => (readLe_local width).bind fun _ => local_pure _
  have float : Local rowDecodeFloat := readU32Le_local.bind fun _ => local_pure _
  have double : Local rowDecodeDouble := (readLe_local 8).bind fun _ => local_pure _
  have strings := rowDecodeBytes_local
  have times := rowDecodeTime_local
  have datetimes := rowDecodeDatetime_local
  unfold rowDecodeValue
  cases fieldType column.type with
  | none => exact local_throw _
  | some type => cases type <;> first | exact integer _ | exact datetimes _ | assumption | exact local_pure _

theorem rowDecodeValues_local (bitmap : Bytes) (i : Nat) (columns : List ColumnDefinition) :
    Local (rowDecodeValues bitmap i columns) := by
  induction columns generalizing i with
  | nil => exact local_pure _
  | cons column columns ih =>
    refine (readPresent_local _ _ (rowDecodeValue_local column)).bind fun data => ?_
    exact (ih (i + 1)).bind fun values => local_pure _

def binaryRowReader (columns : List ColumnDefinition) (payload : Bytes) :
    Except WireStatus (List BinaryValue × Bytes) := do
  let (header, rest) ← readBytes 1 payload
  reject (header ≠ [0]) .invalid
  let (bitmap, rest) ← readBytes ((columns.length + 9) / 8) rest
  rowDecodeValues bitmap 0 columns rest

theorem binaryRowReader_local (columns : List ColumnDefinition) :
    Local (binaryRowReader columns) := by
  refine (readBytes_local 1).bind fun header => Local.reject _ _ ?_
  exact (readBytes_local _).bind fun bitmap => rowDecodeValues_local bitmap 0 columns

theorem decodeBinaryRow_eq_ok {values : List BinaryValue} :
    decodeBinaryRow payload columns valueCapacity = .ok values ↔
      columns.length ≤ valueCapacity ∧ columns.length ≤ sizeMax - 9 ∧
        binaryRowReader columns payload = .ok (values, []) := by
  simp only [decodeBinaryRow, binaryRowReader, bind_eq_ok, reject_eq_ok, pure_eq_ok, exists_unit,
    not_lt, not_ne_iff, Prod.exists, gt_iff_lt]
  constructor
  · rintro ⟨few, fits, header, rest, read, zero, bitmap, rest', map, values', rest'', found, rfl, rfl⟩
    exact ⟨few, fits, header, rest, read, zero, bitmap, rest', map, found⟩
  · rintro ⟨few, fits, header, rest, read, zero, bitmap, rest', map, found⟩
    exact ⟨few, fits, header, rest, read, zero, bitmap, rest', map, values, [], found, rfl, rfl⟩

theorem decodeBinaryRow_whole {extra : Bytes} {values values' : List BinaryValue}
    (one : decodeBinaryRow payload columns valueCapacity = .ok values)
    (two : decodeBinaryRow (payload ++ extra) columns valueCapacity = .ok values') : extra = [] :=
  (binaryRowReader_local columns).whole (decodeBinaryRow_eq_ok.mp one).2.2
    (decodeBinaryRow_eq_ok.mp two).2.2

def binaryData : Value → BinaryData
  | .null | .malformed _ => .null
  | .int64 value => .sint64 value
  | .uint64 value => .uint64 value
  | .double bits => .double bits
  | .boolean value => .sint64 (if value = 0 then 0 else 1)
  | .text bytes | .blob bytes => .bytes bytes

/-- The definition is that of a column which may hold the value. -/
def Describes (capacity : Nat) (value : Value) (definition : ColumnDefinition) : Prop :=
  ∃ column : Column, dispatchColumn capacity (some column) = .ok definition ∧
    (column.kind = some value.kind ∨ value = .null)

theorem rowSignExtend_long (raw : UInt64) : rowSignExtend raw 64 = raw.toInt64 := by
  have negated : -(~~~raw + 1).toInt64 = raw.toInt64 := by
    rw [← UInt64.toInt64_neg]
    rw [← UInt64.neg_eq_not_add, UInt64.neg_neg]
  rw [rowSignExtend, if_pos rfl]
  split_ifs with small least
  · rfl
  · rw [least]
    rfl
  · exact negated

theorem dispatchColumn_type {column : Column} {kind : Kind}
    (defined : dispatchColumn capacity (some column) = .ok definition)
    (typed : column.kind = some kind) :
    fieldType definition.type = some (dispatchColumnKind capacity kind).1 ∧
      (definition.flags &&& columnFlagUnsigned ≠ 0 ↔ kind = .uint64) := by
  obtain ⟨name, kind', nullable⟩ := column
  obtain rfl : kind' = some kind := typed
  simp only [dispatchColumn, bind_eq_ok, given_eq_ok, Option.some.injEq, exists_eq_left',
    pure_eq_ok] at defined
  obtain ⟨name, rfl, rfl⟩ := defined
  cases kind <;> cases nullable <;>
    simp [dispatchColumnKind, dispatchNotNull, columnFlagUnsigned, dispatchBinaryFlag] <;> decide

theorem rowDecodeValue_bytes {value : Value} (described : Describes capacity value definition)
    (valid : valueCheck value = .ok) (present : value ≠ .null)
    (small : (rowBytes value).length < 2 ^ 64) (rest : Bytes) :
    rowDecodeValue definition (rowBytes value ++ rest) = .ok (binaryData value, rest) := by
  obtain ⟨column, defined, typed⟩ := described
  obtain ⟨type, unsigned⟩ := dispatchColumn_type defined (typed.resolve_right present)
  rw [rowDecodeValue, type]
  have word : ∀ value : UInt64, readLe 8 (Wire.write 8 value ++ rest) = .ok (value, rest) :=
    fun value => readLe_write (by decide) value.toNat_lt rest
  cases value with
  | null => exact absurd rfl present
  | malformed kind => simp [valueCheck] at valid
  | int64 value =>
    have signed : ¬definition.flags &&& columnFlagUnsigned ≠ 0 := by simp [unsigned, Value.kind]
    simp only [Value.kind, dispatchColumnKind, rowDecodeInteger, rowBytes, word, ok_bind,
      if_neg signed, pure_ok, binaryData]
    rw [rowSignExtend_long, UInt64.toInt64, Int64.toUInt64]
  | uint64 value =>
    have positive : definition.flags &&& columnFlagUnsigned ≠ 0 := by simp [unsigned, Value.kind]
    simp only [Value.kind, dispatchColumnKind, rowDecodeInteger, rowBytes, word, ok_bind,
      if_pos positive, pure_ok, binaryData]
  | double bits =>
    simp only [Value.kind, dispatchColumnKind, rowDecodeDouble, readU64Le, rowBytes, word,
      ok_bind, pure_ok, binaryData]
  | boolean value =>
    have signed : ¬definition.flags &&& columnFlagUnsigned ≠ 0 := by simp [unsigned, Value.kind]
    have bit : value = 0 ∨ value = 1 := by
      simp only [valueCheck] at valid
      split_ifs at valid with le
      simp only [← UInt8.toNat_inj]
      change value.toNat ≤ 1 at le
      change value.toNat = 0 ∨ value.toNat = 1
      omega
    have byte : readLe 1 ([value] ++ rest) = .ok (value.toUInt64, rest) := by
      rcases bit with rfl | rfl <;> rfl
    simp only [Value.kind, dispatchColumnKind, rowDecodeInteger, rowBytes, byte, ok_bind,
      if_neg signed, pure_ok, binaryData]
    rcases bit with rfl | rfl <;> rfl
  | text bytes | blob bytes =>
    have short : bytes.length < 2 ^ 64 := by
      simp only [rowBytes, lenencBytes, length_append] at small
      omega
    simp only [Value.kind, dispatchColumnKind, rowDecodeBytes, rowBytes,
      readLenencBytes_lenencBytes short, ok_bind, given, pure_ok, binaryData]

theorem rowDecodeValues_bytes {bitmap : Bytes} (i : Nat)
    (described : List.Forall₂ (Describes capacity) values definitions)
    (valid : ∀ value ∈ values, valueCheck value = .ok)
    (nulls : ∀ k value, values[k]? = some value → get bitmap (i + k + 2) = decide (value = .null))
    (small : (values.flatMap rowBytes).length < 2 ^ 64) (rest : Bytes) :
    rowDecodeValues bitmap i definitions (values.flatMap rowBytes ++ rest) =
      .ok (zipWith (fun value definition => ⟨definition.type, binaryData value⟩) values
        definitions, rest) := by
  induction described generalizing i with
  | nil => rfl
  | @cons value definition values definitions here there ih =>
    obtain ⟨first, later⟩ := forall_mem_cons.mp valid
    rw [flatMap_cons, length_append] at small
    have null : get bitmap (i + 2) = decide (value = .null) := nulls 0 value rfl
    have field : readPresent (get bitmap (i + 2) = false) .null
        (rowDecodeValue definition) (rowBytes value ++ (values.flatMap rowBytes ++ rest)) =
        .ok (binaryData value, values.flatMap rowBytes ++ rest) := by
      by_cases absent : value = .null
      · subst absent
        simp [readPresent, null, rowBytes, binaryData, pure_ok]
      · simp only [readPresent, null, decide_eq_false absent, decide_true, if_true]
        exact rowDecodeValue_bytes here first absent (by omega) _
    have others := ih (i + 1) later (fun k value found => by
      rw [show i + 1 + k = i + (k + 1) by omega]
      exact nulls (k + 1) value found) (by omega)
    rw [rowDecodeValues, flatMap_cons, append_assoc, field, ok_bind]
    simp only [others, ok_bind, pure_ok, zipWith_cons_cons]

theorem readBytes_append {bytes : Bytes} {count : Nat} (exact : bytes.length = count)
    (rest : Bytes) : readBytes count (bytes ++ rest) = .ok (bytes, rest) := by
  rw [readBytes, reject, if_neg (by rw [length_append]; omega), pure_ok, ok_bind,
    take_left' exact, drop_left' exact, pure_ok]

theorem get_rowBitmapBytes {k : Nat} {value : Value} (found : values[k]? = some value) :
    get (rowBitmapBytes values) (k + 2) = decide (value = .null) := by
  have inside : 2 + (rowNulls values).length ≤
      8 * (replicate ((values.length + 9) / 8) (0 : UInt8)).length := by
    simp only [rowNulls, length_map, length_replicate]
    omega
  rw [rowBitmapBytes, get_mark inside]
  simp [rowNulls, getD, found]

theorem decodeBinaryRow_binaryRow {capacity : Nat} (encodable : Encodable values)
    (described : List.Forall₂ (Describes capacity) values definitions)
    (room : values.length ≤ valueCapacity) (small : (binaryRow values).length < 2 ^ 64) :
    decodeBinaryRow (binaryRow values) definitions valueCapacity =
      .ok (zipWith (fun value definition => ⟨definition.type, binaryData value⟩) values
        definitions) := by
  have same : values.length = definitions.length := described.length_eq
  have few := encodable.few
  have map : (rowBitmapBytes values).length = (definitions.length + 9) / 8 := by
    simp [rowBitmapBytes, same]
  have body : (values.flatMap rowBytes).length < 2 ^ 64 := by
    simp only [binaryRow, length_cons, length_append] at small
    omega
  have read := rowDecodeValues_bytes 0 described encodable.valid (fun k value found => by
    rw [Nat.zero_add]
    exact get_rowBitmapBytes found) body []
  rw [append_nil] at read
  refine decodeBinaryRow_eq_ok.mpr ⟨by omega, by rw [sizeMax]; omega, ?_⟩
  have header : readBytes 1 (binaryRow values) =
      .ok ([0], rowBitmapBytes values ++ values.flatMap rowBytes) :=
    readBytes_append (show [(0 : UInt8)].length = 1 from rfl) _
  rw [binaryRowReader, header, ok_bind]
  simp only [reject, ne_eq, not_true_eq_false, if_false, pure_ok, ok_bind, readBytes_append map,
    read]

theorem readLenencBytes_field {field : Option Bytes} (small : (fieldBytes field).length < 2 ^ 64)
    (rest : Bytes) : readLenencBytes (fieldBytes field ++ rest) = .ok (field, rest) := by
  cases field with
  | none => rfl
  | some text =>
    refine readLenencBytes_lenencBytes ?_ rest
    simp only [fieldBytes, lenencBytes, length_append] at small
    omega

theorem textRowColumns_bytes {fields : List (Option Bytes)}
    (small : (fields.flatMap fieldBytes).length < 2 ^ 64) (rest : Bytes) :
    textRowColumns fields.length (fields.flatMap fieldBytes ++ rest) = .ok (fields, rest) := by
  induction fields with
  | nil => rfl
  | cons field fields ih =>
    rw [flatMap_cons, length_append] at small
    rw [length_cons, textRowColumns, flatMap_cons, append_assoc,
      readLenencBytes_field (by omega)]
    simp only [complete, Except.mapError, ok_bind, ih (by omega), pure_ok]

theorem decodeTextRow_textRow {outCapacity : Nat} {locale : Locale}
    (encodable : Encodable values) (room : values.length ≤ outCapacity)
    (small : (textRow locale values).length < 2 ^ 64) :
    decodeTextRow (textRow locale values) values.length outCapacity =
      .ok (values.map (textField locale)) := by
  have shape : textRow locale values = (values.map (textField locale)).flatMap fieldBytes := by
    rw [textRow, flatMap_map]
  have positive : values.length ≠ 0 := by simpa using encodable.some
  have read := textRowColumns_bytes (shape ▸ small) []
  rw [append_nil, ← shape, length_map] at read
  rw [decodeTextRow, reject, if_neg positive, pure_ok, ok_bind, reject, if_neg (by omega), pure_ok,
    ok_bind, read, ok_bind]
  rfl

theorem written_eq {locale : Locale} {row bytes : Bytes} {out written : Output}
    (equation : rowEncode locale values binary out = out.filled row)
    (fits : out.capacity ≤ sizeMax) (encoded : rowEncode locale values binary out = .ok written)
    (held : written.data = some bytes) : bytes = row ∧ row.length < 2 ^ 64 := by
  rw [equation, Output.filled] at encoded
  split_ifs at encoded with le
  cases encoded
  refine ⟨?_, by rw [sizeMax] at fits; omega⟩
  obtain ⟨_, -, same⟩ := Option.map_eq_some_iff.mp held
  exact same.symm

theorem rejected {α : Type} {x : Except WireStatus α} (none : ∀ a, x ≠ .ok a) :
    ∃ status, x = .error status := by
  cases x with
  | ok a => exact absurd rfl (none a)
  | error status => exact ⟨status, rfl⟩

theorem decodeRow_rowEncode {locale : Locale} {values : List Value}
    {definitions : List ColumnDefinition} {capacity valueCapacity : Nat}
    (encodable : Encodable values)
    (described : List.Forall₂ (Describes capacity) values definitions)
    (point : locale.decimalPoint = [46])
    (printed : ∀ bits, (locale.double bits).length < responseNumberBytes)
    (room : values.length ≤ valueCapacity) :
    (∀ binary, ∃ bytes : Bytes, ∀ out : Output, rowEncode locale values binary out =
      if bytes.length ≤ out.capacity
      then .ok { out with
        data := out.data.map fun _ => bytes
        size := bytes.length }
      else .error .limit) ∧
    (∀ (out written : Output) (bytes : Bytes), out.capacity ≤ sizeMax →
      rowEncode locale values true out = .ok written → written.data = some bytes →
      decodeBinaryRow bytes definitions valueCapacity =
        .ok (zipWith (fun value definition => ⟨definition.type, binaryData value⟩) values
          definitions) ∧
      (∀ cut < bytes.length, ∃ status,
        decodeBinaryRow (bytes.take cut) definitions valueCapacity = .error status) ∧
      ∀ extra, extra ≠ [] → ∃ status,
        decodeBinaryRow (bytes ++ extra) definitions valueCapacity = .error status) ∧
    ∀ (out written : Output) (bytes : Bytes), out.capacity ≤ sizeMax →
      rowEncode locale values false out = .ok written → written.data = some bytes →
      decodeTextRow bytes values.length valueCapacity = .ok (values.map (textField locale)) := by
  refine ⟨fun binary => ?_, fun out written bytes fits encoded held => ?_,
    fun out written bytes fits encoded held => ?_⟩
  · cases binary with
    | true => exact ⟨_, rowEncode_binary encodable⟩
    | false => exact ⟨_, rowEncode_text point printed encodable⟩
  · obtain ⟨rfl, small⟩ := written_eq (rowEncode_binary encodable out) fits encoded held
    have decoded := decodeBinaryRow_binaryRow encodable described room small
    refine ⟨decoded, fun cut short => ?_, fun extra more => ?_⟩
    · refine rejected fun values' accepted => ?_
      have whole := decoded
      rw [← take_append_drop cut (binaryRow values)] at whole
      have empty := decodeBinaryRow_whole accepted whole
      rw [drop_eq_nil_iff] at empty
      omega
    · exact rejected fun values' accepted => more (decodeBinaryRow_whole decoded accepted)
  · obtain ⟨rfl, small⟩ := written_eq (rowEncode_text point printed encodable out) fits encoded held
    exact decodeTextRow_textRow encodable room small

theorem decodeRow_rowEncode_flags :
    let locale : Locale := ⟨[46], fun _ => [48]⟩
    let values : List Value := [.null, .boolean 1, .int64 (-12)]
    let binary : Bytes := [0, 4, 1, 244, 255, 255, 255, 255, 255, 255, 255]
    let text : Bytes := [251, 1, 49, 3, 45, 49, 50]
    ∃ flag number,
      dispatchColumn 600 (some ⟨some [102], some .boolean, true⟩) = .ok flag ∧
      dispatchColumn 600 (some ⟨some [110], some .int64, true⟩) = .ok number ∧
      rowEncode locale values true ⟨some [], 64, 0⟩ = .ok ⟨some binary, 64, 11⟩ ∧
      decodeBinaryRow binary [flag, flag, number] 3 =
        .ok [⟨flag.type, .null⟩, ⟨flag.type, .sint64 1⟩, ⟨number.type, .sint64 (-12)⟩] ∧
      rowEncode locale values false ⟨some [], 64, 0⟩ = .ok ⟨some text, 64, 7⟩ ∧
      decodeTextRow text 3 3 = .ok [none, some [49], some [45, 49, 50]] := by
  intro locale values binary text
  obtain ⟨flag, isFlag⟩ : ∃ flag, dispatchColumn 600 (some ⟨some [102], some .boolean, true⟩) =
    .ok flag := ⟨_, rfl⟩
  obtain ⟨number, isNumber⟩ : ∃ number, dispatchColumn 600 (some ⟨some [110], some .int64, true⟩) =
    .ok number := ⟨_, rfl⟩
  have encodable : Encodable values := ⟨by simp [values], by decide, by simp [values, valueCheck]⟩
  have described : List.Forall₂ (Describes 600) values [flag, flag, number] :=
    .cons ⟨_, isFlag, .inr rfl⟩ (.cons ⟨_, isFlag, .inl rfl⟩ (.cons ⟨_, isNumber, .inl rfl⟩ .nil))
  have isBinary : rowEncode locale values true ⟨some [], 64, 0⟩ = .ok ⟨some binary, 64, 11⟩ := by
    decide +kernel
  have isText : rowEncode locale values false ⟨some [], 64, 0⟩ = .ok ⟨some text, 64, 7⟩ := by
    decide +kernel
  obtain ⟨-, readBinary, readText⟩ := @decodeRow_rowEncode locale values _ _ 3 encodable described rfl
    (fun _ => by simp [locale, responseNumberBytes]) le_rfl
  exact ⟨flag, number, isFlag, isNumber, isBinary,
    (readBinary _ _ binary (by decide) isBinary rfl).1, isText,
    readText _ _ text (by decide) isText rfl⟩

end TurboDb.Mysql
