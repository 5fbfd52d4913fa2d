import TurboDb.Wire
import TurboDb.Library.Effect

/-!
Words and length-encoded values of the MySQL protocol.

A reading takes the input from its cursor on and hands back what is left of it;
a writing appends to the output and fails when the capacity is used up. A
length-encoded integer has four forms, chosen by its magnitude, and one byte value
stands for NULL. Longer forms of a small integer are read as well.
-/

namespace TurboDb.Mysql

open ByteOrder Words Effect List

/-- The statuses of the wire routines; the last two only the server has. -/
inductive WireStatus
  | ok | needMore | invalid | limit | sequence | unsupported | busy
  deriving DecidableEq, Repr

def readLe (width : Nat) (input : Bytes) : Except WireStatus (UInt64 × Bytes) := do
  reject (input.length < width) .needMore
  pure (Wire.read (input.take width), input.drop width)

def readU16Le (input : Bytes) : Except WireStatus (UInt16 × Bytes) := do
  let (value, rest) ← readLe 2 input
  pure (value.toUInt16, rest)

def readU24Le (input : Bytes) : Except WireStatus (UInt32 × Bytes) := do
  let (value, rest) ← readLe 3 input
  pure (value.toUInt32, rest)

def readU32Le (input : Bytes) : Except WireStatus (UInt32 × Bytes) := do
  let (value, rest) ← readLe 4 input
  pure (value.toUInt32, rest)

def readU64Le (input : Bytes) : Except WireStatus (UInt64 × Bytes) := readLe 8 input

/-- A length-encoded integer, `none` for NULL. -/
def readLenencUint : Bytes → Except WireStatus (Option UInt64 × Bytes)
  | [] => throw .needMore
  | first :: rest =>
    if first ≤ 0xFA then pure (some first.toUInt64, rest)
    else if first = 0xFB then pure (none, rest)
    else if first = 0xFC then do
      let (value, rest) ← readU16Le rest
      pure (some value.toUInt64, rest)
    else if first = 0xFD then do
      let (value, rest) ← readU24Le rest
      pure (some value.toUInt64, rest)
    else if first = 0xFE then do
      let (value, rest) ← readU64Le rest
      pure (some value, rest)
    else throw .invalid

/-- A length-encoded byte string, `none` for NULL. -/
def readLenencBytes (input : Bytes) : Except WireStatus (Option Bytes × Bytes) := do
  let (length, rest) ← readLenencUint input
  match length with
  | none => pure (none, rest)
  | some length => do
    reject (rest.length < length.toNat) .needMore
    pure (some (rest.take length.toNat), rest.drop length.toNat)

/-- Append to an output that is kept within its capacity. -/
def emitWithin (capacity : Nat) (out data : Bytes) : Except WireStatus Bytes := do
  reject (capacity < out.length ∨ capacity - out.length < data.length) .limit
  pure (out ++ data)

def writeLe (width : Nat) (capacity : Nat) (out : Bytes) (value : UInt64) :
    Except WireStatus Bytes :=
  emitWithin capacity out (Wire.write width value)

def writeLenencUint (capacity : Nat) (out : Bytes) (value : UInt64) : Except WireStatus Bytes := do
  reject (capacity ≤ out.length) .limit
  if value ≤ 250 then pure (out ++ [value.toUInt8])
  else if value < 0x10000 then writeLe 2 capacity (out ++ [0xFC]) value
  else if value < 0x1000000 then writeLe 3 capacity (out ++ [0xFD]) value
  else writeLe 8 capacity (out ++ [0xFE]) value

def lenencUint (value : UInt64) : Bytes :=
  if value ≤ 250 then [value.toUInt8]
  else if value < 0x10000 then 0xFC :: Wire.write 2 value
  else if value < 0x1000000 then 0xFD :: Wire.write 3 value
  else 0xFE :: Wire.write 8 value

def lenencBytes (bytes : Bytes) : Bytes := lenencUint (UInt64.ofNat bytes.length) ++ bytes

theorem readLe_append {width : Nat} {data : Bytes} (exact : data.length = width) (rest : Bytes) :
    readLe width (data ++ rest) = .ok (Wire.read data, rest) := by
  have enough : ¬(data ++ rest).length < width := by
    rw [length_append]
    omega
  rw [readLe, reject, if_neg enough, pure_ok, ok_bind, take_left' exact,
    drop_left' exact, pure_ok]

theorem readLe_write {width : Nat} {value : UInt64} (span : width ≤ 8)
    (fits : value.toNat < 256 ^ width) (rest : Bytes) :
    readLe width (Wire.write width value ++ rest) = .ok (value, rest) := by
  rw [readLe_append (Wire.length_write width value), Wire.read_write span fits]

theorem readLenencUint_lenencUint (value : UInt64) (rest : Bytes) :
    readLenencUint (lenencUint value ++ rest) = .ok (some value, rest) := by
  have hvalue := value.toNat_lt
  by_cases one : value ≤ 250
  · have small : value.toUInt8.toNat = value.toNat := by
      exact Nat.mod_eq_of_lt (by rw [UInt64.le_iff_toNat_le] at one; simp at one; omega)
    have first : value.toUInt8 ≤ 0xFA := by
      rw [UInt8.le_iff_toNat_le, small]
      simpa [UInt64.le_iff_toNat_le] using one
    have back : value.toUInt8.toUInt64 = value := by
      rw [← UInt64.toNat_inj, UInt8.toNat_toUInt64, small]
    simp only [lenencUint, if_pos one, cons_append, nil_append, readLenencUint,
      if_pos first, back, pure_ok]
  · rw [lenencUint, if_neg one]
    by_cases two : value < 0x10000
    · have fits : value.toNat < 256 ^ 2 := by simpa [UInt64.lt_iff_toNat_lt] using two
      have back : value.toUInt16.toUInt64 = value := by
        rw [← UInt64.toNat_inj, UInt16.toNat_toUInt64, UInt64.toNat_toUInt16]
        exact Nat.mod_eq_of_lt fits
      rw [if_pos two, cons_append, readLenencUint, if_neg (by decide), if_neg (by decide),
        if_pos rfl, readU16Le, readLe_write (by decide) fits]
      simp only [ok_bind, pure_ok, back]
    · rw [if_neg two]
      by_cases three : value < 0x1000000
      · have fits : value.toNat < 256 ^ 3 := by simpa [UInt64.lt_iff_toNat_lt] using three
        have back : value.toUInt32.toUInt64 = value := by
          rw [← UInt64.toNat_inj, UInt32.toNat_toUInt64, UInt64.toNat_toUInt32]
          exact Nat.mod_eq_of_lt (by omega)
        rw [if_pos three, cons_append, readLenencUint, if_neg (by decide),
          if_neg (by decide), if_neg (by decide), if_pos rfl, readU24Le,
          readLe_write (by decide) fits]
        simp only [ok_bind, pure_ok, back]
      · rw [if_neg three, cons_append, readLenencUint, if_neg (by decide),
          if_neg (by decide), if_neg (by decide), if_neg (by decide), if_pos rfl, readU64Le,
          readLe_write (by decide) hvalue]
        rfl

theorem readLenencBytes_lenencBytes {bytes : Bytes} (small : bytes.length < 2 ^ 64)
    (rest : Bytes) :
    readLenencBytes (lenencBytes bytes ++ rest) = .ok (some bytes, rest) := by
  have size : (UInt64.ofNat bytes.length).toNat = bytes.length := UInt64.toNat_ofNat_of_lt' small
  rw [lenencBytes, append_assoc, readLenencBytes, readLenencUint_lenencUint]
  simp [ok_bind, size, reject, pure_ok]

theorem emitWithin_eq {capacity : Nat} {out data : Bytes} :
    emitWithin capacity out data =
      if out.length + data.length ≤ capacity then .ok (out ++ data) else .error .limit := by
  by_cases fits : out.length + data.length ≤ capacity
  · have room : ¬(capacity < out.length ∨ capacity - out.length < data.length) := by omega
    simp [emitWithin, reject, room, if_pos fits, pure_ok]
  · have full : capacity < out.length ∨ capacity - out.length < data.length := by omega
    simp only [emitWithin, reject, if_pos full, if_neg fits]
    rfl

theorem writeLenencUint_eq (capacity : Nat) (out : Bytes) (value : UInt64) :
    writeLenencUint capacity out value = emitWithin capacity out (lenencUint value) := by
  have shift : ∀ (first : UInt8) (width : Nat), ¬capacity ≤ out.length →
      writeLe width capacity (out ++ [first]) value =
        emitWithin capacity out (first :: Wire.write width value) := by
    intro first width _
    simp only [writeLe, emitWithin_eq, length_append, length_cons, length_nil,
      Wire.length_write, append_assoc, cons_append, nil_append]
    congr 2
    omega
  by_cases full : capacity ≤ out.length
  · have positive : 0 < (lenencUint value).length := by
      rw [lenencUint]
      split_ifs <;> simp
    rw [emitWithin_eq, if_neg (by omega), writeLenencUint, reject, if_pos full]
    rfl
  · rw [writeLenencUint, reject, if_neg full, pure_ok, ok_bind, lenencUint]
    split_ifs with one two three
    · rw [emitWithin_eq, if_pos (by simp; omega), pure_ok]
    · exact shift 0xFC 2 full
    · exact shift 0xFD 3 full
    · exact shift 0xFE 8 full

end TurboDb.Mysql
