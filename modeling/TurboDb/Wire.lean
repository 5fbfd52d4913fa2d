import TurboDb.Library.ByteOrder
import TurboDb.Library.Words

/-!
Fixed-width wire words.

Little-endian fields store record data; the big-endian ordered payload is shared
by primary and index keys. Signed integers and finite binary64 patterns are mapped
so that their order becomes the unsigned one. A reading takes exactly the bytes it
reads; its caller has checked the span.
-/

namespace TurboDb.Wire

open ByteOrder Words

def readLoop (value : UInt64) (i : Nat) : Bytes → UInt64
  | [] => value
  | b :: rest => readLoop (value ||| b.toUInt64 <<< UInt64.ofNat (i * 8)) (i + 1) rest

def read (data : Bytes) : UInt64 := readLoop 0 0 data

def write : Nat → UInt64 → Bytes
  | 0, _ => []
  | width + 1, value => value.toUInt8 :: write width (value >>> 8)

def orderWriteLoop : Nat → UInt64 → Bytes → Bytes
  | 0, _, tail => tail
  | i + 1, value, tail => orderWriteLoop i (value >>> 8) (value.toUInt8 :: tail)

def orderWrite (value : UInt64) : Bytes := orderWriteLoop 8 value []

def orderRead (data : Bytes) : UInt64 :=
  data.foldl (fun value b => value <<< 8 ||| b.toUInt64) 0

def signedOrder (value : Int64) : UInt64 := value.toUInt64 ^^^ sign

def orderSigned (value : UInt64) : Int64 :=
  if value &&& sign ≠ 0 then (value ^^^ sign).toInt64 else Int64.minValue + value.toInt64

def isZero (bits : UInt64) : Bool := bits = 0 || bits = sign

def isFinite (bits : UInt64) : Bool := (bits >>> 52) &&& 0x7FF ≠ 0x7FF

def doubleOrder (bits : UInt64) : UInt64 :=
  let canonical := if isZero bits then 0 else bits
  if canonical &&& sign ≠ 0 then ~~~canonical else canonical ^^^ sign

def orderDouble (word : UInt64) : UInt64 :=
  if word &&& sign ≠ 0 then word ^^^ sign else ~~~word

section LittleEndian

variable {data : Bytes} {width : Nat}

theorem toNat_readLoop (data : Bytes) (value : UInt64) (i : Nat) (span : i + data.length ≤ 8)
    (bound : value.toNat < 256 ^ i) :
    (readLoop value i data).toNat = value.toNat + 256 ^ i * leValue data := by
  induction data generalizing value i with
  | nil => simp [readLoop, leValue]
  | cons b rest ih =>
    simp only [List.length_cons] at span
    have hb := b.toNat_lt
    have hpow : (256 : Nat) ^ i = 2 ^ (i * 8) := by rw [Nat.mul_comm, pow_mul]; rfl
    have fits : b.toNat * 2 ^ (i * 8) < 2 ^ 64 :=
      calc b.toNat * 2 ^ (i * 8) < 2 ^ 8 * 2 ^ (i * 8) :=
            Nat.mul_lt_mul_of_pos_right hb (Nat.two_pow_pos _)
        _ = 2 ^ (8 + i * 8) := (pow_add 2 8 (i * 8)).symm
        _ ≤ 2 ^ 64 := Nat.pow_le_pow_right (by decide) (by omega)
    have hshift : (UInt64.ofNat (i * 8)).toNat % 64 = i * 8 := by
      rw [UInt64.toNat_ofNat']
      omega
    have step : (value ||| b.toUInt64 <<< UInt64.ofNat (i * 8)).toNat =
        value.toNat + b.toNat * 256 ^ i := by
      rw [UInt64.toNat_or, UInt64.toNat_shiftLeft, hshift, UInt8.toNat_toUInt64,
        Nat.shiftLeft_eq, Nat.mod_eq_of_lt fits, Nat.or_comm, ← Nat.shiftLeft_eq,
        ← Nat.shiftLeft_add_eq_or_of_lt (hpow ▸ bound), Nat.shiftLeft_eq, hpow]
      omega
    rw [readLoop, ih _ _ (by omega), step, leValue, pow_succ]
    · ring
    · have : b.toNat * 256 ^ i ≤ 255 * 256 ^ i := Nat.mul_le_mul_right _ (by omega)
      omega

theorem toNat_read (span : data.length ≤ 8) : (read data).toNat = leValue data := by
  rw [read, toNat_readLoop data 0 0 (by omega) (by simp)]
  simp

theorem write_eq (width : Nat) (value : UInt64) :
    write width value = leDigits width value.toNat := by
  induction width generalizing value with
  | zero => rfl
  | succ width ih =>
    have digit : value.toUInt8 = UInt8.ofNat value.toNat := by
      simp
    have rest : (value >>> 8).toNat = value.toNat / 256 := by
      exact Nat.shiftRight_eq_div_pow _ 8
    rw [write, ih, rest, leDigits, digit]

@[simp] theorem length_write (width : Nat) (value : UInt64) :
    (write width value).length = width := by
  rw [write_eq, length_leDigits]

theorem read_write {value : UInt64} (span : width ≤ 8)
    (fits : value.toNat < 256 ^ width) : read (write width value) = value := by
  rw [← UInt64.toNat_inj, toNat_read (by simpa using span), write_eq, leValue_leDigits fits]

theorem read_write_eight (value : UInt64) : read (write 8 value) = value :=
  read_write (Nat.le_refl 8) value.toNat_lt

theorem write_read (span : data.length ≤ 8) : write data.length (read data) = data := by
  rw [write_eq, toNat_read span, leDigits_leValue]

theorem write_read_of_length (span : width ≤ 8)
    (exact : data.length = width) : write width (read data) = data := by
  subst exact
  exact write_read span

theorem toNat_read_write {width count : Nat} (span : width ≤ 8) (fits : count < 256 ^ width) :
    (read (write width (UInt64.ofNat count))).toNat = count := by
  have small : count < 2 ^ 64 :=
    fits.trans_le ((Nat.pow_le_pow_right (by decide) span).trans_eq rfl)
  have exact : (UInt64.ofNat count).toNat = count := UInt64.toNat_ofNat_of_lt' small
  rw [read_write span (by rwa [exact]), exact]

theorem toNat_read_lt (span : width ≤ 8)
    (within : data.length ≤ width) : (read data).toNat < 256 ^ width := by
  rw [toNat_read (within.trans span)]
  exact (leValue_lt data).trans_le (Nat.pow_le_pow_right (by decide) within)

end LittleEndian

theorem orderWriteLoop_eq (i : Nat) (value : UInt64) (tail : Bytes) :
    orderWriteLoop i value tail = (write i value).reverse ++ tail := by
  induction i generalizing value tail with
  | zero => rfl
  | succ i ih => simp [orderWriteLoop, write, ih]

theorem orderWrite_eq (value : UInt64) : orderWrite value = beDigits 8 value.toNat := by
  rw [orderWrite, orderWriteLoop_eq, write_eq, List.append_nil, beDigits]

@[simp] theorem length_orderWrite (value : UInt64) : (orderWrite value).length = 8 := by
  rw [orderWrite_eq, length_beDigits]

theorem toNat_orderReadLoop (data : Bytes) (value : UInt64) (i : Nat)
    (span : i + data.length ≤ 8) (bound : value.toNat < 256 ^ i) :
    (data.foldl (fun (value : UInt64) (b : UInt8) => value <<< 8 ||| b.toUInt64) value).toNat =
      value.toNat * 256 ^ data.length + beValue data := by
  induction data generalizing value i with
  | nil => simp [beValue, leValue]
  | cons b rest ih =>
    simp only [List.length_cons] at span
    have hb := b.toNat_lt
    have hpow : (256 : Nat) ^ i ≤ 256 ^ 7 := Nat.pow_le_pow_right (by decide) (by omega)
    have step : (value <<< 8 ||| b.toUInt64).toNat = value.toNat * 256 + b.toNat := by
      rw [UInt64.toNat_or, UInt64.toNat_shiftLeft, UInt8.toNat_toUInt64,
        show (8 : UInt64).toNat % 64 = 8 from rfl,
        Nat.mod_eq_of_lt (by omega),
        ← Nat.shiftLeft_add_eq_or_of_lt hb, Nat.shiftLeft_eq]
    rw [List.foldl_cons, ih _ (i + 1) (by omega) (by omega), step,
      beValue_cons, List.length_cons, pow_succ]
    ring

theorem toNat_orderRead {data : Bytes} (span : data.length ≤ 8) :
    (orderRead data).toNat = beValue data := by
  rw [orderRead, toNat_orderReadLoop data 0 0 (by omega) (by simp)]
  simp

theorem orderRead_orderWrite (value : UInt64) : orderRead (orderWrite value) = value := by
  rw [← UInt64.toNat_inj, toNat_orderRead (by simp), orderWrite_eq,
    beValue_beDigits value.toNat_lt]

theorem orderWrite_orderRead {data : Bytes} (span : data.length = 8) :
    orderWrite (orderRead data) = data := by
  rw [orderWrite_eq, toNat_orderRead (by omega), ← span, beDigits_beValue]

theorem memcmp_orderWrite (a b : UInt64) :
    memcmp (orderWrite a) (orderWrite b) = compare a.toNat b.toNat := by
  rw [orderWrite_eq, orderWrite_eq, memcmp_beDigits a.toNat_lt b.toNat_lt]

theorem toNat_signedOrder (value : Int64) :
    ((signedOrder value).toNat : Int) = value.toInt + 2 ^ 63 := by
  have hword := value.toUInt64.toNat_lt
  have hint : value.toInt = if 2 * value.toUInt64.toNat < 2 ^ 64 then
      (value.toUInt64.toNat : Int) else value.toUInt64.toNat - (2 ^ 64 : Nat) :=
    BitVec.toInt_eq_toNat_cond value.toBitVec
  rw [signedOrder, xor_sign, UInt64.toNat_add, toNat_sign, hint]
  split_ifs <;> omega

theorem orderSigned_eq (word : UInt64) : orderSigned word = (word + sign).toInt64 := by
  have low : Int64.minValue + word.toInt64 = (word + sign).toInt64 := by
    rw [UInt64.toInt64_add, Int64.add_comm]
    rfl
  rw [orderSigned, xor_sign, low, ite_self]

theorem add_sign_add_sign (word : UInt64) : word + sign + sign = word := by
  have : sign + sign = 0 := rfl
  rw [UInt64.add_assoc, this, UInt64.add_zero]

theorem orderSigned_signedOrder (value : Int64) : orderSigned (signedOrder value) = value := by
  rw [orderSigned_eq, signedOrder, xor_sign, add_sign_add_sign, Int64.toInt64_toUInt64]

theorem signedOrder_orderSigned (word : UInt64) : signedOrder (orderSigned word) = word := by
  rw [orderSigned_eq, signedOrder, xor_sign, UInt64.toUInt64_toInt64, add_sign_add_sign]

/-- The number a binary64 pattern stands for, up to a strictly increasing
rescaling: sign and magnitude, with both zeros at zero. -/
def magnitudeOrder (bits : UInt64) : Int :=
  if bits.toNat < 2 ^ 63 then bits.toNat else (2 ^ 63 : Nat) - (bits.toNat : Int)

/-- Both zeros are read as the positive one. -/
def canonicalDouble (bits : UInt64) : UInt64 := if isZero bits then 0 else bits

theorem magnitudeOrder_eq_zero_iff (bits : UInt64) :
    magnitudeOrder bits = 0 ↔ isZero bits := by
  simp only [magnitudeOrder, isZero, Bool.or_eq_true, decide_eq_true_eq, ← UInt64.toNat_inj,
    toNat_sign, UInt64.toNat_zero]
  split_ifs <;> omega

theorem magnitudeOrder_canonicalDouble (bits : UInt64) :
    magnitudeOrder (canonicalDouble bits) = magnitudeOrder bits := by
  by_cases h : isZero bits
  · rw [(magnitudeOrder_eq_zero_iff bits).mpr h, canonicalDouble, if_pos h]
    rfl
  · rw [canonicalDouble, if_neg h]

/-- The ordered word as a number: magnitudes above the boundary, complements below. -/
theorem toNat_doubleOrder (bits : UInt64) :
    ((doubleOrder bits).toNat : Int) =
      if 0 ≤ magnitudeOrder bits then 2 ^ 63 + magnitudeOrder bits
      else 2 ^ 63 - 1 + magnitudeOrder bits := by
  rw [← magnitudeOrder_canonicalDouble]
  have hcanonical : ¬ (2 ^ 63 = (canonicalDouble bits).toNat) := by
    intro h
    by_cases hz : isZero bits
    · simp [canonicalDouble, hz] at h
    · rw [canonicalDouble, if_neg hz] at h
      exact hz (by simp [isZero, ← UInt64.toNat_inj, ← h])
  have hword := (canonicalDouble bits).toNat_lt
  change ((if canonicalDouble bits &&& sign ≠ 0 then ~~~canonicalDouble bits
    else canonicalDouble bits ^^^ sign).toNat : Int) = _
  by_cases h : (canonicalDouble bits).toNat < 2 ^ 63
  · rw [if_neg (not_not.mpr ((and_sign_eq_zero_iff _).mpr h)), xor_sign, UInt64.toNat_add,
      toNat_sign, magnitudeOrder, if_pos h]
    split_ifs <;> omega
  · rw [if_pos (mt (and_sign_eq_zero_iff _).mp h), toNat_complement, magnitudeOrder, if_neg h]
    split_ifs <;> omega

theorem compare_doubleOrder (a b : UInt64) :
    compare (doubleOrder a).toNat (doubleOrder b).toNat =
      compare (magnitudeOrder a) (magnitudeOrder b) := by
  have ha := toNat_doubleOrder a
  have hb := toNat_doubleOrder b
  rcases lt_trichotomy (magnitudeOrder a) (magnitudeOrder b) with h | h | h
  · rw [compare_lt_iff_lt.mpr h]
    exact compare_lt_iff_lt.mpr (by split_ifs at ha hb <;> omega)
  · rw [compare_eq_iff_eq.mpr h]
    exact compare_eq_iff_eq.mpr (by omega)
  · rw [compare_gt_iff_gt.mpr h]
    exact compare_gt_iff_gt.mpr (by split_ifs at ha hb <;> omega)

/-- The bit map under the ordered word, before zeros are made canonical. -/
def orderFlip (bits : UInt64) : UInt64 :=
  if bits &&& sign ≠ 0 then ~~~bits else bits ^^^ sign

theorem doubleOrder_eq (bits : UInt64) : doubleOrder bits = orderFlip (canonicalDouble bits) := rfl

theorem complement_and_sign (bits : UInt64) : ~~~bits &&& sign = 0 ↔ bits &&& sign ≠ 0 := by
  rw [ne_eq, and_sign_eq_zero_iff, and_sign_eq_zero_iff, toNat_complement]
  omega

theorem xor_sign_and_sign (bits : UInt64) : (bits ^^^ sign) &&& sign = 0 ↔ bits &&& sign ≠ 0 := by
  have := bits.toNat_lt
  rw [ne_eq, and_sign_eq_zero_iff, and_sign_eq_zero_iff, xor_sign, UInt64.toNat_add, toNat_sign]
  omega

theorem orderDouble_orderFlip (bits : UInt64) : orderDouble (orderFlip bits) = bits := by
  by_cases h : bits &&& sign = 0
  · rw [orderFlip, if_neg (not_not.mpr h), orderDouble,
      if_pos (mt (xor_sign_and_sign bits).mp (not_not.mpr h)), xor_sign, xor_sign,
      add_sign_add_sign]
  · rw [orderFlip, if_pos h, orderDouble, if_neg (not_not.mpr ((complement_and_sign bits).mpr h)),
      UInt64.not_not]

theorem orderFlip_orderDouble (word : UInt64) : orderFlip (orderDouble word) = word := by
  by_cases h : word &&& sign = 0
  · rw [orderDouble, if_neg (not_not.mpr h), orderFlip,
      if_pos (mt (complement_and_sign word).mp (not_not.mpr h)), UInt64.not_not]
  · rw [orderDouble, if_pos h, orderFlip, if_neg (not_not.mpr ((xor_sign_and_sign word).mpr h)),
      xor_sign, xor_sign, add_sign_add_sign]

theorem orderDouble_doubleOrder (bits : UInt64) :
    orderDouble (doubleOrder bits) = canonicalDouble bits := by
  rw [doubleOrder_eq, orderDouble_orderFlip]

theorem doubleOrder_orderDouble {word : UInt64}
    (canonical : isZero (orderDouble word) → word = sign) :
    doubleOrder (orderDouble word) = word := by
  rw [doubleOrder_eq]
  by_cases h : isZero (orderDouble word)
  · rw [canonicalDouble, if_pos h, canonical h]
    rfl
  · rw [canonicalDouble, if_neg h, orderFlip_orderDouble]

end TurboDb.Wire
