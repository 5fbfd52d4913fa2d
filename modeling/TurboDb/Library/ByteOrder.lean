import Mathlib.Data.List.Lex
import Mathlib.Order.Compare
import Mathlib.Tactic.Ring

/-!
Byte strings, their lexicographic order and positional numerals.

`memcmp` is the three-way lexicographic comparison, a proper initial segment
first. It distributes over concatenation of equally long blocks, is reversed by
complementing every byte, and compares big-endian numerals of one width as numbers.
-/

/-- Bytes are linearly ordered by magnitude, with the order already in core. -/
instance instLinearOrderUInt8 : LinearOrder UInt8 where
  le_refl := UInt8.le_refl
  le_trans _ _ _ := UInt8.le_trans
  le_antisymm _ _ := UInt8.le_antisymm
  le_total := UInt8.le_total
  lt_iff_le_not_ge a b := by
    rw [UInt8.not_le]
    exact ⟨fun h => ⟨UInt8.le_of_lt h, h⟩, fun h => h.2⟩
  toDecidableLE := inferInstance
  toDecidableLT := inferInstance
  toDecidableEq := inferInstance
  compare_eq_compareOfLessAndEq _ _ := rfl

namespace ByteOrder

abbrev Bytes := List UInt8

variable {a b : Bytes}

-- One instance for the definitions of all modules.
instance (byte : UInt8) (bytes : Bytes) : Decidable (byte ∈ bytes) := inferInstance

def memcmp : Bytes → Bytes → Ordering
  | [], [] => .eq
  | [], _ :: _ => .lt
  | _ :: _, [] => .gt
  | a :: as, b :: bs => (compare a b).then (memcmp as bs)

def complement (a : Bytes) : Bytes := a.map fun b => ~~~b

theorem memcmp_eq_iff (a b : Bytes) : memcmp a b = .eq ↔ a = b := by
  induction a generalizing b with
  | nil => cases b <;> simp [memcmp]
  | cons a as ih => cases b <;> simp [memcmp, Ordering.then_eq_eq, ih]

theorem memcmp_gt_iff : memcmp a b = .gt ↔ b < a := by
  induction a generalizing b with
  | nil => cases b <;> simp [memcmp]
  | cons byte a ih =>
    cases b with
    | nil => simp [memcmp]
    | cons other b =>
      rw [memcmp, Ordering.then_eq_gt, ih, List.cons_lt_cons_iff, compare_gt_iff_gt,
        compare_eq_iff_eq, eq_comm]

theorem memcmp_append (h : a.length = b.length) (c d : Bytes) :
    memcmp (a ++ c) (b ++ d) = (memcmp a b).then (memcmp c d) := by
  induction a generalizing b with
  | nil =>
    obtain rfl := List.length_eq_zero_iff.mp h.symm
    simp [memcmp]
  | cons a as ih =>
    cases b with
    | nil => simp at h
    | cons b bs => simp [memcmp, ih (by simpa using h), Ordering.then_assoc]

theorem compare_complement (a b : UInt8) : compare (~~~a) (~~~b) = (compare a b).swap := by
  have ha := UInt8.toNat_not a
  have hb := UInt8.toNat_not b
  have := a.toNat_lt
  have := b.toNat_lt
  have : UInt8.size = 256 := rfl
  simp only [compare, compareOfLessAndEq, UInt8.lt_iff_toNat_lt, ← UInt8.toNat_inj]
  split_ifs <;> first | rfl | omega

theorem memcmp_complement (h : a.length = b.length) :
    memcmp (complement a) (complement b) = (memcmp a b).swap := by
  induction a generalizing b with
  | nil =>
    obtain rfl := List.length_eq_zero_iff.mp h.symm
    rfl
  | cons a as ih =>
    cases b with
    | nil => simp at h
    | cons b bs =>
      have := ih (b := bs) (by simpa using h)
      simp only [complement] at this
      simp [memcmp, complement, compare_complement, this, Ordering.swap_then]

@[simp] theorem length_complement (a : Bytes) : (complement a).length = a.length := by
  simp [complement]

@[simp] theorem complement_complement (a : Bytes) : complement (complement a) = a := by
  simp [complement, Function.comp_def]

/-- The `width` lowest base-256 digits of a number, least significant first. -/
def leDigits : Nat → Nat → Bytes
  | 0, _ => []
  | width + 1, n => UInt8.ofNat n :: leDigits width (n / 256)

/-- The number with the given base-256 digits, least significant first. -/
def leValue : Bytes → Nat
  | [] => 0
  | b :: bs => b.toNat + 256 * leValue bs

def beDigits (width n : Nat) : Bytes := (leDigits width n).reverse

def beValue (a : Bytes) : Nat := leValue a.reverse

@[simp] theorem length_leDigits (width n : Nat) : (leDigits width n).length = width := by
  induction width generalizing n with
  | zero => rfl
  | succ width ih => simp [leDigits, ih]

@[simp] theorem length_beDigits (width n : Nat) : (beDigits width n).length = width := by
  simp [beDigits]

theorem leValue_lt (a : Bytes) : leValue a < 256 ^ a.length := by
  induction a with
  | nil => simp [leValue]
  | cons b bs ih =>
    have := b.toNat_lt
    simp only [leValue, List.length_cons, pow_succ]
    omega

theorem leValue_leDigits {width n : Nat} (h : n < 256 ^ width) :
    leValue (leDigits width n) = n := by
  induction width generalizing n with
  | zero => simp_all [leDigits, leValue]
  | succ width ih =>
    have small : n / 256 < 256 ^ width := by
      rw [Nat.div_lt_iff_lt_mul (by decide), ← pow_succ]
      exact h
    simp only [leDigits, leValue, ih small, UInt8.toNat_ofNat']
    omega

theorem leDigits_leValue (a : Bytes) : leDigits a.length (leValue a) = a := by
  induction a with
  | nil => rfl
  | cons b bs ih =>
    have := b.toNat_lt
    have tail : (b.toNat + 256 * leValue bs) / 256 = leValue bs := by omega
    have head : UInt8.ofNat (b.toNat + 256 * leValue bs) = b := by
      rw [← UInt8.toNat_inj, UInt8.toNat_ofNat']
      omega
    simp only [leValue, List.length_cons, leDigits, head, tail, ih]

theorem leValue_append (a b : Bytes) :
    leValue (a ++ b) = leValue a + 256 ^ a.length * leValue b := by
  induction a with
  | nil => simp [leValue]
  | cons d ds ih =>
    simp only [List.cons_append, leValue, ih, List.length_cons, pow_succ]
    ring

theorem beValue_lt (a : Bytes) : beValue a < 256 ^ a.length := by
  simpa [beValue] using leValue_lt a.reverse

theorem beValue_beDigits {width n : Nat} (h : n < 256 ^ width) :
    beValue (beDigits width n) = n := by
  simp [beValue, beDigits, leValue_leDigits h]

theorem beDigits_beValue (a : Bytes) : beDigits a.length (beValue a) = a := by
  have := leDigits_leValue a.reverse
  rw [List.length_reverse] at this
  rw [beDigits, beValue, this, List.reverse_reverse]

theorem beValue_cons (b : UInt8) (bs : Bytes) :
    beValue (b :: bs) = b.toNat * 256 ^ bs.length + beValue bs := by
  simp only [beValue, List.reverse_cons, leValue_append, List.length_reverse, leValue]
  ring

theorem compare_digit {a b x y base : Nat} (hx : x < base) (hy : y < base) :
    compare (a * base + x) (b * base + y) = (compare a b).then (compare x y) := by
  rcases Nat.lt_trichotomy a b with h | rfl | h
  · have : (a + 1) * base ≤ b * base := Nat.mul_le_mul_right base h
    rw [compare_lt_iff_lt.mpr h]
    exact compare_lt_iff_lt.mpr (by rw [Nat.add_mul] at this; omega)
  · simp only [compare_eq_iff_eq.mpr rfl, Ordering.then]
    rcases Nat.lt_trichotomy x y with hxy | rfl | hxy
    · rw [compare_lt_iff_lt.mpr hxy]
      exact compare_lt_iff_lt.mpr (by omega)
    · simp
    · rw [compare_gt_iff_gt.mpr hxy]
      exact compare_gt_iff_gt.mpr (by omega)
  · have : (b + 1) * base ≤ a * base := Nat.mul_le_mul_right base h
    rw [compare_gt_iff_gt.mpr h]
    exact compare_gt_iff_gt.mpr (by rw [Nat.add_mul] at this; omega)

theorem memcmp_eq_compare_beValue (h : a.length = b.length) :
    memcmp a b = compare (beValue a) (beValue b) := by
  induction a generalizing b with
  | nil =>
    obtain rfl := List.length_eq_zero_iff.mp h.symm
    simp [memcmp]
  | cons a as ih =>
    cases b with
    | nil => simp at h
    | cons b bs =>
      have len : as.length = bs.length := by simpa using h
      have byte : compare a b = compare a.toNat b.toNat := by
        simp [compare, compareOfLessAndEq, UInt8.lt_iff_toNat_lt, ← UInt8.toNat_inj]
      rw [memcmp, ih len, beValue_cons, beValue_cons, len, byte,
        compare_digit (len ▸ beValue_lt as) (beValue_lt bs)]

theorem memcmp_beDigits {width m n : Nat} (hm : m < 256 ^ width) (hn : n < 256 ^ width) :
    memcmp (beDigits width m) (beDigits width n) = compare m n := by
  rw [memcmp_eq_compare_beValue (by simp), beValue_beDigits hm, beValue_beDigits hn]

end ByteOrder
