import Mathlib.Data.Nat.Bitwise

/-!
Unsigned 64-bit arithmetic and when it agrees with the integers.

Subtraction is exact when it does not pass below zero, addition and multiplication
when the result still fits. The guards programs write (an amount against the room
left, a count against a quotient) are turned into these facts.
-/

namespace Words

def SubExact (a b : UInt64) : Prop := b ≤ a

def AddExact (a b : UInt64) : Prop := a.toNat + b.toNat < 2 ^ 64

def MulExact (a b : UInt64) : Prop := a.toNat * b.toNat < 2 ^ 64

instance (a b : UInt64) : Decidable (SubExact a b) := inferInstanceAs (Decidable (b ≤ a))

instance (a b : UInt64) : Decidable (AddExact a b) := inferInstanceAs (Decidable (_ < _))

instance (a b : UInt64) : Decidable (MulExact a b) := inferInstanceAs (Decidable (_ < _))

def max : UInt64 := 0xFFFFFFFFFFFFFFFF

theorem le_max (a : UInt64) : a ≤ max := by
  exact Nat.le_of_lt_succ a.toNat_lt

theorem addExact_of_le_sub {used limit charge : UInt64} (bound : used ≤ limit)
    (room : ¬ limit - used < charge) : AddExact used charge := by
  have hroom := UInt64.toNat_sub_of_le limit used bound
  rw [UInt64.lt_iff_toNat_lt] at room
  rw [UInt64.le_iff_toNat_le] at bound
  have := limit.toNat_lt
  simp only [AddExact]
  omega

/-- A count no larger than the quotient of the room left can be scaled and
shifted without leaving the word. -/
theorem scaleExact_of_le_div {count size shift : UInt64} (positive : size ≠ 0)
    (room : ¬ (max - shift) / size < count) :
    MulExact count size ∧ AddExact (count * size) shift := by
  have hshift := UInt64.toNat_sub_of_le max shift (le_max shift)
  have hmax : max.toNat = 2 ^ 64 - 1 := rfl
  have hsize : 0 < size.toNat := by
    rw [Nat.pos_iff_ne_zero]
    exact fun h => positive (UInt64.toNat_inj.mp h)
  rw [UInt64.lt_iff_toNat_lt, UInt64.toNat_div, hshift, Nat.not_lt,
    Nat.le_div_iff_mul_le hsize] at room
  have := shift.toNat_lt
  have hmul : count.toNat * size.toNat < 2 ^ 64 := by omega
  refine ⟨hmul, ?_⟩
  simp only [AddExact, UInt64.toNat_mul, Nat.mod_eq_of_lt hmul]
  omega

def sign : UInt64 := 0x8000000000000000

@[simp] theorem toNat_sign : sign.toNat = 2 ^ 63 := rfl

theorem testBit_sign (a : UInt64) : a.toNat.testBit 63 = decide (2 ^ 63 ≤ a.toNat) := by
  have := a.toNat_lt
  rw [Nat.testBit_eq_decide_div_mod_eq, decide_eq_decide]
  omega

theorem and_sign_eq_zero_iff (a : UInt64) : a &&& sign = 0 ↔ a.toNat < 2 ^ 63 := by
  rw [← UInt64.toNat_inj, UInt64.toNat_and, toNat_sign, Nat.and_two_pow, testBit_sign]
  simp

theorem xor_sign (a : UInt64) : a ^^^ sign = a + sign := by
  have ha := a.toNat_lt
  rw [← UInt64.toNat_inj, UInt64.toNat_xor, UInt64.toNat_add, toNat_sign, Nat.add_comm]
  apply Nat.eq_of_testBit_eq
  intro j
  rw [Nat.testBit_xor, Nat.testBit_mod_two_pow, Nat.testBit_two_pow]
  rcases Nat.lt_trichotomy j 63 with h | rfl | h
  · simp [Nat.testBit_two_pow_add_gt h, show j < 64 by omega, show ¬ 63 = j by omega]
  · rw [Nat.testBit_two_pow_add_eq]
    simp
  · have : a.toNat.testBit j = false :=
      Nat.testBit_lt_two_pow (ha.trans_le (Nat.pow_le_pow_right (by decide) (by omega)))
    simp [this, show ¬ j < 64 by omega, show ¬ 63 = j by omega]

theorem toNat_complement (a : UInt64) : (~~~a).toNat = 2 ^ 64 - 1 - a.toNat :=
  UInt64.toNat_not a

theorem flag_ne_zero (b : Bool) : decide ((if b then (1 : UInt8) else 0) ≠ 0) = b := by
  cases b <;> decide

theorem eq_flag_of_le_one {flag : UInt8} (small : ¬flag > 1) :
    (if decide (flag ≠ 0) then (1 : UInt8) else 0) = flag := by
  have : flag = 0 ∨ flag = 1 := by
    simp only [gt_iff_lt, UInt8.lt_iff_toNat_lt, ← UInt8.toNat_inj] at small ⊢
    simp only [UInt8.reduceToNat] at small ⊢
    omega
  obtain rfl | rfl := this <;> decide

end Words
