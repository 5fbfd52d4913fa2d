import TurboDb.Library.ByteOrder
import Mathlib.Data.Nat.Bitwise
import Mathlib.Tactic.IntervalCases

/-!
Bitmaps in byte strings.

Bit `i` is bit `i % 8`, counted from the least significant, of byte `i / 8`.
Bits outside the string are clear. Marking flags from a place on sets the bits of
those that hold and no others.
-/

namespace Bitmap

open ByteOrder

def bit (k : Nat) : UInt8 := 1 <<< UInt8.ofNat k

def get (map : Bytes) (i : Nat) : Bool := map.getD (i / 8) 0 &&& bit (i % 8) ≠ 0

def set (map : Bytes) (i : Nat) : Bytes := map.modify (i / 8) (· ||| bit (i % 8))

/-- Set the bits of the flags that hold, the first flag at place `start`. -/
def mark (map : Bytes) (start : Nat) : List Bool → Bytes
  | [] => map
  | flag :: flags => mark (if flag then set map start else map) (start + 1) flags

variable {map : Bytes} {i j k start : Nat}

theorem toNat_bit (small : k < 8) : (bit k).toNat = 2 ^ k := by
  interval_cases k <;> rfl

theorem and_bit_ne_zero {byte : UInt8} (small : k < 8) :
    (byte &&& bit k ≠ 0) ↔ byte.toNat.testBit k := by
  rw [ne_eq, ← UInt8.toNat_inj, UInt8.toNat_and, toNat_bit small, Nat.and_two_pow]
  cases byte.toNat.testBit k <;> simp

theorem get_eq (map : Bytes) (i : Nat) :
    get map i = (map.getD (i / 8) 0).toNat.testBit (i % 8) := by
  rw [get, Bool.eq_iff_iff, decide_eq_true_iff, and_bit_ne_zero (Nat.mod_lt i (by decide))]

@[simp] theorem length_set (map : Bytes) (i : Nat) : (set map i).length = map.length := by
  simp [set]

theorem get_set (inside : i / 8 < map.length) (j : Nat) :
    get (set map i) j = (get map j || decide (i = j)) := by
  have small' : i % 8 < 8 := Nat.mod_lt i (by decide)
  rw [get_eq, get_eq, set]
  by_cases same : i / 8 = j / 8
  · have byte : (map.modify (i / 8) (· ||| bit (i % 8))).getD (j / 8) 0 =
        map.getD (j / 8) 0 ||| bit (i % 8) := by
      rw [← same]
      simp [List.getD, inside]
    rw [byte, UInt8.toNat_or, Nat.testBit_or, toNat_bit small', Nat.testBit_two_pow]
    congr 1
    rw [decide_eq_decide]
    omega
  · have byte : (map.modify (i / 8) (· ||| bit (i % 8))).getD (j / 8) 0 = map.getD (j / 8) 0 := by
      simp [List.getD, same]
    have other : ¬i = j := by
      rintro rfl
      exact same rfl
    rw [byte, decide_eq_false other, Bool.or_false]

@[simp] theorem length_mark (map : Bytes) (start : Nat) (flags : List Bool) :
    (mark map start flags).length = map.length := by
  induction flags generalizing map start with
  | nil => rfl
  | cons flag flags ih =>
    rw [mark, ih]
    split_ifs <;> simp

theorem get_mark {flags : List Bool} (inside : start + flags.length ≤ 8 * map.length) (j : Nat) :
    get (mark map start flags) j =
      (get map j || decide (start ≤ j) && flags.getD (j - start) false) := by
  induction flags generalizing map start with
  | nil => simp [mark]
  | cons flag flags ih =>
    rw [List.length_cons] at inside
    have room : start + 1 + flags.length ≤ 8 * (if flag then set map start else map).length := by
      cases flag
      · simp only [Bool.false_eq_true, if_false]
        omega
      · simp only [if_true, length_set]
        omega
    have first : get (if flag then set map start else map) j =
        (get map j || decide (start = j) && flag) := by
      cases flag with
      | false => simp
      | true => simp [get_set (show start / 8 < map.length by omega)]
    rw [mark, ih room, first, Bool.or_assoc]
    rcases Nat.lt_trichotomy j start with before | rfl | after
    · simp [show ¬start = j by omega, show ¬start ≤ j by omega, show ¬start + 1 ≤ j by omega]
    · simp
    · obtain ⟨n, rfl⟩ : ∃ n, j = start + 1 + n := ⟨j - (start + 1), by omega⟩
      simp [show ¬start = start + 1 + n by omega, show start ≤ start + 1 + n by omega,
        show start + 1 + n - start = n + 1 by omega]

@[simp] theorem get_replicate (n i : Nat) : get (List.replicate n 0) i = false := by
  have byte : (List.replicate n (0 : UInt8)).getD (i / 8) 0 = 0 := by
    simp only [List.getD, List.getElem?_replicate]
    split_ifs <;> rfl
  rw [get_eq, byte]
  simp

theorem get_append (inside : i / 8 < map.length) (after : Bytes) :
    get (map ++ after) i = get map i := by
  rw [get_eq, get_eq, List.getD, List.getD, List.getElem?_append_left inside]

theorem shiftRight_eq_zero {n : Nat} (clear : ∀ j, n ≤ j → j / 8 = n / 8 → get map j = false) :
    map.getD (n / 8) 0 >>> UInt8.ofNat (n % 8) = 0 := by
  have shift : (UInt8.ofNat (n % 8)).toNat % 8 = n % 8 := by
    rw [UInt8.toNat_ofNat']
    omega
  rw [← UInt8.toNat_inj, UInt8.toNat_shiftRight, shift, UInt8.toNat_zero,
    Nat.shiftRight_eq_div_pow]
  refine Nat.div_eq_of_lt (Nat.lt_pow_two_of_testBit _ fun k le => ?_)
  by_cases high : k < 8
  · have := clear (n / 8 * 8 + k) (by omega) (by omega)
    rwa [get_eq, show (n / 8 * 8 + k) / 8 = n / 8 by omega,
      show (n / 8 * 8 + k) % 8 = k by omega] at this
  · exact Nat.testBit_lt_two_pow
      (lt_of_lt_of_le (UInt8.toNat_lt _) (Nat.pow_le_pow_right (by decide) (by omega)))

end Bitmap
