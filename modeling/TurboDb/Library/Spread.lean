import Mathlib.Algebra.Order.Ring.Nat
import Mathlib.Order.Interval.Finset.Nat

/-!
A range spread evenly over parts.

The parts are runs of indices as equal in size as can be, the larger ones first:
each has the quotient, and as many as the remainder one more. The part of an index
is found by division, with another divisor behind the larger parts.
-/

namespace Spread

open Nat

variable {count parts i j k : Nat}

def start (count parts k : Nat) : Nat := k * (count / parts) + min k (count % parts)

def size (count parts k : Nat) : Nat := count / parts + if k < count % parts then 1 else 0

/-- Where the parts without an extra index start. -/
def cutoff (count parts : Nat) : Nat := (count / parts + 1) * (count % parts)

def part (count parts i : Nat) : Nat :=
  if i < cutoff count parts then i / (count / parts + 1)
  else count % parts + (i - cutoff count parts) / (count / parts)

@[simp]
theorem start_zero (count parts : Nat) : start count parts 0 = 0 := by simp [start]

theorem start_succ (count parts k : Nat) :
    start count parts (k + 1) = start count parts k + size count parts k := by
  simp only [start, size, add_mul, one_mul]
  split_ifs <;> omega

theorem start_parts (count : Nat) (pos : 0 < parts) : start count parts parts = count := by
  have less := mod_lt count pos
  rw [start, min_eq_right less.le, div_add_mod]

theorem start_mono (count parts : Nat) (le : i ≤ j) : start count parts i ≤ start count parts j := by
  induction j, le using le_induction with
  | base => exact le_rfl
  | succ j _ ih => exact ih.trans (by rw [start_succ]; exact le_add_right _ _)

theorem cutoff_le (count parts : Nat) : cutoff count parts ≤ count := by
  have whole := div_add_mod count parts
  by_cases none : parts = 0
  · subst none
    rw [cutoff, Nat.div_zero, Nat.mod_zero, Nat.zero_add, Nat.one_mul]
  · have less := mod_lt count (pos_of_ne_zero none)
    have product := mul_le_mul_right (count / parts) less.le
    rw [cutoff, add_mul, one_mul, mul_comm]
    omega

section Fits

variable (fits : parts ≤ count) (pos : 0 < parts)
include fits pos

theorem part_between :
    start count parts (part count parts i) ≤ i ∧ i < start count parts (part count parts i + 1) := by
  have base : 0 < count / parts := div_pos fits pos
  unfold part start
  split_ifs with larger
  · have least : i / (count / parts + 1) < count % parts := by
      rw [div_lt_iff_lt_mul (succ_pos _), mul_comm]
      exact larger
    have low := div_mul_le_self i (count / parts + 1)
    have high := lt_div_mul_add (a := i) (succ_pos (count / parts))
    rw [succ_eq_add_one, mul_add, mul_one] at high
    rw [mul_add, mul_one] at low
    rw [add_mul, one_mul]
    omega
  · have low := div_mul_le_self (i - cutoff count parts) (count / parts)
    have high := lt_div_mul_add (a := i - cutoff count parts) base
    generalize (i - cutoff count parts) / (count / parts) = q at *
    have split : cutoff count parts = count % parts * (count / parts) + count % parts := by
      rw [cutoff, add_mul, one_mul, mul_comm]
    rw [add_assoc, add_mul, add_mul, add_mul, one_mul]
    omega

theorem part_eq_iff :
    part count parts i = k ↔ start count parts k ≤ i ∧ i < start count parts (k + 1) := by
  constructor
  · rintro rfl
    exact part_between fits pos
  · rintro ⟨low, high⟩
    obtain ⟨low', high'⟩ := part_between (i := i) fits pos
    apply le_antisymm
    · by_contra more
      have above := start_mono count parts (lt_iff_add_one_le.mp (not_le.mp more))
      omega
    · by_contra less
      have below := start_mono count parts (lt_iff_add_one_le.mp (not_le.mp less))
      omega

theorem size_pos (k : Nat) : 0 < size count parts k :=
  Nat.add_pos_left (Nat.div_pos fits pos) _

theorem part_start (k : Nat) : part count parts (start count parts k) = k := by
  rw [part_eq_iff fits pos, start_succ]
  exact ⟨le_rfl, Nat.lt_add_of_pos_right (size_pos fits pos k)⟩

theorem start_lt (isPart : k < parts) : start count parts k < count :=
  calc start count parts k
      _ < start count parts (k + 1) := by
        rw [start_succ]
        exact Nat.lt_add_of_pos_right (size_pos fits pos k)
      _ ≤ start count parts parts := start_mono count parts isPart
      _ = count := start_parts count pos

theorem part_lt (inside : i < count) : part count parts i < parts := by
  by_contra more
  have above := start_mono count parts (not_lt.mp more)
  rw [start_parts count pos] at above
  have low := (part_between (i := i) fits pos).1
  omega

end Fits

theorem part_self (inside : i < count) : part count count i = i := by
  have some : 0 < count := by omega
  rw [part, cutoff, Nat.mod_self, Nat.div_self some]
  simp

theorem part_mono (fits : parts ≤ count) (pos : 0 < parts) (le : i ≤ j) :
    part count parts i ≤ part count parts j := by
  by_contra more
  have above := start_mono count parts (lt_iff_add_one_le.mp (not_le.mp more))
  have low := (part_between (i := i) fits pos).1
  have high := (part_between (i := j) fits pos).2
  omega

theorem card_part (fits : parts ≤ count) (pos : 0 < parts) (isPart : k < parts) :
    ((Finset.range count).filter fun i => part count parts i = k).card = size count parts k := by
  have high : start count parts (k + 1) ≤ count :=
    (start_mono count parts (lt_iff_add_one_le.mp isPart)).trans (start_parts count pos).le
  have run : (Finset.range count).filter (fun i => part count parts i = k) =
      Finset.Ico (start count parts k) (start count parts (k + 1)) := by
    ext i
    rw [Finset.mem_filter, Finset.mem_range, Finset.mem_Ico, part_eq_iff fits pos]
    exact ⟨fun h => h.2, fun h => ⟨lt_of_lt_of_le h.2 high, h⟩⟩
  rw [run, Nat.card_Ico, start_succ, Nat.add_sub_cancel_left]

end Spread
