import Mathlib.Algebra.CharP.Two
import Mathlib.Algebra.Field.ZMod
import Mathlib.RingTheory.AdjoinRoot
import TurboDb.Library.ByteOrder

/-!
Remainders of polynomials over two elements.

A number is the polynomial with its bits as coefficients. Exclusive or is the sum
and a shift to the left a product, so that a register divides by shifts, and by
exclusive or with the divisor whenever a bit leaves it.
-/

namespace Crc

open Polynomial ByteOrder

/-- The polynomial with the bits of a number. -/
noncomputable def poly (n : Nat) : (ZMod 2)[X] := ∑ i ∈ Finset.range n, if n.testBit i then X ^ i else 0

theorem coeff_poly (n i : Nat) : (poly n).coeff i = if n.testBit i then 1 else 0 := by
  rw [poly, finsetSum_coeff, Finset.sum_eq_single i]
  · simp [apply_ite (fun p : (ZMod 2)[X] => p.coeff i)]
  · intro j _ other
    simp [apply_ite (fun p : (ZMod 2)[X] => p.coeff i), coeff_X_pow, other.symm]
  · intro outside
    have large : n < 2 ^ i := Nat.lt_of_le_of_lt (by simpa using outside) Nat.lt_two_pow_self
    simp [Nat.testBit_lt_two_pow large]

theorem poly_xor (m n : Nat) : poly (m ^^^ n) = poly m + poly n := by
  ext i
  rw [coeff_add, coeff_poly, coeff_poly, coeff_poly, Nat.testBit_xor]
  cases m.testBit i <;> cases n.testBit i <;> decide

theorem poly_shiftLeft (n k : Nat) : poly (n <<< k) = poly n * X ^ k := by
  ext i
  rw [coeff_mul_X_pow', coeff_poly, coeff_poly, Nat.testBit_shiftLeft]
  by_cases le : k ≤ i <;> simp [le]

theorem poly_split (n k : Nat) : poly n = poly (n >>> k) * X ^ k + poly (n % 2 ^ k) := by
  ext i
  rw [coeff_add, coeff_mul_X_pow', coeff_poly, coeff_poly, coeff_poly, Nat.testBit_shiftRight,
    Nat.testBit_mod_two_pow]
  by_cases le : k ≤ i
  · simp [le, Nat.not_lt.mpr le]
  · simp [le, Nat.lt_of_not_le le]

theorem degree_poly_lt {n k : Nat} (lt : n < 2 ^ k) : (poly n).degree < k := by
  rw [degree_lt_iff_coeff_zero]
  intro i le
  rw [coeff_poly, Nat.testBit_lt_two_pow (lt.trans_le (Nat.pow_le_pow_right (by decide) le))]
  rfl

/-- The polynomial of a message, its first bit in front. -/
noncomputable def message (bytes : Bytes) : (ZMod 2)[X] :=
  bytes.foldl (fun p b => p * X ^ 8 + poly b.toNat) 0

section Register

variable (divisor width : Nat)

/-- A register of the given width takes in a zero bit. -/
def shift (n : Nat) : Nat := n <<< 1 ^^^ if n.testBit (width - 1) then divisor else 0

/-- What is left of polynomials up to multiples of the divisor. -/
noncomputable abbrev rest : (ZMod 2)[X] →+* AdjoinRoot (poly divisor) := AdjoinRoot.mk (poly divisor)

theorem rest_shift (n : Nat) : rest divisor (poly (shift divisor width n)) = rest divisor (poly n * X) := by
  rw [shift, poly_xor, poly_shiftLeft, pow_one, map_add, add_eq_left]
  split
  · exact AdjoinRoot.mk_self
  · exact congrArg (rest divisor) (by simp [poly]) |>.trans (map_zero _)

theorem rest_shifts (n k : Nat) :
    rest divisor (poly ((shift divisor width)^[k] n)) = rest divisor (poly n * X ^ k) := by
  induction k with
  | zero => rw [Function.iterate_zero, id_eq, pow_zero, mul_one]
  | succ k ih =>
    rw [Function.iterate_succ_apply', rest_shift, map_mul, ih, ← map_mul, mul_assoc, pow_succ]

variable {divisor width}

/-- A register takes in a byte by the entry for what leaves it. -/
theorem rest_update {crc b entry : Nat} (small : entry < 2 ^ (width + 8))
    (tabulated : rest divisor (poly entry) = rest divisor (poly (crc >>> width ^^^ b) * X ^ (width + 8))) :
    rest divisor (poly ((crc <<< 8 ^^^ entry) % 2 ^ (width + 8))) =
      rest divisor (poly crc * X ^ 8 + poly b * X ^ (width + 8)) := by
  have split := poly_split (crc <<< 8) (width + 8)
  rw [poly_shiftLeft, Nat.add_comm width, Nat.shiftRight_add, Nat.shiftLeft_shiftRight, Nat.add_comm 8] at split
  rw [Nat.xor_mod_two_pow, Nat.mod_eq_of_lt small, poly_xor, map_add, tabulated, poly_xor, split, ← map_add]
  ring_nf

end Register

/-- A register that holds what is left of a message holds its remainder. -/
theorem poly_eq_modByMonic {divisor width n : Nat} {p : (ZMod 2)[X]} (monic : (poly divisor).Monic)
    (wide : (poly divisor).degree = width) (lt : n < 2 ^ width) (same : rest divisor (poly n) = rest divisor p) :
    poly n = p %ₘ poly divisor := by
  have reduced := (modByMonic_eq_self_iff monic).mpr (wide ▸ degree_poly_lt lt)
  rw [← reduced]
  exact modByMonic_eq_of_dvd_sub monic (AdjoinRoot.mk_eq_mk.mp same)

end Crc
