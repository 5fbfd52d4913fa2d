import TurboDb.Library.Keyspace

/-!
What the apply scripts have in common.

Indexes are decimal strings, which the scripts compare, check and increment digit
by digit; on numerals that is the arithmetic of numbers. The tag between the first
pair of braces places a key in a cluster, and a request must name keys of one tag.
-/

namespace TurboDb.Redis

open ByteOrder Decimal Keyspace Effect

def maxU64 : Bytes := ascii "18446744073709551615"

def decimalCompare (left right : Bytes) : Ordering :=
  if left.length ≠ right.length then (if left.length < right.length then .lt else .gt)
  else if left = right then .eq
  else if memcmp left right = .lt then .lt else .gt

def validU64 (text : Bytes) : Bool :=
  canonical text && (text.length < maxU64.length ||
    text.length = maxU64.length && (decimalCompare text maxU64).isLE)

/-- The digits from the last to the first, with the carry into them. -/
def incrementDigits : Bytes → Nat → Bytes × Nat
  | [], carry => ([], carry)
  | b :: rest, carry =>
    if b.toNat + carry = 58 then
      let (digits, carry) := incrementDigits rest carry
      (48 :: digits, carry)
    else
      let (digits, carry') := incrementDigits rest 0
      (UInt8.ofNat (b.toNat + carry) :: digits, carry')

def decimalIncrement (text : Bytes) : Bytes :=
  let (digits, carry) := incrementDigits text.reverse 1
  if carry = 1 then 49 :: digits.reverse else digits.reverse

def keyTypeIs (key : Bytes) (expected : Kind) : Script Bool := do
  let kind ← type key
  return kind = .none ∨ kind = expected

def luaApplyTag (key : Bytes) : Option Bytes :=
  let rest := (key.dropWhile (· ≠ 123)).drop 1
  let tag := rest.takeWhile (· ≠ 125)
  if tag = [] ∨ tag = rest then none else some tag

inductive ReceiptKind
  | applied | replayed | gap | conflict | commitUnknown | error | pending | invalid
  deriving DecidableEq, Repr

structure Receipt where
  kind : ReceiptKind
  text : Bytes
  deriving DecidableEq

/-- A number as a field of the metadata; zero is not stored. -/
def storedNumber (n : Nat) : Option Bytes := if n = 0 then none else some (numeral n)

theorem storedNumber_getD (n : Nat) : (storedNumber n).getD (ascii "0") = numeral n := by
  unfold storedNumber
  split
  · rename_i zero
    subst zero
    rfl
  · rfl

section Decimals

variable {m n : Nat}
variable {digits : Bytes}

theorem decimalCompare_numeral : decimalCompare (numeral m) (numeral n) = compare m n := by
  unfold decimalCompare
  split
  · split
    · rename_i shorter
      exact (compare_lt_iff_lt.mpr (lt_of_length_lt shorter)).symm
    · exact (compare_gt_iff_gt.mpr (lt_of_length_lt (by omega))).symm
  · rename_i lengths
    simp only [memcmp_numeral (not_not.mp lengths), numeral_inj]
    split
    · rename_i same
      rw [same, compare_eq_iff_eq.mpr rfl]
    · split
      · rename_i lt
        exact lt.symm
      · rename_i notLt
        rw [compare_lt_iff_lt] at notLt
        exact (compare_gt_iff_gt.mpr (by omega)).symm

theorem maxU64_eq : maxU64 = numeral (2 ^ 64 - 1) := by
  decide +kernel

theorem validU64_numeral : validU64 (numeral n) ↔ n < 2 ^ 64 := by
  simp only [validU64, canonical_numeral, Bool.true_and, Bool.or_eq_true, Bool.and_eq_true,
    decide_eq_true_eq, maxU64_eq, decimalCompare_numeral]
  constructor
  · rintro (shorter | ⟨_, le⟩)
    · have := lt_of_length_lt shorter
      omega
    · rw [Ordering.isLE_iff_ne_gt, compare_gt_iff_gt] at le
      omega
  · intro lt
    by_cases shorter : (numeral n).length < (numeral (2 ^ 64 - 1)).length
    · exact .inl shorter
    · refine .inr ⟨?_, ?_⟩
      · by_contra longer
        have : 2 ^ 64 - 1 < n := lt_of_length_lt (by omega)
        omega
      · rw [Ordering.isLE_iff_ne_gt, compare_gt_iff_gt]
        omega

theorem incrementDigits_zero (h : ∀ b ∈ digits, isDigit b) :
    incrementDigits digits 0 = (digits, 0) := by
  induction digits with
  | nil => rfl
  | cons b rest ih =>
    obtain ⟨head, tail⟩ := List.forall_mem_cons.mp h
    obtain ⟨d, lt, rfl⟩ := isDigit_iff.mp head
    have := toNat_digit lt
    rw [incrementDigits, if_neg (by omega), ih tail, Nat.add_zero, UInt8.ofNat_toNat]

theorem incrementDigits_nine : incrementDigits (digit 9 :: digits) 1 =
      (48 :: (incrementDigits digits 1).1, (incrementDigits digits 1).2) := by
  rw [incrementDigits, if_pos (by decide)]

theorem incrementDigits_lt {d : Nat} (h : ∀ b ∈ digits, isDigit b)
    (lt : d < 9) : incrementDigits (digit d :: digits) 1 = (digit (d + 1) :: digits, 0) := by
  have := toNat_digit (show d < 10 by omega)
  rw [incrementDigits, if_neg (by omega), incrementDigits_zero h, this]
  rfl

theorem decimalIncrement_numeral (n : Nat) : decimalIncrement (numeral n) = numeral (n + 1) := by
  induction n using Nat.strong_induction_on with
  | _ n ih =>
    by_cases small : n < 10
    · by_cases nine : n = 9
      · subst nine
        decide +kernel
      · rw [numeral_of_lt small, numeral_of_lt (by omega), decimalIncrement, List.reverse_singleton,
          incrementDigits_lt (by simp) (by omega)]
        simp
    · have shorter := ih (n / 10) (by omega)
      have digits : ∀ b ∈ (numeral (n / 10)).reverse, isDigit b := by
        intro b member
        exact numeral_digits (List.mem_reverse.mp member)
      rw [decimalIncrement] at shorter
      rw [numeral_of_le (by omega : 10 ≤ n), decimalIncrement, List.reverse_append,
        List.reverse_singleton, List.singleton_append, numeral_of_le (by omega : 10 ≤ n + 1)]
      by_cases nine : n % 10 = 9
      · have tenth : (n + 1) / 10 = n / 10 + 1 := by omega
        have last : (n + 1) % 10 = 0 := by omega
        rw [nine, incrementDigits_nine, tenth, last, ← shorter]
        dsimp only
        split <;> simp [digit]
      · have tenth : (n + 1) / 10 = n / 10 := by omega
        have last : (n + 1) % 10 = n % 10 + 1 := by omega
        rw [incrementDigits_lt digits (by omega), tenth, last]
        simp

end Decimals

end TurboDb.Redis
