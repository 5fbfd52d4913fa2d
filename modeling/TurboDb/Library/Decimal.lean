import Mathlib.Data.List.Induction
import TurboDb.Library.ByteOrder

/-!
Decimal numerals as byte strings.

A numeral has no leading zero, so it is determined by its value: the strings of
digits that do not begin with a zero, and the single zero, are the numerals. Longer
numerals are larger numbers; of one length, the byte order is that of the numbers.
-/

namespace Decimal

open ByteOrder

/-- The bytes of a string of plain characters. -/
def ascii (s : String) : Bytes := s.toList.map Char.toUInt8

def digit (d : Nat) : UInt8 := UInt8.ofNat (48 + d)

def isDigit (b : UInt8) : Bool := 48 ≤ b && b ≤ 57

/-- The numeral of a number, most significant digit first. -/
def numeral (n : Nat) : Bytes := (Nat.toDigits 10 n).map Char.toUInt8

def value (s : Bytes) : Nat := s.foldl (fun v b => 10 * v + (b.toNat - 48)) 0

/-- Digits without a leading zero, or zero itself. -/
def canonical : Bytes → Bool
  | [] => false
  | [b] => isDigit b
  | b :: rest => isDigit b && b ≠ 48 && rest.all isDigit

variable {m n d : Nat}

theorem toNat_digit (h : d < 10) : (digit d).toNat = 48 + d := by
  rw [digit, UInt8.toNat_ofNat']
  omega

theorem isDigit_iff {b : UInt8} : isDigit b ↔ ∃ d < 10, b = digit d := by
  simp only [isDigit, Bool.and_eq_true, decide_eq_true_eq, UInt8.le_iff_toNat_le]
  constructor
  · rintro ⟨low, high⟩
    change 48 ≤ b.toNat at low
    change b.toNat ≤ 57 at high
    refine ⟨b.toNat - 48, by omega, UInt8.toNat_inj.mp ?_⟩
    rw [toNat_digit (by omega)]
    omega
  · rintro ⟨d, lt, rfl⟩
    rw [toNat_digit lt]
    change 48 ≤ 48 + d ∧ 48 + d ≤ 57
    omega

private theorem toUInt8_digitChar (h : d < 10) : d.digitChar.toUInt8 = digit d := by
  decide +revert

theorem numeral_of_lt (h : n < 10) : numeral n = [digit n] := by
  rw [numeral, Nat.toDigits_of_lt_base h, List.map_singleton, toUInt8_digitChar h]

theorem numeral_of_le (h : 10 ≤ n) : numeral n = numeral (n / 10) ++ [digit (n % 10)] := by
  rw [numeral, Nat.toDigits_of_base_le (by decide) h, List.map_append, List.map_singleton,
    toUInt8_digitChar (Nat.mod_lt n (by decide)), ← numeral]

theorem numeral_ne_nil : numeral n ≠ [] := by
  simp [numeral, Nat.toDigits_ne_nil]

theorem value_append (s : Bytes) (b : UInt8) : value (s ++ [b]) = 10 * value s + (b.toNat - 48) := by
  simp [value, List.foldl_append]

@[simp] theorem value_numeral (n : Nat) : value (numeral n) = n := by
  induction n using Nat.strong_induction_on with
  | _ n ih =>
    by_cases small : n < 10
    · have := toNat_digit small
      simp [numeral_of_lt small, value, this]
    · have last := toNat_digit (Nat.mod_lt n (by decide : 10 > 0))
      rw [numeral_of_le (by omega), value_append, ih (n / 10) (by omega), last]
      omega

theorem numeral_injective : Function.Injective numeral := by
  intro m n same
  rw [← value_numeral m, same, value_numeral]

@[simp] theorem numeral_inj : numeral m = numeral n ↔ m = n := numeral_injective.eq_iff

theorem numeral_digits {b : UInt8} (h : b ∈ numeral n) : isDigit b := by
  induction n using Nat.strong_induction_on with
  | _ n ih =>
    by_cases small : n < 10
    · rw [numeral_of_lt small, List.mem_singleton] at h
      exact isDigit_iff.mpr ⟨n, small, h⟩
    · rw [numeral_of_le (by omega), List.mem_append, List.mem_singleton] at h
      cases h with
      | inl h => exact ih (n / 10) (by omega) h
      | inr h => exact isDigit_iff.mpr ⟨n % 10, Nat.mod_lt n (by decide), h⟩

theorem ne_of_mem_numeral {c : UInt8} (other : isDigit c = false) :
    ∀ b ∈ numeral n, decide (b ≠ c) := by
  intro b member
  refine decide_eq_true ?_
  rintro rfl
  simp [numeral_digits member] at other

theorem canonical_append {s : Bytes} {b : UInt8} (h : s ≠ []) :
    canonical (s ++ [b]) ↔ canonical s ∧ s ≠ [48] ∧ isDigit b := by
  match s, h with
  | [a], _ =>
    simp [canonical, isDigit, and_assoc]
  | a :: c :: rest, _ =>
    simp [canonical, and_assoc]

theorem canonical_numeral (n : Nat) : canonical (numeral n) := by
  induction n using Nat.strong_induction_on with
  | _ n ih =>
    by_cases small : n < 10
    · rw [numeral_of_lt small]
      exact isDigit_iff.mpr ⟨n, small, rfl⟩
    · rw [numeral_of_le (by omega), canonical_append numeral_ne_nil]
      refine ⟨ih (n / 10) (by omega), fun same => ?_,
        isDigit_iff.mpr ⟨n % 10, Nat.mod_lt n (by decide), rfl⟩⟩
      have zero := congrArg value same
      rw [value_numeral] at zero
      change n / 10 = 0 at zero
      omega

theorem canonical_iff {s : Bytes} : canonical s ↔ s = numeral (value s) := by
  refine ⟨fun h => ?_, fun h => h ▸ canonical_numeral _⟩
  induction s using List.reverseRecOn with
  | nil => cases h
  | append_singleton s b ih =>
    by_cases single : s = []
    · subst single
      obtain ⟨d, lt, rfl⟩ := isDigit_iff.mp h
      have := toNat_digit lt
      simp [value, this, numeral_of_lt lt]
    · obtain ⟨canonical, positive, last⟩ := (canonical_append single).mp h
      obtain ⟨d, lt, rfl⟩ := isDigit_iff.mp last
      have shorter := ih canonical
      have := toNat_digit lt
      have nonzero : value s ≠ 0 := by
        intro zero
        rw [zero] at shorter
        exact positive shorter
      rw [value_append, this, numeral_of_le (by omega)]
      have tenth : (10 * value s + (48 + d - 48)) / 10 = value s := by omega
      have rest : (10 * value s + (48 + d - 48)) % 10 = d := by omega
      rw [tenth, rest, ← shorter]

theorem length_numeral_le_iff {k : Nat} (h : 0 < k) : (numeral n).length ≤ k ↔ n < 10 ^ k := by
  rw [numeral, List.length_map, Nat.length_toDigits_le_iff (by decide) h]

theorem lt_of_length_lt (h : (numeral m).length < (numeral n).length) : m < n := by
  have positive : 0 < (numeral m).length := List.length_pos_iff.mpr numeral_ne_nil
  have below := (length_numeral_le_iff positive).mp (Nat.le_refl (numeral m).length)
  have above : ¬ n < 10 ^ (numeral m).length := by
    rw [← length_numeral_le_iff positive]
    omega
  omega

private theorem compare_digits : ∀ m < 10, ∀ n < 10, compare (digit m) (digit n) = compare m n := by
  decide

theorem memcmp_numeral (h : (numeral m).length = (numeral n).length) :
    memcmp (numeral m) (numeral n) = compare m n := by
  induction m using Nat.strong_induction_on generalizing n with
  | _ m ih =>
    have same : m < 10 ↔ n < 10 := by
      have one := length_numeral_le_iff (n := m) (k := 1) (by decide)
      have one' := length_numeral_le_iff (n := n) (k := 1) (by decide)
      rw [pow_one] at one one'
      rw [← one, ← one', h]
    by_cases small : m < 10
    · rw [numeral_of_lt small, numeral_of_lt (same.mp small)]
      simp [memcmp, compare_digits m small n (same.mp small)]
    · have large : 10 ≤ n := by omega
      rw [numeral_of_le (by omega), numeral_of_le large] at h ⊢
      have shorter : (numeral (m / 10)).length = (numeral (n / 10)).length := by
        simpa using h
      rw [memcmp_append shorter, ih (m / 10) (by omega) shorter]
      have last := compare_digits (m % 10) (Nat.mod_lt m (by decide)) (n % 10)
        (Nat.mod_lt n (by decide))
      simp only [memcmp, last, Ordering.then_eq, Nat.compare_eq_ite_lt]
      split_ifs <;> first | rfl | omega

end Decimal
