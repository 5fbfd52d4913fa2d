import TurboDb.Library.Spread
import TurboDb.Query.Window

/-!
The buckets of NTILE.

The rows of a partition are spread over as many buckets as are asked for, but
not more than there are rows. The words that the operator computes with are never
beyond that number, so its bucket is the part that the spread has the row in.
-/

namespace TurboDb.Query

open Spread UInt64

variable {ordinal count buckets : UInt64}

def usedBuckets (count buckets : UInt64) : Nat := min buckets.toNat count.toNat

def bucketSize (count buckets : UInt64) (bucket : ℤ) : Nat :=
  ((Finset.range count.toNat).filter fun i =>
    (windowBucket (.ofNat i) count buckets).toInt = bucket).card

theorem windowBucket_larger (some : count % buckets ≠ 0) :
    (count / buckets + 1).toNat = count.toNat / buckets.toNat + 1 := by
  have remainder : 0 < count.toNat % buckets.toNat := by
    exact Nat.pos_of_ne_zero fun none => some (UInt64.toNat_inj.mp none)
  refine Nat.mod_eq_of_lt ?_
  calc count.toNat / buckets.toNat + 1
      _ ≤ cutoff count.toNat buckets.toNat := Nat.le_mul_of_pos_right _ remainder
      _ ≤ count.toNat := cutoff_le count.toNat buckets.toNat
      _ < 2 ^ 64 := count.toNat_lt

theorem windowBucket_cutoff (some : count % buckets ≠ 0) :
    ((count / buckets + 1) * (count % buckets)).toNat = Spread.cutoff count.toNat buckets.toNat := by
  rw [UInt64.toNat_mul, UInt64.toNat_mod, windowBucket_larger some]
  exact Nat.mod_eq_of_lt (lt_of_le_of_lt (cutoff_le _ _) count.toNat_lt)

theorem toInt_toInt64 {word : UInt64} (small : word.toNat < 2 ^ 63) :
    word.toInt64.toInt = word.toNat := by
  have int := BitVec.toInt_eq_toNat_cond word.toInt64.toBitVec
  have nat : word.toInt64.toBitVec.toNat = word.toNat := rfl
  rw [nat, if_pos (by omega)] at int
  exact int

/-- The word that a bucket is computed in, when there are more rows than buckets. -/
theorem windowBucket_word (few : buckets.toNat < 2 ^ 63) (pos : 0 < buckets.toNat)
    (fewer : buckets.toNat < count.toNat) (inside : ordinal.toNat < count.toNat) {cut : UInt64}
    (isCut : cut = if count % buckets ≠ 0 then (count / buckets + 1) * (count % buckets) else 0) :
    (if ordinal < cut then ordinal / (count / buckets + 1) + 1
      else count % buckets + (ordinal - cut) / (count / buckets) + 1).toNat =
      part count.toNat buckets.toNat ordinal.toNat + 1 := by
  have one : (1 : UInt64).toNat = 1 := rfl
  have cutoff : cut.toNat = cutoff count.toNat buckets.toNat := by
    rw [isCut]
    split_ifs with some
    · exact windowBucket_cutoff some
    · have none : count.toNat % buckets.toNat = 0 := by
        rw [← UInt64.toNat_mod, not_not.mp some]
        rfl
      rw [cutoff, none, Nat.mul_zero]
      rfl
  have least := part_lt fewer.le pos inside
  rw [part, ← cutoff] at least ⊢
  by_cases larger : ordinal < cut
  · have larger' := lt_iff_toNat_lt.mp larger
    have some : count % buckets ≠ 0 := by
      rintro none
      rw [isCut, if_neg (not_not.mpr none)] at larger'
      exact absurd larger' (Nat.not_lt_zero _)
    rw [if_pos larger'] at least ⊢
    rw [if_pos larger, UInt64.toNat_add, UInt64.toNat_div, windowBucket_larger some, one]
    exact Nat.mod_eq_of_lt (by omega)
  · have larger' : ¬ordinal.toNat < cut.toNat := fun less => larger (lt_iff_toNat_lt.mpr less)
    rw [if_neg larger'] at least ⊢
    rw [if_neg larger, UInt64.toNat_add, UInt64.toNat_add, UInt64.toNat_div, UInt64.toNat_div,
      UInt64.toNat_mod, UInt64.toNat_sub_of_le _ _ (UInt64.le_iff_toNat_le.mpr (not_lt.mp larger')), one]
    generalize count.toNat % buckets.toNat + _ = bucket at least ⊢
    omega

theorem windowBucket_eq (few : usedBuckets count buckets < 2 ^ 63) (pos : 0 < buckets)
    (inside : ordinal < count) :
    (windowBucket ordinal count buckets).toInt =
      part count.toNat (usedBuckets count buckets) ordinal.toNat + 1 := by
  rw [lt_iff_toNat_lt] at inside pos
  have used : 0 < usedBuckets count buckets := lt_min pos (Nat.zero_lt_of_lt inside)
  have least := part_lt (Nat.min_le_right _ _) used inside
  unfold windowBucket
  split_ifs with many
  · have all : usedBuckets count buckets = count.toNat :=
      Nat.min_eq_right (le_iff_toNat_le.mp many)
    have next : (ordinal + 1).toNat = ordinal.toNat + 1 := by
      exact Nat.mod_eq_of_lt (show ordinal.toNat + 1 < 2 ^ 64 by omega)
    have bucket : (ordinal + 1).toInt64.toInt = (ordinal + 1).toNat := toInt_toInt64 (by omega)
    rw [next] at bucket
    rw [all, part_self inside]
    exact bucket
  · have fewer : buckets.toNat < count.toNat := not_le.mp fun le => many (le_iff_toNat_le.mpr le)
    have isUsed : usedBuckets count buckets = buckets.toNat := Nat.min_eq_left fewer.le
    rw [isUsed] at few ⊢
    rw [Nat.min_eq_left fewer.le] at least
    have bucket := windowBucket_word few pos fewer inside rfl
    rw [toInt_toInt64 (by omega), bucket]
    rfl

theorem bucketSize_eq (few : usedBuckets count buckets < 2 ^ 63) (pos : 0 < buckets) {k : Nat}
    (isBucket : k < usedBuckets count buckets) :
    bucketSize count buckets (k + 1) = size count.toNat (usedBuckets count buckets) k := by
  have used : 0 < usedBuckets count buckets := Nat.zero_lt_of_lt isBucket
  have fits : usedBuckets count buckets ≤ count.toNat := Nat.min_le_right _ _
  rw [← card_part fits used isBucket, bucketSize]
  congr 1
  refine Finset.filter_congr fun i isRow => ?_
  have inside := Finset.mem_range.mp isRow
  have isOrdinal : (ofNat i).toNat = i := by
    exact Nat.mod_eq_of_lt (inside.trans count.toNat_lt)
  have less : ofNat i < count := lt_iff_toNat_lt.mpr (isOrdinal.trans_lt inside)
  rw [windowBucket_eq few pos less, isOrdinal]
  omega

/-- The rows of a partition are spread over the buckets from the first on, evenly and the larger
buckets first; an operator has fewer than `2 ^ 63` rows, and so many buckets that have rows. -/
theorem windowBucket_spread (few : usedBuckets count buckets < 2 ^ 63) (pos : 0 < buckets) :
    (∀ i j, i ≤ j → j < count →
      (windowBucket i count buckets).toInt ≤ (windowBucket j count buckets).toInt) ∧
    (0 < count → windowBucket 0 count buckets = 1) ∧
    (∀ k : ℤ, (∃ i, i < count ∧ (windowBucket i count buckets).toInt = k) ↔
      1 ≤ k ∧ k ≤ (min buckets.toNat count.toNat : Nat)) ∧
    (∀ k l : ℤ, 1 ≤ k → k ≤ l → l ≤ (min buckets.toNat count.toNat : Nat) →
      bucketSize count buckets l ≤ bucketSize count buckets k ∧
        bucketSize count buckets k ≤ bucketSize count buckets l + 1) ∧
    (count % buckets ≠ 0 → ((count / buckets + 1) * (count % buckets)).toNat =
      (count.toNat / buckets.toNat + 1) * (count.toNat % buckets.toNat)) := by
  have fits : usedBuckets count buckets ≤ count.toNat := Nat.min_le_right _ _
  have pos' : 0 < buckets.toNat := lt_iff_toNat_lt.mp pos
  have used {i : UInt64} (inside : i < count) : 0 < usedBuckets count buckets :=
    lt_min pos' (Nat.zero_lt_of_lt (lt_iff_toNat_lt.mp inside))
  refine ⟨fun i j le inside => ?_, fun some => ?_, fun k => ⟨?_, ?_⟩, fun k l low le high => ?_,
    windowBucket_cutoff⟩
  · rw [windowBucket_eq few pos (UInt64.lt_of_le_of_lt le inside), windowBucket_eq few pos inside]
    have mono := part_mono fits (used inside) (le_iff_toNat_le.mp le)
    omega
  · have first := part_start fits (used some) 0
    rw [start_zero] at first
    rw [← Int64.toInt_inj, windowBucket_eq few pos some]
    exact congrArg (fun k : Nat => (k : ℤ) + 1) first
  · rintro ⟨i, inside, rfl⟩
    rw [windowBucket_eq few pos inside]
    have less := part_lt fits (used inside) (lt_iff_toNat_lt.mp inside)
    rw [usedBuckets] at less ⊢
    omega
  · rintro ⟨low, high⟩
    obtain ⟨k, rfl⟩ : ∃ k' : Nat, k = k' + 1 := ⟨(k - 1).toNat, by omega⟩
    have isBucket : k < usedBuckets count buckets := by
      rw [usedBuckets]
      omega
    have some := Nat.zero_lt_of_lt isBucket
    have inside := start_lt fits some isBucket
    obtain ⟨i, isI⟩ : ∃ i : UInt64, i.toNat = start count.toNat (usedBuckets count buckets) k :=
      ⟨.ofNat _, (toNat_ofNat' ..).trans (Nat.mod_eq_of_lt (inside.trans count.toNat_lt))⟩
    have less : i < count := lt_iff_toNat_lt.mpr (isI.trans_lt inside)
    refine ⟨i, less, ?_⟩
    rw [windowBucket_eq few pos less, isI, part_start fits some]
  · obtain ⟨k, rfl⟩ : ∃ k' : Nat, k = k' + 1 := ⟨(k - 1).toNat, by omega⟩
    obtain ⟨l, rfl⟩ : ∃ l' : Nat, l = l' + 1 := ⟨(l - 1).toNat, by omega⟩
    have isL : l < usedBuckets count buckets := by
      rw [usedBuckets]
      omega
    rw [bucketSize_eq few pos isL, bucketSize_eq few pos (by omega), Spread.size, Spread.size]
    split_ifs <;> omega

theorem windowBucket_spread_five :
    usedBuckets 5 2 < 2 ^ 63 ∧ bucketSize 5 2 2 ≤ bucketSize 5 2 1 :=
  ⟨by decide, ((windowBucket_spread (by decide) (by decide)).2.2.2.1 1 2 (by decide) (by decide)
    (by decide)).1⟩

end TurboDb.Query
