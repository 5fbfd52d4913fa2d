import Mathlib.Data.List.Sort
import Mathlib.Order.Interval.Set.Basic
import Mathlib.Order.MinMax

/-!
Half-open ranges of a linear order.

Ranges are taken by their lower bounds, and one that meets the last of those
before it is joined with it. What is left lies apart and has the same points, also
for ranges that are not proper.
-/

namespace Ranges

open List

structure HalfOpen (α : Type) where
  lower : α
  upper : α
  deriving DecidableEq

variable {α : Type} [LinearOrder α] {P : α → Prop} {ranges nexts : List (HalfOpen α)}
  {next : HalfOpen α}

/-- The ranges so far, the last one first, with one more. -/
def join : List (HalfOpen α) → HalfOpen α → List (HalfOpen α)
  | [], next => [next]
  | last :: before, next =>
    if next.lower ≤ last.upper then { last with upper := max last.upper next.upper } :: before
    else next :: last :: before

def Covers (ranges : List (HalfOpen α)) (x : α) : Prop := ∃ r ∈ ranges, x ∈ Set.Ico r.lower r.upper

/-- Each range lies behind those after it in the list, and has one of the upper bounds allowed. -/
structure Joined (P : α → Prop) (ranges : List (HalfOpen α)) : Prop where
  sorted : ranges.Pairwise (·.lower ≥ ·.lower)
  apart : ranges.Pairwise (·.lower > ·.upper)
  bounds : ∀ r ∈ ranges, P r.upper

theorem Joined.join (joined : Joined P ranges) (behind : ∀ r ∈ ranges, r.lower ≤ next.lower)
    (bound : P next.upper) : Joined P (join ranges next) := by
  cases ranges with
  | nil => exact ⟨pairwise_singleton .., pairwise_singleton .., by simpa [Ranges.join]⟩
  | cons last before =>
    obtain ⟨sorted, apart, bounds⟩ := joined
    rw [pairwise_cons] at sorted apart
    rw [forall_mem_cons] at bounds
    rw [Ranges.join]
    split_ifs with meets
    · refine ⟨pairwise_cons.mpr sorted, pairwise_cons.mpr apart, forall_mem_cons.mpr ⟨?_, bounds.2⟩⟩
      exact max_rec' P bounds.1 bound
    · refine ⟨?_, ?_, forall_mem_cons.mpr ⟨bound, forall_mem_cons.mpr bounds⟩⟩
      · exact pairwise_cons.mpr ⟨behind, pairwise_cons.mpr sorted⟩
      · refine pairwise_cons.mpr ⟨forall_mem_cons.mpr ⟨not_le.mp meets, fun r isR => ?_⟩,
          pairwise_cons.mpr apart⟩
        exact (apart.1 r isR).trans_le (behind last mem_cons_self)

theorem covers_join {x : α} (behind : ∀ r ∈ ranges, r.lower ≤ next.lower) :
    Covers (join ranges next) x ↔ Covers ranges x ∨ x ∈ Set.Ico next.lower next.upper := by
  cases ranges with
  | nil => simp [join, Covers]
  | cons last before =>
    have low := behind last mem_cons_self
    rw [join]
    split_ifs with meets
    · have both : x ∈ Set.Ico last.lower (max last.upper next.upper) ↔
          x ∈ Set.Ico last.lower last.upper ∨ x ∈ Set.Ico next.lower next.upper := by
        simp only [Set.mem_Ico, lt_max_iff]
        constructor
        · rintro ⟨lower, inside | inside⟩
          · exact .inl ⟨lower, inside⟩
          · exact (lt_or_ge x last.upper).imp (⟨lower, ·⟩) fun past => ⟨meets.trans past, inside⟩
        · rintro (⟨lower, inside⟩ | ⟨lower, inside⟩)
          · exact ⟨lower, .inl inside⟩
          · exact ⟨low.trans lower, .inr inside⟩
      simp only [Covers, exists_mem_cons_iff, both, or_right_comm]
    · simp only [Covers, exists_mem_cons_iff, or_comm]

theorem lower_join (behind : ∀ r ∈ ranges, r.lower ≤ next.lower) :
    ∀ r ∈ join ranges next, r.lower ≤ next.lower := by
  cases ranges with
  | nil => simp [join]
  | cons last before =>
    rw [forall_mem_cons] at behind
    rw [join]
    split_ifs
    · exact forall_mem_cons.mpr behind
    · exact forall_mem_cons.mpr ⟨le_rfl, forall_mem_cons.mpr behind⟩

theorem foldl_join (sorted : nexts.Pairwise (·.lower ≤ ·.lower)) (joined : Joined P ranges)
    (behind : ∀ next ∈ nexts, ∀ r ∈ ranges, r.lower ≤ next.lower)
    (bounds : ∀ next ∈ nexts, P next.upper) :
    Joined P (nexts.foldl join ranges) ∧
      ∀ x, Covers (nexts.foldl join ranges) x ↔ Covers ranges x ∨ Covers nexts x := by
  induction nexts generalizing ranges with
  | nil => exact ⟨joined, by simp [Covers]⟩
  | cons next nexts ih =>
    rw [pairwise_cons] at sorted
    rw [forall_mem_cons] at behind bounds
    obtain ⟨done, covers⟩ := ih sorted.2 (joined.join behind.1 bounds.1)
      (fun later isLater r isR =>
        (lower_join behind.1 r isR).trans (sorted.1 later isLater)) bounds.2
    refine ⟨done, fun x => (covers x).trans ?_⟩
    rw [covers_join behind.1, or_assoc]
    simp only [Covers, exists_mem_cons_iff]

end Ranges
