import Mathlib.Data.Finset.Card
import Mathlib.Data.List.Destutter
import Mathlib.Data.List.Sort
import Mathlib.Order.Interval.Finset.Nat
import TurboDb.Library.Search

/-!
Runs of equal values.

Where the values of a range of indices never go down, equal ones stand together.
A run is the range of all indices with one value: it is found by stepping on from
its first index while the values agree.
-/

namespace Runs

open List

variable {α : Type} [LinearOrder α] {f : Nat → α} {first last start stop i j : Nat}

def Ascends (f : Nat → α) (first last : Nat) : Prop :=
  ∀ i j, first ≤ i → i ≤ j → j < last → f i ≤ f j

/-- Every value before `start` is less than those from there on. -/
def Starts (f : Nat → α) (first last start : Nat) : Prop :=
  ∀ j k, first ≤ j → j < start → start ≤ k → k < last → f j < f k

/-- The indices from `start` to before `stop` are all those with the value at `start`. -/
structure Run (f : Nat → α) (first last start stop : Nat) : Prop where
  low : first ≤ start
  some : start < stop
  high : stop ≤ last
  before : ∀ j, first ≤ j → j < start → f j < f start
  same : ∀ j, start ≤ j → j < stop → f j = f start
  behind : ∀ j, stop ≤ j → j < last → f start < f j

section Run

variable (run : Run f first last start stop) (lowI : start ≤ i) (highI : i < stop) (low : first ≤ j)
  (high : j < last)
include run lowI highI low high

theorem Run.mem_iff : start ≤ j ∧ j < stop ↔ f j = f i := by
  rw [run.same i lowI highI]
  constructor
  · rintro ⟨lowJ, highJ⟩
    exact run.same j lowJ highJ
  · intro same
    refine ⟨?_, ?_⟩
    · by_contra less
      exact absurd same (run.before j low (not_le.mp less)).ne
    · by_contra more
      exact absurd same (run.behind j (not_lt.mp more) high).ne'

theorem Run.lt_iff : f j < f i ↔ j < start := by
  rw [run.same i lowI highI]
  constructor
  · intro less
    by_contra more
    by_cases inside : j < stop
    · exact absurd (run.same j (not_lt.mp more) inside) less.ne
    · exact lt_asymm less (run.behind j (not_lt.mp inside) high)
  · exact run.before j low

end Run

theorem run_advance {holds : Nat → Bool} (ascends : Ascends f first last) (low : first ≤ start)
    (less : start < last) (starts : Starts f first last start)
    (holds_iff : ∀ j, start < j → j < last → (holds j ↔ f j = f start)) :
    Run f first last start (Search.advance holds last (last - (start + 1)) (start + 1)) := by
  obtain ⟨after, high, same, differs⟩ :=
    @Search.advance_spec holds last (last - (start + 1)) (start + 1) (by omega) le_rfl
  generalize Search.advance holds last (last - (start + 1)) (start + 1) = stop at *
  refine ⟨low, by omega, high, fun j lowJ highJ => starts j start lowJ highJ le_rfl less,
    fun j lowJ highJ => ?_, fun j lowJ highJ => ?_⟩
  · by_cases here : j = start
    · rw [here]
    · exact (holds_iff j (by omega) (by omega)).mp (same j (by omega) highJ)
  · have apart : f stop ≠ f start := fun equal => by
      have agrees := (holds_iff stop (by omega) (by omega)).mpr equal
      rw [differs (by omega)] at agrees
      cases agrees
    calc f start
        _ < f stop := lt_of_le_of_ne (ascends start stop low (by omega) (by omega)) apart.symm
        _ ≤ f j := ascends stop j (by omega) lowJ highJ

theorem Run.next (run : Run f first last start stop) : Starts f first last stop := by
  intro j k lowJ highJ lowK highK
  have behind := run.behind k lowK highK
  refine lt_of_le_of_lt ?_ behind
  by_cases inside : start ≤ j
  · exact (run.same j inside highJ).le
  · exact (run.before j lowJ (not_le.mp inside)).le

theorem starts_first (f : Nat → α) (first last : Nat) : Starts f first last first :=
  fun _ _ low high => absurd low (not_le.mpr high)

/-- The members of a range that satisfy a condition are a range, if it is one. -/
theorem filter_range {p : Nat → Bool} (low : first ≤ start) (high : stop ≤ last)
    (is : ∀ j, first ≤ j → j < last → (p j ↔ start ≤ j ∧ j < stop)) :
    (range' first (last - first)).filter p = range' start (stop - start) := by
  have ascends (a n : Nat) : (range' a n).Pairwise (· < ·) := pairwise_lt_range'
  refine List.Pairwise.eq_of_mem_iff ((ascends _ _).filter p) (ascends _ _) fun j => ?_
  rw [mem_filter, mem_range'_1, mem_range'_1]
  constructor
  · rintro ⟨⟨lowJ, highJ⟩, holds⟩
    obtain ⟨lowRun, highRun⟩ := (is j lowJ (by omega)).mp holds
    omega
  · rintro ⟨lowJ, highJ⟩
    exact ⟨by omega, (is j (by omega) (by omega)).mpr (by omega)⟩

theorem range_split (low : first ≤ start) (high : start ≤ last) :
    range' first (last - first) =
      range' first (start - first) ++ range' start (last - start) := by
  have joined := range'_append_1 (s := first) (m := start - first) (n := last - start)
  rw [show first + (start - first) = start by omega,
    show start - first + (last - start) = last - first by omega] at joined
  exact joined.symm

def distinct {β : Type} [DecidableEq β] (f : Nat → β) (first count : Nat) : Nat :=
  ((range' first count).map f).toFinset.card

theorem distinct_le {β : Type} [DecidableEq β] (f : Nat → β) (first count : Nat) :
    distinct f first count ≤ count := by
  refine (toFinset_card_le _).trans ?_
  rw [length_map, length_range']

theorem Run.distinct [DecidableEq α] (run : Run f first last start stop) :
    distinct f first (stop - first) = distinct f first (start - first) + 1 := by
  have some := run.some
  have split := range_split run.low run.some.le
  have only : ((range' start (stop - start)).map f).toFinset = {f start} := by
    ext value
    rw [mem_toFinset, mem_map, Finset.mem_singleton]
    constructor
    · rintro ⟨j, isIndex, rfl⟩
      obtain ⟨lowJ, highJ⟩ := mem_range'_1.mp isIndex
      exact run.same j lowJ (by omega)
    · rintro rfl
      exact ⟨start, mem_range'_1.mpr (by omega), rfl⟩
  have new : f start ∉ ((range' first (start - first)).map f).toFinset := by
    rw [mem_toFinset, mem_map]
    rintro ⟨j, isIndex, same⟩
    obtain ⟨lowJ, highJ⟩ := mem_range'_1.mp isIndex
    exact absurd same (run.before j lowJ (by omega)).ne
  rw [Runs.distinct, Runs.distinct, split, map_append, toFinset_append, only,
    Finset.union_comm, Finset.singleton_union, Finset.card_insert_of_notMem new]

section Destutter

variable {β : Type} {g : β → α} {R : β → β → Prop} [DecidableRel R] {a : β} {l : List β}

/-- One element of every run of a sorted list is kept, the first. -/
theorem destutter'_spec (sorted : (a :: l).Pairwise fun x y => g x ≤ g y)
    (differ : ∀ x ∈ a :: l, ∀ y ∈ a :: l, R x y ↔ g x ≠ g y) :
    (l.destutter' R a).Pairwise (fun x y => g x < g y) ∧
      ∀ x ∈ a :: l, ∃ y ∈ l.destutter' R a, g y = g x := by
  induction l generalizing a with
  | nil => simp
  | cons h t ih =>
    obtain ⟨above, later⟩ := pairwise_cons.mp sorted
    have first := above h mem_cons_self
    by_cases new : R a h
    · have less : g a < g h := lt_of_le_of_ne first
        ((differ a mem_cons_self h (mem_cons_of_mem _ mem_cons_self)).mp new)
      obtain ⟨pairwise, covers⟩ := ih later fun x isX y isY =>
        differ x (mem_cons_of_mem _ isX) y (mem_cons_of_mem _ isY)
      rw [destutter'_cons_pos _ new]
      constructor
      · refine pairwise_cons.mpr ⟨fun y isY => ?_, pairwise⟩
        have isOne := (destutter'_sublist t R h).subset isY
        rcases mem_cons.mp isOne with rfl | isRest
        · exact less
        · exact less.trans_le ((pairwise_cons.mp later).1 y isRest)
      · intro x isX
        rcases mem_cons.mp isX with rfl | isX
        · exact ⟨x, mem_cons_self, rfl⟩
        · obtain ⟨y, isY, same⟩ := covers x isX
          exact ⟨y, mem_cons_of_mem _ isY, same⟩
    · have same : g a = g h := by
        by_contra other
        exact new ((differ a mem_cons_self h
          (mem_cons_of_mem _ mem_cons_self)).mpr other)
      have without : (a :: t).Sublist (a :: h :: t) := (sublist_cons_self h t).cons_cons a
      obtain ⟨pairwise, covers⟩ := ih (sorted.sublist without) fun x isX y isY =>
        differ x (without.subset isX) y (without.subset isY)
      rw [destutter'_cons_neg _ new]
      refine ⟨pairwise, fun x isX => ?_⟩
      rcases mem_cons.mp isX with rfl | isX
      · exact covers x mem_cons_self
      rcases mem_cons.mp isX with rfl | isX
      · exact same ▸ covers a mem_cons_self
      · exact covers x (mem_cons_of_mem _ isX)

theorem destutter_spec (sorted : l.Pairwise fun x y => g x ≤ g y)
    (differ : ∀ x ∈ l, ∀ y ∈ l, R x y ↔ g x ≠ g y) :
    (l.destutter R).Pairwise (fun x y => g x < g y) ∧
      ∀ x ∈ l, ∃ y ∈ l.destutter R, g y = g x := by
  cases l with
  | nil => simp
  | cons a l => exact destutter'_spec sorted differ

end Destutter

end Runs
