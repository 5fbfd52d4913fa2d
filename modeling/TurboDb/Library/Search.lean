import Mathlib.Logic.Basic

/-!
Search for a boundary.

The search looks for the first index of a range at which a condition fails: one
step after the other, or by halving, which is right for a condition that fails
from there on.
-/

namespace Search

/-- The stepping loop, with one unit of fuel for every index it may pass. -/
def advance (holds : Nat → Bool) (last : Nat) : Nat → Nat → Nat
  | 0, i => i
  | fuel + 1, i => if i < last ∧ holds i then advance holds last fuel (i + 1) else i

theorem advance_spec {holds : Nat → Bool} {last fuel i : Nat} (le : i ≤ last)
    (enough : last - i ≤ fuel) :
    i ≤ advance holds last fuel i ∧ advance holds last fuel i ≤ last ∧
      (∀ j, i ≤ j → j < advance holds last fuel i → holds j) ∧
      (advance holds last fuel i < last → holds (advance holds last fuel i) = false) := by
  induction fuel generalizing i with
  | zero =>
    rw [advance]
    exact ⟨Nat.le_refl _, le, fun j low high => by omega, fun less => by omega⟩
  | succ fuel ih =>
    rw [advance]
    by_cases goesOn : i < last ∧ holds i = true
    · rw [if_pos goesOn]
      obtain ⟨low, high, below, stop⟩ := ih (i := i + 1) (by omega) (by omega)
      refine ⟨by omega, high, fun j lowJ highJ => ?_, stop⟩
      by_cases here : j = i
      · rw [here]
        exact goesOn.2
      · exact below j (by omega) highJ
    · rw [if_neg goesOn]
      refine ⟨Nat.le_refl _, le, fun j low high => by omega, fun less => ?_⟩
      cases stays : holds i with
      | false => rfl
      | true => exact absurd ⟨less, stays⟩ goesOn

def middle (first last : Nat) : Nat := first + (last - first) / 2

/-- The halving loop, with one unit of fuel for every index it may discard. -/
def halve (before : Nat → Bool) : Nat → Nat → Nat → Nat
  | 0, first, _ => first
  | fuel + 1, first, last =>
    if first < last then
      if before (middle first last) then halve before fuel (middle first last + 1) last
      else halve before fuel first (middle first last)
    else first

/-- The first index below `last` where `before` fails, or `last`. -/
def lowerBound (before : Nat → Bool) (last : Nat) : Nat := halve before last 0 last

/-- The condition is closed under going back, but not to before `first`. -/
def MonotoneFrom (before : Nat → Bool) (first last : Nat) : Prop :=
  ∀ i j, first ≤ i → i ≤ j → j < last → before j = true → before i = true

variable {before : Nat → Bool}

theorem halve_spec {fuel first last : Nat} (mono : MonotoneFrom before first last) (le : first ≤ last)
    (enough : last - first ≤ fuel) :
    first ≤ halve before fuel first last ∧ halve before fuel first last ≤ last ∧
      (∀ i, first ≤ i → i < halve before fuel first last → before i) ∧
      ∀ i, halve before fuel first last ≤ i → i < last → before i = false := by
  induction fuel generalizing first last with
  | zero =>
    rw [halve]
    exact ⟨Nat.le_refl _, le, fun i hi hlt => by omega, fun i hi hlt => by omega⟩
  | succ fuel ih =>
    rw [halve]
    by_cases less : first < last
    · rw [if_pos less]
      generalize hmid : middle first last = mid
      rw [middle] at hmid
      cases holds : before mid with
      | true =>
        have mono' : MonotoneFrom before (mid + 1) last :=
          fun i j hi => mono i j (by omega)
        obtain ⟨low, high, below, above⟩ :=
          ih mono' (show mid + 1 ≤ last by omega) (by omega)
        rw [if_pos rfl]
        refine ⟨by omega, high, ?_, above⟩
        intro i hi hlt
        by_cases past : mid + 1 ≤ i
        · exact below i past hlt
        · exact mono i mid hi (by omega) (by omega) holds
      | false =>
        have mono' : MonotoneFrom before first mid :=
          fun i j hi hij hj => mono i j hi hij (by omega)
        obtain ⟨low, high, below, above⟩ :=
          ih mono' (show first ≤ mid by omega) (by omega)
        rw [if_neg Bool.false_ne_true]
        refine ⟨low, by omega, below, ?_⟩
        intro i hi hlt
        by_cases past : mid ≤ i
        · cases hb : before i with
          | false => rfl
          | true => exact absurd (mono mid i (by omega) past hlt hb) (by simp [holds])
        · exact above i hi (by omega)
    · rw [if_neg less]
      exact ⟨Nat.le_refl _, le, fun i hi hlt => by omega, fun i hi hlt => by omega⟩

end Search
