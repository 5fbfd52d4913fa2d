import Mathlib.Data.List.Basic

/-!
Patterns with wildcards, matched while remembering only the last of them.

A pattern is a list of tokens, each a test of one symbol or a wildcard for any
run of symbols. A matcher keeps the pattern behind the last wildcard and the text
where it stands, and after a mismatch lets it take one symbol more. Earlier
wildcards are forgotten: whatever a longer run of theirs would leave, the last one
can skip as well.
-/

namespace Wildcard

inductive Token (τ : Type)
  | many
  | one (test : τ)

variable {τ α : Type} (accepts : τ → α → Prop)

/-- The text can be split to fit the pattern. -/
inductive Fits : List (Token τ) → List α → Prop
  | nil : Fits [] []
  | many {pattern : List (Token τ)} {text : List α} (skipped : List α) :
      Fits pattern text → Fits (.many :: pattern) (skipped ++ text)
  | one {test : τ} {a : α} {pattern : List (Token τ)} {text : List α} :
      accepts test a → Fits pattern text → Fits (.one test :: pattern) (a :: text)

variable {accepts} {test : τ} {a : α} {pattern cursor : List (Token τ)} {text input : List α}

theorem fits_nil : Fits accepts [] text ↔ text = [] :=
  ⟨fun fits => by cases fits; rfl, fun empty => empty ▸ .nil⟩

theorem fits_one : Fits accepts (.one test :: pattern) (a :: text) ↔
    accepts test a ∧ Fits accepts pattern text :=
  ⟨fun fits => by cases fits with | one accepted rest => exact ⟨accepted, rest⟩,
    fun fits => .one fits.1 fits.2⟩

theorem fits_many : Fits accepts (.many :: pattern) text ↔
    ∃ rest, rest <:+ text ∧ Fits accepts pattern rest := by
  constructor
  · intro fits
    cases fits with
    | many skipped fits => exact ⟨_, List.suffix_append .., fits⟩
  · rintro ⟨rest, ⟨skipped, rfl⟩, fits⟩
    exact .many skipped fits

theorem Fits.drop {tests : List τ} (fits : Fits accepts (tests.map .one ++ pattern) text) :
    Fits accepts pattern (text.drop tests.length) := by
  induction tests generalizing text with
  | nil => exact fits
  | cons test tests ih =>
    cases fits with
    | one _ fits => exact ih fits

/-- The pattern behind the last wildcard, and the text where the wildcard stands. -/
abbrev Star (τ α : Type) := Option (List (Token τ) × List α)

variable (accepts) in
/-- The text fits once the last wildcard takes at least one symbol more. -/
def Later : Star τ α → Prop
  | some (pattern, _ :: retry) => Fits accepts (.many :: pattern) retry
  | _ => False

variable (accepts) in
/-- What a matcher still has to decide. -/
def Open (star : Star τ α) (cursor : List (Token τ)) (input : List α) : Prop :=
  Fits accepts cursor input ∨ Later accepts star

/-- Since the last wildcard the matcher passed only tests, one symbol for each. -/
def Held (star : Star τ α) (cursor : List (Token τ)) (input : List α) : Prop :=
  ∀ pattern retry, star = some (pattern, retry) →
    ∃ tests : List τ, pattern = tests.map .one ++ cursor ∧ input = retry.drop tests.length

variable {star : Star τ α}

theorem held_start (pattern : List (Token τ)) (text : List α) :
    Held (some (pattern, text)) pattern text := by
  rintro _ _ ⟨⟩
  exact ⟨[], rfl, rfl⟩

theorem Held.one (held : Held star (.one test :: pattern) (a :: input)) :
    Held star pattern input := by
  intro behind retry standing
  obtain ⟨tests, rfl, dropped⟩ := held behind retry standing
  refine ⟨tests ++ [test], by simp, ?_⟩
  rw [List.length_append, ← List.drop_drop, ← dropped]
  rfl

theorem open_one (accepted : accepts test a) :
    Open accepts star (.one test :: pattern) (a :: input) ↔ Open accepts star pattern input := by
  simp only [Open, fits_one, accepted, true_and]

theorem open_many (held : Held star (.many :: pattern) input) :
    Open accepts star (.many :: pattern) input ↔
      Open accepts (some (pattern, input)) pattern input := by
  have renewed : Open accepts (some (pattern, input)) pattern input ↔
      Fits accepts (.many :: pattern) input := by
    cases input <;> simp [Open, Later, fits_many, List.suffix_cons_iff, or_and_right, exists_or]
  rw [renewed]
  refine ⟨fun still => still.elim id fun later => ?_, .inl⟩
  match star, later with
  | some (behind, _ :: retry), later =>
    obtain ⟨tests, rfl, rfl⟩ := held _ _ rfl
    obtain ⟨rest, ⟨skipped, rfl⟩, fits⟩ := fits_many.mp later
    -- what is left behind the tests is a suffix of the present input
    obtain ⟨rest', behind, fits⟩ := fits_many.mp fits.drop
    refine fits_many.mpr ⟨rest', behind.trans ?_, fits⟩
    rw [← List.cons_append, List.drop_append]
    exact (List.drop_suffix_drop_left _ (Nat.sub_le ..)).trans (List.suffix_append ..)

theorem open_retry (mismatch : ¬ Fits accepts cursor input) :
    Open accepts (some (pattern, a :: text)) cursor input ↔
      Open accepts (some (pattern, text)) pattern text := by
  cases text <;>
    simp [Open, Later, mismatch, fits_many, List.suffix_cons_iff, or_and_right, exists_or]

end Wildcard
