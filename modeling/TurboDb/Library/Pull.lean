import TurboDb.Library.Effect

/-!
Sources that are pulled.

A source answers a call with an element, its end, or a failure, and goes on in a
new state. `Delivers` says which elements the calls give until the end, unless a
call fails, which it may only when something is bad.
-/

namespace Pull

open Effect

variable {ε σ α : Type} (next : σ → Except ε (Option α) × σ)

/-- All elements, by as many calls as `fuel` allows. -/
def drain : Nat → σ → Except ε (List α)
  | 0, _ => pure []
  | fuel + 1, s =>
    match next s with
    | (.error e, _) => .error e
    | (.ok none, _) => pure []
    | (.ok (some a), s') => do
      let rest ← drain fuel s'
      pure (a :: rest)

def Delivers (bad : Prop) : σ → List α → Prop
  | s, [] => (bad ∧ ∃ e, (next s).1 = .error e) ∨ (next s).1 = .ok none
  | s, a :: rest =>
    (bad ∧ ∃ e, (next s).1 = .error e) ∨ ∃ s', next s = (.ok (some a), s') ∧ Delivers bad s' rest

variable {next} {bad : Prop} {s : σ} {elements : List α} {fuel : Nat}

/-- An answer is the first of these elements, and the state behind it has the others. -/
def Answers (bad : Prop) (rest : σ → List α → Prop) (answer : Except ε (Option α) × σ) :
    List α → Prop
  | [] => (bad ∧ ∃ e, answer.1 = .error e) ∨ answer.1 = .ok none
  | a :: elements =>
    (bad ∧ ∃ e, answer.1 = .error e) ∨ ∃ s', answer = (.ok (some a), s') ∧ rest s' elements

theorem answers_fails {rest : σ → List α → Prop} {answer : Except ε (Option α) × σ} {e : ε}
    (isBad : bad) (fails : answer.1 = .error e) : Answers bad rest answer elements := by
  cases elements with
  | nil => exact .inl ⟨isBad, e, fails⟩
  | cons a elements => exact .inl ⟨isBad, e, fails⟩

theorem delivers_of_answers {rest : σ → List α → Prop}
    (step : ∀ {s elements}, rest s elements → Answers bad rest (next s) elements)
    (first : Answers bad rest (next s) elements) : Delivers next bad s elements := by
  induction elements generalizing s with
  | nil => exact first
  | cons a elements ih =>
    rcases first with failed | ⟨s', answered, isRest⟩
    · exact .inl failed
    · exact .inr ⟨s', answered, ih (step isRest)⟩

theorem Delivers.drain (delivers : Delivers next bad s elements) (enough : elements.length < fuel) :
    Yields bad (drain next fuel s) (· = elements) := by
  induction elements generalizing s fuel with
  | nil =>
    obtain ⟨fuel, rfl⟩ := Nat.exists_eq_succ_of_ne_zero (Nat.ne_zero_of_lt enough)
    rw [Pull.drain]
    rcases called : next s with ⟨answer, s'⟩
    rw [Delivers, called] at delivers
    rcases delivers with ⟨isBad, e, rfl⟩ | rfl
    · exact .inr ⟨isBad, e, rfl⟩
    · exact .inl ⟨[], rfl, rfl⟩
  | cons a rest ih =>
    obtain ⟨fuel, rfl⟩ := Nat.exists_eq_succ_of_ne_zero (Nat.ne_zero_of_lt enough)
    rw [Pull.drain]
    rcases delivers with ⟨isBad, e, fails⟩ | ⟨s', called, following⟩
    · rcases called : next s with ⟨answer, s'⟩
      rw [called] at fails
      obtain rfl : answer = _ := fails
      exact .inr ⟨isBad, e, rfl⟩
    · rw [called]
      refine (ih following (Nat.lt_of_succ_lt_succ enough)).bind fun elements same => ?_
      exact .pure (congrArg (a :: ·) same)

end Pull
