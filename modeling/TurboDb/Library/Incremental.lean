import Mathlib.Data.List.Basic

/-!
Readers that are given their input in pieces.

A reader looks at the input so far and a state of its own. It asks for more,
returns a value and how much of the input it took, or fails for good. A session
appends pieces to a buffer and reads values from it while there are any.

When an answer does not change with the input behind it, and a reader that asked
for more goes on as if it had all input from the start, it does not matter how
the input is cut.
-/

namespace Incremental

variable {α σ τ β ε : Type}
variable {f : σ → τ}

inductive Outcome (σ β ε : Type)
  | more (state : σ)
  | done (value : β) (consumed : Nat)
  | fail (error : ε)

def Outcome.map (f : σ → τ) : Outcome σ β ε → Outcome τ β ε
  | .more state => .more (f state)
  | .done value consumed => .done value consumed
  | .fail error => .fail error

variable {outcome : Outcome σ β ε}

theorem Outcome.map_map {υ : Type} {g : τ → υ} : (outcome.map f).map g = outcome.map (g ∘ f) := by
  cases outcome <;> rfl

theorem Outcome.map_eq_done {v : β} {n : Nat} :
    outcome.map f = .done v n ↔ outcome = .done v n := by
  cases outcome <;> simp [Outcome.map]

theorem Outcome.map_eq_fail {e : ε} : outcome.map f = .fail e ↔ outcome = .fail e := by
  cases outcome <;> simp [Outcome.map]

theorem Outcome.map_eq_more {t : τ} :
    outcome.map f = .more t ↔ ∃ s, outcome = .more s ∧ f s = t := by
  cases outcome <;> simp [Outcome.map]

/-- A call of a reader on the input it has. -/
abbrev Reader (α σ β ε : Type) := List α → σ → Outcome σ β ε

/-- Answers are final, and asking for more forgets nothing. -/
structure Resumable (read : Reader α σ β ε) : Prop where
  consumed : ∀ {p s v n}, read p s = .done v n → 0 < n ∧ n ≤ p.length
  done_append : ∀ {p s v n} (q : List α), read p s = .done v n → read (p ++ q) s = .done v n
  fail_append : ∀ {p s e} (q : List α), read p s = .fail e → read (p ++ q) s = .fail e
  more_append : ∀ {p s t} (q : List α), read p s = .more t → read (p ++ q) t = read (p ++ q) s

structure Session (α σ β ε : Type) where
  buffer : List α
  state : σ
  values : List β
  failed : Option ε

namespace Session

def drain (read : Reader α σ β ε) (fresh : σ) (s : Session α σ β ε) : Session α σ β ε :=
  if s.failed.isSome then s
  else
    match read s.buffer s.state with
    | .more state => { s with state }
    | .fail error => { s with state := fresh, failed := some error }
    | .done value consumed =>
      if _h : 0 < consumed ∧ consumed ≤ s.buffer.length then
        drain read fresh ⟨s.buffer.drop consumed, fresh, s.values ++ [value], s.failed⟩
      else { s with state := fresh }
  termination_by s.buffer.length
  decreasing_by simp only [List.length_drop]; omega

def append (s : Session α σ β ε) (piece : List α) : Session α σ β ε :=
  { s with buffer := s.buffer ++ piece }

def feed (read : Reader α σ β ε) (fresh : σ) (s : Session α σ β ε) (piece : List α) :
    Session α σ β ε :=
  drain read fresh (s.append piece)

def start (read : Reader α σ β ε) (fresh : σ) : Session α σ β ε :=
  drain read fresh ⟨[], fresh, [], none⟩

def map (f : σ → τ) (s : Session α σ β ε) : Session α τ β ε :=
  ⟨s.buffer, f s.state, s.values, s.failed⟩

end Session

open Session

variable {read : Reader α σ β ε} {fresh : σ} {s : Session α σ β ε}

section Drain

variable {Inv : σ → Prop} {Post : β → Prop}

theorem drain_failed (h : s.failed.isSome) : s.drain read fresh = s := by
  rw [drain, if_pos h]

theorem drain_more {state : σ} (open_ : s.failed = none) (h : read s.buffer s.state = .more state) :
    s.drain read fresh = { s with state } := by
  rw [drain, if_neg (by simp [open_]), h]

theorem drain_fail {error : ε} (open_ : s.failed = none) (h : read s.buffer s.state = .fail error) :
    s.drain read fresh = { s with state := fresh, failed := some error } := by
  rw [drain, if_neg (by simp [open_]), h]

theorem drain_done {value : β} {consumed : Nat} (open_ : s.failed = none)
    (h : read s.buffer s.state = .done value consumed) (bounds : 0 < consumed ∧ consumed ≤ s.buffer.length) :
    s.drain read fresh =
      drain read fresh ⟨s.buffer.drop consumed, fresh, s.values ++ [value], s.failed⟩ := by
  rw [drain, if_neg (by simp [open_]), h]
  exact dif_pos bounds

/-- Reading before a piece arrives makes no difference. -/
theorem feed_drain (resumable : Resumable read) (piece : List α) :
    (s.drain read fresh).feed read fresh piece = s.feed read fresh piece := by
  induction length : s.buffer.length using Nat.strongRecOn generalizing s with
  | ind n ih =>
    cases open_ : s.failed with
    | some error => rw [drain_failed (by simp [open_])]
    | none =>
      have open' : (s.append piece).failed = none := open_
      cases outcome : read s.buffer s.state with
      | more state =>
        have again : read (s.append piece).buffer state = read (s.append piece).buffer s.state :=
          resumable.more_append piece outcome
        rw [drain_more open_ outcome, feed, feed]
        cases later : read (s.append piece).buffer s.state with
        | more state' =>
          rw [drain_more open' later]
          exact drain_more open_ (again.trans later)
        | fail error =>
          rw [drain_fail open' later]
          exact drain_fail open_ (again.trans later)
        | done value consumed =>
          have bounds := resumable.consumed later
          rw [drain_done open' later bounds]
          exact drain_done open_ (again.trans later) bounds
      | fail error =>
        have later : read (s.append piece).buffer (s.append piece).state = .fail error :=
          resumable.fail_append piece outcome
        rw [drain_fail open_ outcome, feed, feed, drain_fail open' later]
        exact drain_failed rfl
      | done value consumed =>
        have bounds := resumable.consumed outcome
        have later : read (s.append piece).buffer (s.append piece).state = .done value consumed :=
          resumable.done_append piece outcome
        have dropped : (s.append piece).buffer.drop consumed = s.buffer.drop consumed ++ piece :=
          List.drop_append_of_le_length bounds.2
        rw [drain_done open_ outcome bounds, ih _ ?_ rfl, feed, feed,
          drain_done open' later (resumable.consumed later), dropped]
        · rfl
        · simp only [List.length_drop]
          omega

section Initial

variable (initial : Inv fresh)
  (call : ∀ {p s}, Inv s → (∀ t, read p s = .more t → Inv t) ∧ ∀ v n, read p s = .done v n → Post v)
include initial call

/-- What holds of every state between calls and every value a call returns, holds
in every session. -/
theorem drain_invariant (inv : Inv s.state) (values : ∀ v ∈ s.values, Post v) :
    Inv (s.drain read fresh).state ∧ ∀ v ∈ (s.drain read fresh).values, Post v := by
  induction length : s.buffer.length using Nat.strongRecOn generalizing s with
  | ind n ih =>
    cases open_ : s.failed with
    | some error =>
      rw [drain_failed (by simp [open_])]
      exact ⟨inv, values⟩
    | none =>
      cases outcome : read s.buffer s.state with
      | more state =>
        rw [drain_more open_ outcome]
        exact ⟨(call inv).1 state outcome, values⟩
      | fail error =>
        rw [drain_fail open_ outcome]
        exact ⟨initial, values⟩
      | done value consumed =>
        by_cases bounds : 0 < consumed ∧ consumed ≤ s.buffer.length
        · rw [drain_done open_ outcome bounds]
          refine ih _ ?_ initial ?_ rfl
          · simp only [List.length_drop]
            omega
          · intro v member
            rcases List.mem_append.mp member with old | new
            · exact values v old
            · rw [List.mem_singleton.mp new]
              exact (call inv).2 value consumed outcome
        · rw [drain, if_neg (by simp [open_]), outcome]
          dsimp only
          rw [dif_neg bounds]
          exact ⟨initial, values⟩

theorem start_invariant :
    Inv (start read fresh).state ∧ ∀ v ∈ (start read fresh).values, Post v :=
  drain_invariant initial call initial nofun

theorem foldl_feed_invariant (inv : Inv s.state) (values : ∀ v ∈ s.values, Post v)
    (pieces : List (List α)) :
    Inv (pieces.foldl (feed read fresh) s).state ∧
      ∀ v ∈ (pieces.foldl (feed read fresh) s).values, Post v := by
  induction pieces generalizing s with
  | nil => exact ⟨inv, values⟩
  | cons piece rest ih =>
    obtain ⟨inv', values'⟩ := drain_invariant (s := s.append piece) initial call inv values
    exact ih inv' values'

end Initial

theorem append_append (p q : List α) : (s.append p).append q = s.append (p ++ q) := by
  simp [append]

theorem foldl_feed (resumable : Resumable read) (pieces : List (List α)) :
    pieces.foldl (feed read fresh) (s.drain read fresh) =
      s.feed read fresh pieces.flatten := by
  induction pieces generalizing s with
  | nil =>
    rw [List.foldl_nil, List.flatten_nil, feed, append, List.append_nil]
  | cons piece rest ih =>
    rw [List.foldl_cons, feed_drain resumable, feed, ih, List.flatten_cons,
      feed, append_append, feed]

/-- However the input is cut, a session ends the same. -/
theorem feed_pieces (resumable : Resumable read) (pieces : List (List α)) :
    pieces.foldl (feed read fresh) (start read fresh) =
      (start read fresh).feed read fresh pieces.flatten := by
  rw [start, foldl_feed resumable, feed_drain resumable]

end Drain

/-- A reader answers as another one does that forgets part of its state. -/
structure Simulates (read : Reader α σ β ε) (abstract : Reader α τ β ε) (core : σ → τ) (fresh : σ)
    (Good : List α → σ → Prop) : Prop where
  good_fresh : ∀ p, Good p fresh
  good_append : ∀ {p s} (q : List α), Good p s → Good (p ++ q) s
  good_more : ∀ {p s t}, Good p s → read p s = .more t → Good p t
  outcome : ∀ {p s}, Good p s → (read p s).map core = abstract p (core s)

section Simulation

variable {abstract : Reader α τ β ε} {core : σ → τ} {Good : List α → σ → Prop}

section Sim

variable (sim : Simulates read abstract core fresh Good)
include sim

theorem drain_map (good : Good s.buffer s.state) :
    (s.drain read fresh).map core = (s.map core).drain abstract (core fresh) ∧
      Good (s.drain read fresh).buffer (s.drain read fresh).state := by
  induction length : s.buffer.length using Nat.strongRecOn generalizing s with
  | ind n ih =>
    have agrees : (read s.buffer s.state).map core = abstract (s.map core).buffer (s.map core).state :=
      sim.outcome good
    cases open_ : s.failed with
    | some error =>
      rw [drain_failed (by simp [open_]), drain_failed (by simp [map, open_])]
      exact ⟨rfl, good⟩
    | none =>
      have open' : (s.map core).failed = none := open_
      cases outcome : read s.buffer s.state with
      | more state =>
        rw [outcome] at agrees
        rw [drain_more open_ outcome, drain_more open' agrees.symm]
        exact ⟨rfl, sim.good_more good outcome⟩
      | fail error =>
        rw [outcome] at agrees
        rw [drain_fail open_ outcome, drain_fail open' agrees.symm]
        exact ⟨rfl, sim.good_fresh _⟩
      | done value consumed =>
        rw [outcome] at agrees
        by_cases bounds : 0 < consumed ∧ consumed ≤ s.buffer.length
        · rw [drain_done open_ outcome bounds, drain_done open' agrees.symm bounds]
          refine ih _ ?_ (sim.good_fresh _) rfl
          simp only [List.length_drop]
          omega
        · rw [drain, if_neg (by simp [open_]), outcome, drain,
            if_neg (by simp [open']), ← agrees]
          rw [Outcome.map]
          have bounds' : ¬ (0 < consumed ∧ consumed ≤ (s.map core).buffer.length) := bounds
          dsimp only
          rw [dif_neg bounds, dif_neg bounds']
          exact ⟨rfl, sim.good_fresh _⟩

theorem foldl_feed_map (pieces : List (List α)) (good : Good s.buffer s.state) :
    (pieces.foldl (feed read fresh) s).map core =
      pieces.foldl (feed abstract (core fresh)) (s.map core) ∧
    Good (pieces.foldl (feed read fresh) s).buffer
      (pieces.foldl (feed read fresh) s).state := by
  induction pieces generalizing s with
  | nil => exact ⟨rfl, good⟩
  | cons piece rest ih =>
    have appended : Good (s.append piece).buffer (s.append piece).state := sim.good_append piece good
    obtain ⟨same, kept⟩ := drain_map sim appended
    obtain ⟨rest, last⟩ := ih kept
    refine ⟨rest.trans ?_, last⟩
    rw [List.foldl_cons, same]
    rfl

theorem feed_pieces_map (resumable : Resumable abstract) (pieces : List (List α)) :
    (pieces.foldl (feed read fresh) (start read fresh)).map core =
      ((start read fresh).feed read fresh pieces.flatten).map core := by
  obtain ⟨started, good⟩ := drain_map sim (s := ⟨[], fresh, [], none⟩) (sim.good_fresh [])
  have whole := (foldl_feed_map sim [pieces.flatten] good).1
  rw [List.foldl_cons, List.foldl_nil] at whole
  rw [start, (foldl_feed_map sim pieces good).1, whole, started]
  have once : [pieces.flatten].foldl (feed abstract (core fresh))
      (start abstract (core fresh)) = _ := feed_pieces resumable [pieces.flatten]
  rw [List.flatten_singleton] at once
  exact (feed_pieces resumable pieces).trans once.symm

end Sim

end Simulation

end Incremental
