import Mathlib.Logic.Basic

/-!
Deterministic machines that may fail.

A machine is a step function: a state halts, fails, or has one successor.
`Reaches` follows the steps of a run and `run` is the executable run of bounded
length. `Leads` says that a run gets to a state with a property unless it fails
first. `Simulates` compares a machine that carries an outside state with a
computation over that state, effect by effect.
-/

namespace Steps

variable {ε σ κ α β : Type}

inductive Reaches (step : σ → Except ε (Option σ)) : σ → Except ε σ → Prop
  | refl (s : σ) : Reaches step s (.ok s)
  | next {s s' : σ} {r : Except ε σ} (h : step s = .ok (some s')) (rest : Reaches step s' r) :
      Reaches step s r
  | fail {s : σ} {e : ε} (h : step s = .error e) : Reaches step s (.error e)

def run (step : σ → Except ε (Option σ)) : Nat → σ → Option (Except ε σ)
  | 0, _ => none
  | n + 1, s =>
    match step s with
    | .error e => some (.error e)
    | .ok none => some (.ok s)
    | .ok (some s') => run step n s'

/-- The run gets to a state with the property, or fails before. -/
def Leads (step : σ → Except ε (Option σ)) (s : σ) (post : σ → Prop) : Prop :=
  ∃ r, Reaches step s r ∧ ∀ s', r = .ok s' → post s'

section Machine

variable {step : σ → Except ε (Option σ)} {s s' t : σ} {r : Except ε σ} {n m : Nat}
  {post mid : σ → Prop}

theorem Reaches.trans (first : Reaches step s (.ok s')) (second : Reaches step s' r) :
    Reaches step s r := by
  generalize h : Except.ok s' = middle at first
  induction first with
  | refl s =>
    cases h
    exact second
  | next h' _ ih => exact .next h' (ih h)
  | fail _ => cases h

theorem run_next (h : step s = .ok (some s')) : run step (n + 1) s = run step n s' := by
  rw [run, h]

theorem run_mono (h : run step n s = some r) (le : n ≤ m) : run step m s = some r := by
  induction n generalizing s m with
  | zero => cases h
  | succ n ih =>
    cases m with
    | zero => cases le
    | succ m =>
      rw [run] at h ⊢
      split at h
      · exact h
      · exact h
      · exact ih h (Nat.le_of_succ_le_succ le)

theorem Reaches.run_eq (h : Reaches step s (.ok s')) (hrun : run step n s' = some r) :
    ∃ m, run step m s = some r := by
  generalize hr : Except.ok s' = reached at h
  induction h with
  | refl s =>
    cases hr
    exact ⟨n, hrun⟩
  | next h' _ ih =>
    obtain ⟨m, hm⟩ := ih hr
    exact ⟨m + 1, (run_next h').trans hm⟩
  | fail _ => cases hr

theorem Reaches.run_fail {e : ε} (h : Reaches step s (.error e)) :
    ∃ m, run step m s = some (.error e) := by
  generalize hr : Except.error e = reached at h
  induction h with
  | refl s => cases hr
  | next h' _ ih =>
    obtain ⟨m, hm⟩ := ih hr
    exact ⟨m + 1, (run_next h').trans hm⟩
  | fail h' =>
    exact ⟨1, by rw [run, h']⟩

theorem run_unique {r' : Except ε σ} (h : run step n s = some r) (h' : run step m s = some r') :
    r = r' := by
  have first := run_mono h (Nat.le_max_left n m)
  have second := run_mono h' (Nat.le_max_right n m)
  exact Option.some.inj (first.symm.trans second)

theorem Leads.of_post (h : post s) : Leads step s post :=
  ⟨.ok s, .refl s, fun _ same => Except.ok.inj same ▸ h⟩

theorem Leads.next (running : step s ≠ .ok none)
    (h : ∀ s', step s = .ok (some s') → Leads step s' post) : Leads step s post := by
  cases hs : step s with
  | error e => exact ⟨.error e, .fail hs, fun _ same => nomatch same⟩
  | ok next =>
    cases next with
    | none => exact absurd hs running
    | some s' =>
      obtain ⟨r, reaches, hr⟩ := h s' hs
      exact ⟨r, .next hs reaches, hr⟩

theorem Leads.bind (first : Leads step s mid) (second : ∀ s', mid s' → Leads step s' post) :
    Leads step s post := by
  obtain ⟨r, reaches, hr⟩ := first
  cases r with
  | error e => exact ⟨.error e, reaches, fun _ same => nomatch same⟩
  | ok s' =>
    obtain ⟨r', reaches', hr'⟩ := second s' (hr s' rfl)
    exact ⟨r', reaches.trans reaches', hr'⟩

theorem Leads.mono (h : Leads step s mid) (weaker : ∀ s', mid s' → post s') : Leads step s post :=
  h.bind fun s' met => Leads.of_post (weaker s' met)

theorem Leads.of_run (h : Leads step s post) (halted : ∀ s', post s' → step s' = .ok none)
    (hrun : run step n s = some (.ok t)) : post t := by
  obtain ⟨r, reaches, hr⟩ := h
  cases r with
  | error e =>
    obtain ⟨m, failed⟩ := reaches.run_fail
    cases run_unique hrun failed
  | ok s' =>
    have last : run step 1 s' = some (.ok s') := by rw [run, halted s' (hr s' rfl)]
    obtain ⟨m, ended⟩ := reaches.run_eq last
    obtain rfl := Except.ok.inj (run_unique hrun ended)
    exact hr t rfl

end Machine

/-- Started at a control state, the machine has the effects and the outcome of
the computation, and ends it at a control state related to the value. -/
structure Simulates (step : κ × σ → Except ε (Option (κ × σ))) (k : κ)
    (x : StateT σ (Except ε) α) (post : α → κ → Prop) : Prop where
  of_ok : ∀ {s a s'}, x s = .ok (a, s') → ∃ k', Reaches step (k, s) (.ok (k', s')) ∧ post a k'
  of_error : ∀ {s e}, x s = .error e → Reaches step (k, s) (.error e)

section Simulation

variable {step : κ × σ → Except ε (Option (κ × σ))} {k k' : κ} {x : StateT σ (Except ε) α}
  {f : α → StateT σ (Except ε) β} {post : α → κ → Prop} {a : α}

theorem Simulates.pure (h : post a k) : Simulates step k (pure a) post where
  of_ok := by
    intro s b s' hb
    obtain ⟨rfl, rfl⟩ := Prod.mk.inj (Except.ok.inj hb)
    exact ⟨k, .refl _, h⟩
  of_error := fun h => nomatch h

theorem Simulates.bind {mid : α → κ → Prop} {post : β → κ → Prop}
    (first : Simulates step k x mid)
    (second : ∀ a k', mid a k' → Simulates step k' (f a) post) :
    Simulates step k (x >>= f) post where
  of_ok := by
    intro s b s' hb
    change (x s >>= fun p => f p.1 p.2) = _ at hb
    cases hx : x s with
    | error e =>
      rw [hx] at hb
      cases hb
    | ok p =>
      obtain ⟨a, t⟩ := p
      rw [hx] at hb
      obtain ⟨k1, reaches, ha⟩ := first.of_ok hx
      obtain ⟨k2, reaches', hb'⟩ := (second a k1 ha).of_ok hb
      exact ⟨k2, reaches.trans reaches', hb'⟩
  of_error := by
    intro s e he
    change (x s >>= fun p => f p.1 p.2) = _ at he
    cases hx : x s with
    | error e' =>
      rw [hx] at he
      cases he
      exact first.of_error hx
    | ok p =>
      obtain ⟨a, t⟩ := p
      rw [hx] at he
      obtain ⟨k1, reaches, ha⟩ := first.of_ok hx
      exact reaches.trans ((second a k1 ha).of_error he)

theorem Simulates.next (h : ∀ s, step (k, s) = .ok (some (k', s)))
    (rest : Simulates step k' x post) : Simulates step k x post where
  of_ok := by
    intro s a s' ha
    obtain ⟨k1, reaches, hpost⟩ := rest.of_ok ha
    exact ⟨k1, .next (h s) reaches, hpost⟩
  of_error := fun he => .next (h _) (rest.of_error he)

theorem Simulates.effect {next : α → κ}
    (h : ∀ s, step (k, s) = (x s).map fun p => some (next p.1, p.2))
    (hpost : ∀ a, post a (next a)) : Simulates step k x post where
  of_ok := by
    intro s a s' ha
    refine ⟨next a, .next ?_ (.refl _), hpost a⟩
    rw [h, ha]
    rfl
  of_error := by
    intro s e he
    refine .fail ?_
    rw [h, he]
    rfl

theorem Simulates.mono {post' : α → κ → Prop} (h : Simulates step k x post)
    (weaker : ∀ a k', post a k' → post' a k') : Simulates step k x post' where
  of_ok := by
    intro s a s' ha
    obtain ⟨k1, reaches, hpost⟩ := h.of_ok ha
    exact ⟨k1, reaches, weaker a k1 hpost⟩
  of_error := h.of_error

end Simulation

end Steps
