import Mathlib.Data.List.Forall2

/-!
Preconditions of programs whose state survives failure.

A program is a core error-state action: it ends in a value or in an error, and
hands on the state it reached in both cases, so that there is a postcondition for
each. The rules are equivalences, so that rewriting runs a program, and
implications for loops.
-/

namespace Effect

variable {ε σ α β : Type}
variable {x : EStateM ε σ α}

/-- The program ends in `ok` when it returns and in `error` when it fails. -/
structure Wp (x : EStateM ε σ α) (ok : α → σ → Prop) (error : ε → σ → Prop) (s : σ) :
    Prop where
  of_ok : ∀ {a t}, x s = .ok a t → ok a t
  of_error : ∀ {e t}, x s = .error e t → error e t

/-- Fail with `e` when the condition holds, as an early return does. -/
def reject {m : Type → Type} [Monad m] [MonadExcept ε m] (c : Prop) [Decidable c] (e : ε) :
    m Unit :=
  if c then throw e else pure ()

/-- The value behind an optional argument; a missing one fails with `e`. -/
def given {m : Type → Type} [Monad m] [MonadExcept ε m] (a : Option α) (e : ε) : m α :=
  match a with
  | some a => pure a
  | none => throw e

/-- A computation without state, run where there is one. -/
def attempt (x : Except ε α) : EStateM ε σ α :=
  match x with
  | .ok a => pure a
  | .error e => throw e

variable {ok : α → σ → Prop} {error : ε → σ → Prop} {s : σ}

theorem wp_of_run_ok {a : α} {t : σ} (h : x s = .ok a t) : Wp x ok error s ↔ ok a t := by
  refine ⟨fun w => w.of_ok h, fun post => ⟨fun h' => ?_, fun h' => ?_⟩⟩
  · obtain ⟨rfl, rfl⟩ := EStateM.Result.ok.inj (h.symm.trans h')
    exact post
  · exact nomatch h.symm.trans h'

theorem wp_of_run_error {e : ε} {t : σ} (h : x s = .error e t) : Wp x ok error s ↔ error e t := by
  refine ⟨fun w => w.of_error h, fun post => ⟨fun h' => ?_, fun h' => ?_⟩⟩
  · exact nomatch h.symm.trans h'
  · obtain ⟨rfl, rfl⟩ := EStateM.Result.error.inj (h.symm.trans h')
    exact post

@[simp] theorem wp_pure (a : α) : Wp (pure a) ok error s ↔ ok a s := wp_of_run_ok rfl

@[simp] theorem wp_throw (e : ε) : Wp (throw e) ok error s ↔ error e s := wp_of_run_error rfl

@[simp] theorem wp_get {ok : σ → σ → Prop} :
    Wp (get : EStateM ε σ σ) ok error s ↔ ok s s := wp_of_run_ok rfl

@[simp] theorem wp_modify {ok : PUnit → σ → Prop} (f : σ → σ) :
    Wp (modify f : EStateM ε σ PUnit) ok error s ↔ ok ⟨⟩ (f s) := wp_of_run_ok rfl

@[simp] theorem wp_modifyGet (f : σ → α × σ) :
    Wp (modifyGet f : EStateM ε σ α) ok error s ↔ ok (f s).1 (f s).2 := wp_of_run_ok rfl

theorem wp_congr {y : EStateM ε σ α} {t : σ} (same : x s = y t) :
    Wp x ok error s ↔ Wp y ok error t :=
  ⟨fun w => ⟨fun h => w.of_ok (same.trans h), fun h => w.of_error (same.trans h)⟩,
    fun w => ⟨fun h => w.of_ok (same.symm.trans h), fun h => w.of_error (same.symm.trans h)⟩⟩

@[simp] theorem wp_bind {ok : β → σ → Prop} (x : EStateM ε σ α) (f : α → EStateM ε σ β) :
    Wp (x >>= f) ok error s ↔ Wp x (fun a t => Wp (f a) ok error t) error s := by
  cases h : x s with
  | ok a t =>
    rw [wp_of_run_ok h]
    exact wp_congr (by simp only [bind, EStateM.bind, h])
  | error e t =>
    have run : (x >>= f) s = .error e t := by simp only [bind, EStateM.bind, h]
    rw [wp_of_run_error h, wp_of_run_error run]

/-- What catches a failure goes on from the state it was raised in. -/
@[simp] theorem wp_tryCatch (x : EStateM ε σ α) (f : ε → EStateM ε σ α) :
    Wp (tryCatch x f) ok error s ↔ Wp x ok (fun e t => Wp (f e) ok error t) s := by
  cases h : x s with
  | ok a t =>
    have caught : EStateM.tryCatch x f s = .ok a t := by simp only [EStateM.tryCatch, h]
    rw [wp_of_run_ok h]
    exact wp_of_run_ok caught
  | error e t =>
    have caught : EStateM.tryCatch x f s = f e t := by
      simp only [EStateM.tryCatch, h]
      rfl
    rw [wp_of_run_error h]
    exact wp_congr caught

@[simp] theorem wp_map {ok : β → σ → Prop} (f : α → β) (x : EStateM ε σ α) :
    Wp (f <$> x) ok error s ↔ Wp x (fun a t => ok (f a) t) error s := by
  rw [← bind_pure_comp, wp_bind]
  simp only [wp_pure]

@[simp] theorem wp_reject {ok : Unit → σ → Prop} (c : Prop) [Decidable c] (e : ε) :
    Wp (reject c e : EStateM ε σ Unit) ok error s ↔ (c → error e s) ∧ (¬ c → ok () s) := by
  by_cases h : c <;> simp [reject, h]

@[simp] theorem wp_given (a : Option α) (e : ε) :
    Wp (given a e : EStateM ε σ α) ok error s ↔
      (a = none → error e s) ∧ (∀ b, a = some b → ok b s) := by
  cases a <;> simp [given]

@[simp] theorem wp_attempt (x : Except ε α) : Wp (attempt x : EStateM ε σ α) ok error s ↔
    (∀ e, x = .error e → error e s) ∧ ∀ a, x = .ok a → ok a s := by
  cases x <;> simp [attempt]

theorem Wp.mono {ok' : α → σ → Prop} {error' : ε → σ → Prop}
    (h : Wp x ok error s) (hok : ∀ a t, ok a t → ok' a t)
    (herror : ∀ e t, error e t → error' e t) : Wp x ok' error' s :=
  ⟨fun hx => hok _ _ (h.of_ok hx), fun hx => herror _ _ (h.of_error hx)⟩

/-- A loop over a list keeps an invariant that may mention what is still to do. -/
theorem wp_forM (xs : List α) (f : α → EStateM ε σ PUnit) (inv : List α → σ → Prop)
    (step : ∀ x rest t, inv (x :: rest) t → Wp (f x) (fun _ => inv rest) error t)
    (start : inv xs s) : Wp (xs.forM f) (fun _ => inv []) error s := by
  induction xs generalizing s with
  | nil => simpa using start
  | cons x xs ih =>
    simp only [List.forM_eq_forM, List.forM_cons, wp_bind]
    exact (step x xs s start).mono (fun _ t h => by simpa using ih h) (fun _ _ h => h)

variable {γ : Type} {g : α → Except ε γ} {ys : List γ}

section Pure

variable {x : Except ε α} {f : α → Except ε β} {b : β} {e : ε}

theorem exists_unit {p : Unit → Prop} : (∃ u, p u) ↔ p () :=
  ⟨fun ⟨(), h⟩ => h, fun h => ⟨(), h⟩⟩

/-- The state a program ends in, whether it returns or fails. -/
def final : EStateM.Result ε σ α → σ
  | .ok _ s => s
  | .error _ s => s

@[simp] theorem final_ok {a : α} {s : σ} : final (.ok a s : EStateM.Result ε σ α) = s := rfl

@[simp] theorem final_error {e : ε} {s : σ} : final (.error e s : EStateM.Result ε σ α) = s := rfl

theorem ends_at {r : EStateM.Result ε σ α} {s : σ} (ended : final r = s) :
    (∃ a, r = .ok a s) ∨ ∃ e, r = .error e s := by
  subst ended
  cases r with
  | ok a s => exact .inl ⟨a, rfl⟩
  | error e s => exact .inr ⟨e, rfl⟩

/-- What a program reports, without the state. -/
def reported : EStateM.Result ε σ α → Except ε α
  | .ok a _ => .ok a
  | .error e _ => .error e

section Run

variable {x : EStateM ε σ α} {f : α → EStateM ε σ β} {s t : σ}
variable {e : ε} {c : Prop}

theorem run_bind : (x >>= f) s = match x s with
    | .ok a t => f a t
    | .error e t => .error e t := rfl

theorem run_bind_ok {a : α} (h : x s = .ok a t) : (x >>= f) s = f a t := by
  rw [run_bind, h]

theorem run_bind_error (h : x s = .error e t) : (x >>= f) s = .error e t := by
  rw [run_bind, h]

theorem run_bind_eq_ok {b : β} :
    (x >>= f) s = .ok b t ↔ ∃ a u, x s = .ok a u ∧ f a u = .ok b t := by
  rw [run_bind]
  cases x s <;> simp

theorem run_map {g : α → β} : (g <$> x) s = match x s with
    | .ok a t => .ok (g a) t
    | .error e t => .error e t := rfl

theorem run_pure {a : α} : (pure a : EStateM ε σ α) s = .ok a s := rfl

theorem run_throw : (throw e : EStateM ε σ α) s = .error e s := rfl

theorem run_get : (get : EStateM ε σ σ) s = .ok s s := rfl

theorem run_modify {g : σ → σ} : (modify g : EStateM ε σ PUnit) s = .ok ⟨⟩ (g s) := rfl

theorem run_given {a : α} : (given (some a) e : EStateM ε σ α) s = .ok a s := rfl

theorem run_given_none : (given none e : EStateM ε σ α) s = .error e s := rfl

theorem run_attempt_ok {x : Except ε α} {a : α} (h : x = .ok a) :
    (attempt x : EStateM ε σ α) s = .ok a s := by
  rw [h]
  rfl

theorem run_attempt_error {x : Except ε α} (h : x = .error e) :
    (attempt x : EStateM ε σ α) s = .error e s := by
  rw [h]
  rfl

theorem run_reject_error [Decidable c] (h : c) :
    (reject c e : EStateM ε σ Unit) s = .error e s := by
  rw [reject, if_pos h, run_throw]

theorem run_reject [Decidable c] (h : ¬c) : (reject c e : EStateM ε σ Unit) s = .ok () s := by
  rw [reject, if_neg h, run_pure]

theorem run_bind_reject [Decidable c] {f : Unit → EStateM ε σ β} :
    (reject c e >>= f) s = if c then .error e s else f () s := by
  split_ifs with h
  · exact run_bind_error (run_reject_error h)
  · exact run_bind_ok (run_reject h)

theorem run_bind_reject_eq_ok [Decidable c] {f : Unit → EStateM ε σ β} {b : β} :
    (reject c e >>= f) s = .ok b t ↔ ¬c ∧ f () s = .ok b t := by
  rw [run_bind_reject]
  split_ifs with h <;> simp [h]

theorem run_bind_given_eq_ok {x : Option α} {b : β} :
    (given x e >>= f) s = .ok b t ↔ ∃ a, x = some a ∧ f a s = .ok b t := by
  cases x with
  | none => simp [run_bind_error run_given_none]
  | some a => simp [run_bind_ok run_given]

theorem run_reject_eq_ok [Decidable c] :
    (reject c e : EStateM ε σ Unit) s = .ok () t ↔ ¬c ∧ s = t := by
  by_cases h : c
  · simp [run_reject_error h, h]
  · simp [run_reject h, h]

end Run

section Leaves

variable {τ : Type} {f : σ → τ}
variable {x : EStateM ε σ α}

/-- A program leaves what `f` shows of the state, whether it returns or fails. -/
def Leaves (f : σ → τ) (x : EStateM ε σ α) : Prop := ∀ s, f (final (x s)) = f s

theorem Leaves.same (leaves : Leaves id x) (s : σ) :
    (∃ a, x s = .ok a s) ∨ ∃ e, x s = .error e s := ends_at (leaves s)

theorem leaves_pure (a : α) : Leaves f (pure a : EStateM ε σ α) := fun _ => rfl

theorem leaves_get : Leaves f (get : EStateM ε σ σ) := fun _ => rfl

theorem leaves_modify {g : σ → σ} (same : ∀ s, f (g s) = f s) :
    Leaves f (modify g : EStateM ε σ PUnit) := same

theorem leaves_reject {c : Prop} [Decidable c] {e : ε} :
    Leaves f (reject c e : EStateM ε σ Unit) := by
  intro s
  by_cases h : c
  · rw [run_reject_error h]
    rfl
  · rw [run_reject h]
    rfl

theorem leaves_given {a : Option α} {e : ε} : Leaves f (given a e : EStateM ε σ α) := by
  intro s
  cases a <;> rfl

theorem leaves_attempt {x : Except ε α} : Leaves f (attempt x : EStateM ε σ α) := by
  intro s
  cases x <;> rfl

theorem Leaves.bind {g : α → EStateM ε σ β} (first : Leaves f x)
    (second : ∀ a, Leaves f (g a)) : Leaves f (x >>= g) := by
  intro s
  have left := first s
  rw [run_bind]
  cases h : x s with
  | ok a t =>
    rw [h] at left
    exact (second a t).trans left
  | error e t =>
    rw [h] at left
    exact left

theorem Leaves.map (leaves : Leaves f x) (g : α → β) : Leaves f (g <$> x) := by
  intro s
  have left := leaves s
  rw [run_map]
  cases h : x s <;> rw [h] at left <;> exact left

/-- How a program ends, as far as `f` shows the state. -/
def outcome (f : σ → τ) : EStateM.Result ε σ α → EStateM.Result ε τ α
  | .ok a s => .ok a (f s)
  | .error e s => .error e (f s)

/-- On what `f` shows of a state, `y` does what `x` does on the state. -/
def Mirrors (f : σ → τ) (x : EStateM ε σ α) (y : EStateM ε τ α) : Prop :=
  ∀ s, y (f s) = outcome f (x s)

theorem mirrors_pure (a : α) : Mirrors f (pure a : EStateM ε σ α) (pure a) := fun _ => rfl

theorem mirrors_throw (e : ε) : Mirrors f (throw e : EStateM ε σ α) (throw e) := fun _ => rfl

theorem Mirrors.bind {y : EStateM ε τ α} {g : α → EStateM ε σ β}
    {h : α → EStateM ε τ β} (first : Mirrors f x y) (second : ∀ a, Mirrors f (g a) (h a)) :
    Mirrors f (x >>= g) (y >>= h) := by
  intro s
  rw [run_bind, run_bind, first s]
  cases x s with
  | ok a t => exact second a t
  | error e t => rfl

theorem mirrors_forM {g : α → EStateM ε σ PUnit} {h : γ → EStateM ε τ PUnit} (image : α → γ)
    (each : ∀ a, Mirrors f (g a) (h (image a))) (xs : List α) :
    Mirrors f (forM xs g) (forM (xs.map image) h) := by
  induction xs with
  | nil => exact mirrors_pure _
  | cons x xs ih =>
    exact (each x).bind fun _ => ih

end Leaves

variable {a : α} {xs : List α}

theorem ok_bind : (Except.ok a : Except ε α) >>= f = f a := rfl

theorem pure_ok : (pure a : Except ε α) = .ok a := rfl

@[simp] theorem bind_eq_ok : x >>= f = .ok b ↔ ∃ a, x = .ok a ∧ f a = .ok b := by
  cases x <;> simp [bind, Except.bind]

@[simp] theorem bind_eq_error :
    x >>= f = .error e ↔ x = .error e ∨ ∃ a, x = .ok a ∧ f a = .error e := by
  cases x <;> simp [bind, Except.bind]

@[simp] theorem map_eq_ok {g : α → β} : g <$> x = .ok b ↔ ∃ a, x = .ok a ∧ g a = b := by
  cases x <;> simp [Functor.map, Except.map]

@[simp] theorem pure_eq_ok {a a' : α} : (pure a : Except ε α) = .ok a' ↔ a = a' := by
  simp [pure, Except.pure]

@[simp] theorem pure_ne_error : ¬ (pure a : Except ε α) = .error e := by
  simp [pure, Except.pure]

@[simp] theorem throw_eq_error {e' : ε} : (throw e : Except ε α) = .error e' ↔ e = e' := by
  simp [throw, throwThe, MonadExceptOf.throw]

@[simp] theorem throw_ne_ok : ¬ (throw e : Except ε α) = .ok a := by
  simp [throw, throwThe, MonadExceptOf.throw]

@[simp] theorem mapError_eq_ok {ε' : Type} {g : ε → ε'} : x.mapError g = .ok a ↔ x = .ok a := by
  cases x <;> simp [Except.mapError]

@[simp] theorem reject_eq_ok {c : Prop} [Decidable c] {u : Unit} :
    (reject c e : Except ε Unit) = .ok u ↔ ¬ c := by
  by_cases h : c <;> simp [reject, h]

@[simp] theorem reject_eq_error {c : Prop} [Decidable c] {e' : ε} :
    (reject c e : Except ε Unit) = .error e' ↔ c ∧ e = e' := by
  by_cases h : c <;> simp [reject, h]

@[simp] theorem given_eq_ok {a : Option α} {a' : α} :
    (given a e : Except ε α) = .ok a' ↔ a = some a' := by
  cases a <;> simp [given]

theorem forM_eq_ok {g : α → Except ε Unit} : xs.forM g = .ok () ↔ ∀ a ∈ xs, g a = .ok () := by
  induction xs with
  | nil => simp
  | cons a xs ih =>
    simp only [List.forM_eq_forM] at ih
    simp only [List.forM_eq_forM, List.forM_cons, bind_eq_ok, ih, List.forall_mem_cons]
    exact ⟨fun ⟨_, h, rest⟩ => ⟨h, rest⟩, fun ⟨h, rest⟩ => ⟨(), h, rest⟩⟩

theorem mapM_eq_ok : xs.mapM g = .ok ys ↔ List.Forall₂ (fun x y => g x = .ok y) xs ys := by
  induction xs generalizing ys with
  | nil =>
    simp only [List.mapM_nil, pure_eq_ok, List.forall₂_nil_left_iff]
    exact eq_comm
  | cons a xs ih =>
    simp only [List.mapM_cons, bind_eq_ok, pure_eq_ok, ih, List.forall₂_cons_left_iff]
    constructor
    · rintro ⟨b, hb, bs, hbs, rfl⟩
      exact ⟨b, bs, hb, hbs, rfl⟩
    · rintro ⟨b, bs, hb, hbs, rfl⟩
      exact ⟨b, hb, bs, hbs, rfl⟩

theorem mapM_ok_of_mem (h : xs.mapM g = .ok ys) (ha : a ∈ xs) : ∃ b, g a = .ok b := by
  rw [mapM_eq_ok] at h
  induction h with
  | nil => simp at ha
  | cons hx _ ih =>
    rcases List.mem_cons.mp ha with rfl | ha
    · exact ⟨_, hx⟩
    · exact ih ha

theorem mapM_eq_error (h : xs.mapM g = .error e) : ∃ a ∈ xs, g a = .error e := by
  induction xs with
  | nil => simp at h
  | cons a xs ih =>
    simp only [List.mapM_cons, bind_eq_error, pure_ne_error, and_false, exists_false,
      or_false] at h
    rcases h with h | ⟨_, -, h⟩
    · exact ⟨a, by simp, h⟩
    · obtain ⟨b, hb, hg⟩ := ih h
      exact ⟨b, by simp [hb], hg⟩

section Yields

variable {bad : Prop} {P : α → Prop} {Q : β → Prop}

/-- The program yields a result with `P`, or fails, but that only if `bad`. -/
def Yields (bad : Prop) (x : Except ε α) (P : α → Prop) : Prop :=
  (∃ a, x = .ok a ∧ P a) ∨ bad ∧ ∃ e, x = .error e

theorem Yields.pure {a : α} (holds : P a) : Yields bad (Pure.pure a : Except ε α) P :=
  .inl ⟨a, rfl, holds⟩

theorem Yields.bind (first : Yields bad x P) (next : ∀ a, P a → Yields bad (f a) Q) :
    Yields bad (x >>= f) Q := by
  obtain ⟨a, rfl, holds⟩ | ⟨isBad, e, rfl⟩ := first
  · exact next a holds
  · exact .inr ⟨isBad, e, rfl⟩

theorem Yields.imp {P' : α → Prop} (yields : Yields bad x P) (weaker : ∀ a, P a → P' a) :
    Yields bad x P' :=
  Or.imp (fun ⟨a, isOk, holds⟩ => ⟨a, isOk, weaker a holds⟩) id yields

theorem yields_reject {c : Prop} [Decidable c] (only : c → bad) :
    Yields bad (reject c e : Except ε Unit) fun _ => ¬c := by
  by_cases refused : c
  · exact .inr ⟨only refused, e, reject_eq_error.mpr ⟨refused, rfl⟩⟩
  · exact .inl ⟨(), reject_eq_ok.mpr refused, refused⟩

end Yields

end Pure

end Effect
