import TurboDb.Library.ByteOrder
import TurboDb.Library.Effect

/-!
Readers of byte strings.

A reader takes the input from its cursor on and hands back a value with what is
left. It is local when it looks at nothing behind what it takes. Readers put
together from local ones are local, and one that must use up its input accepts no
input that extends another.
-/

namespace Reader

open ByteOrder Effect

variable {ε α β : Type}
variable {read : Bytes → Except ε (α × Bytes)}

/-- Input that follows is handed back untouched. -/
structure Local (read : Bytes → Except ε (α × Bytes)) : Prop where
  append : ∀ {input : Bytes} {a : α} {rest : Bytes}, read input = .ok (a, rest) →
    ∀ extra, read (input ++ extra) = .ok (a, rest ++ extra)

theorem local_pure (a : α) : Local fun input => (pure (a, input) : Except ε (α × Bytes)) := by
  refine ⟨fun {input a' rest} ok extra => ?_⟩
  obtain ⟨rfl, rfl⟩ := Prod.mk.inj (Except.ok.inj ok)
  rfl

theorem local_throw (e : ε) : Local fun _ => (throw e : Except ε (α × Bytes)) :=
  ⟨fun ok => nomatch ok⟩

theorem local_take (count : Nat) (e : ε) (f : Bytes → α) :
    Local fun input => (do
      Effect.reject (input.length < count) e
      pure (f (input.take count), input.drop count) : Except ε (α × Bytes)) := by
  refine ⟨fun {input a rest} ok extra => ?_⟩
  simp only [bind_eq_ok, reject_eq_ok, pure_eq_ok, Prod.mk.injEq, exists_unit, not_lt] at ok ⊢
  obtain ⟨enough, rfl, rfl⟩ := ok
  refine ⟨by rw [List.length_append]; omega, ?_, ?_⟩
  · rw [List.take_append_of_le_length enough]
  · rw [List.drop_append_of_le_length enough]

theorem Local.bind {next : α × Bytes → Except ε (β × Bytes)} (first : Local read)
    (later : ∀ a, Local fun rest => next (a, rest)) : Local fun input => read input >>= next := by
  refine ⟨fun {input b rest} ok extra => ?_⟩
  obtain ⟨⟨a, middle⟩, here, there⟩ := bind_eq_ok.mp ok
  rw [first.append here extra, ok_bind]
  exact (later a).append there extra

theorem Local.reject (c : Prop) [Decidable c] (e : ε)
    (later : Local read) : Local fun input => Effect.reject c e >>= fun _ => read input := by
  refine ⟨fun {input a rest} ok extra => ?_⟩
  obtain ⟨_, here, later'⟩ := bind_eq_ok.mp ok
  rw [here, ok_bind]
  exact later.append later' extra

theorem local_ite {left right : Bytes → Except ε (α × Bytes)} (c : Prop) [Decidable c]
    (hleft : Local left) (hright : Local right) :
    Local fun input => if c then left input else right input := by
  by_cases h : c
  · simpa only [if_pos h] using hleft
  · simpa only [if_neg h] using hright

/-- No accepted input is an initial part of another. -/
theorem Local.whole (h : Local read) {input extra : Bytes}
    {a b : α} (one : read input = .ok (a, [])) (two : read (input ++ extra) = .ok (b, [])) :
    extra = [] := by
  have := (h.append one extra).symm.trans two
  exact (Prod.mk.inj (Except.ok.inj this)).2

end Reader
