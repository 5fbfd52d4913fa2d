import Mathlib

/-!
Languages of replies that may be broken off.

A reply is a word over an alphabet of packets, of a language built from single
letters by products, powers and stars. No word goes on to be another one, so that
whoever reads a reply knows where it ends; this is what `PrefixFree` says, and it
survives the words that are broken off by a letter of their own.
-/

namespace Grammar

open Computability Language List

variable {α : Type} {l m : Language α} {p q : α → Prop} {a : α} {u v w : List α}

def letter (p : α → Prop) : Language α := {w | ∃ a, p a ∧ w = [a]}

theorem singleton_mem_letter : [a] ∈ letter p ↔ p a := by
  constructor
  · rintro ⟨b, hb, h⟩
    rwa [singleton_inj.mp h]
  · exact fun h => ⟨a, h, rfl⟩

theorem nil_notMem_letter : [] ∉ letter p := by
  rintro ⟨a, -, h⟩
  cases h

theorem head_of_letter_mul (mem : a :: w ∈ letter p * m) : p a := by
  obtain ⟨_, ⟨b, hb, rfl⟩, v, -, h⟩ := mem_mul.mp mem
  rwa [← (cons.inj h).1]

theorem nil_notMem_letter_mul : [] ∉ letter p * m := by
  intro mem
  obtain ⟨_, ⟨b, -, rfl⟩, v, -, h⟩ := mem_mul.mp mem
  cases h

/-- What may follow the letter `a` in a word of `l`. -/
def Advance (a : α) (l m : Language α) : Prop := ∀ w ∈ m, a :: w ∈ l

theorem Advance.mul (first : Advance a l m) (n : Language α) : Advance a (l * n) (m * n) := by
  intro w mem
  obtain ⟨u, hu, v, hv, rfl⟩ := mem_mul.mp mem
  exact append_mem_mul (first u hu) hv

theorem advance_letter (h : p a) : Advance a (letter p) 1 := by
  intro w mem
  rw [(mem_one w).mp mem]
  exact singleton_mem_letter.mpr h

theorem advance_letter_mul (h : p a) : Advance a (letter p * m) m := by
  simpa using (advance_letter h).mul m

theorem advance_pow (h : p a) {n : Nat} (pos : 0 < n) :
    Advance a (letter p ^ n * m) (letter p ^ (n - 1) * m) := by
  obtain ⟨k, rfl⟩ := Nat.exists_eq_add_of_lt pos
  rw [Nat.zero_add, Nat.add_sub_cancel, pow_succ', mul_assoc]
  exact advance_letter_mul h

theorem advance_star (h : p a) : Advance a ((letter p)∗ * m) ((letter p)∗ * m) := by
  intro w mem
  have more := advance_letter_mul h w mem
  refine mul_le_mul_left (le_of_eq_of_le rfl ?_) m (by rwa [← mul_assoc] at more)
  exact mul_kstar_le_kstar

theorem le_star_mul : m ≤ l∗ * m := by
  calc m = 1 * m := (one_mul m).symm
    _ ≤ l∗ * m := mul_le_mul_left one_le_kstar m

/-- The words that can stand behind `u` include those of `m`. -/
def Behind (u : List α) (l m : Language α) : Prop := ∀ w ∈ m, u ++ w ∈ l

theorem Behind.step {n : Language α} (behind : Behind u l m) (next : Advance a m n) :
    Behind (u ++ [a]) l n := by
  intro w mem
  rw [append_assoc]
  exact behind _ (next w mem)

theorem Behind.mono {n : Language α} (behind : Behind u l m) (le : n ≤ m) : Behind u l n :=
  fun w mem => behind w (le mem)

/-- The language has a word that is not empty. -/
def Proper (l : Language α) : Prop := ∃ w ∈ l, w ≠ []

theorem Proper.mono (proper : Proper l) (le : l ≤ m) : Proper m := by
  obtain ⟨w, mem, ne⟩ := proper
  exact ⟨w, le mem, ne⟩

theorem proper_letter (h : p a) : Proper (letter p) := ⟨[a], ⟨a, h, rfl⟩, by simp⟩

theorem Proper.mul (proper : Proper l) (some : v ∈ m) : Proper (l * m) := by
  obtain ⟨w, mem, ne⟩ := proper
  exact ⟨w ++ v, append_mem_mul mem some, by simp [ne]⟩

theorem exists_mem_pow (h : p a) (n : Nat) : replicate n a ∈ letter p ^ n := by
  induction n with
  | zero => exact nil_mem_one
  | succ n ih =>
    rw [pow_succ', replicate_succ]
    exact append_mem_mul (singleton_mem_letter.mpr h) ih

theorem proper_pow (h : p a) {n : Nat} (pos : 0 < n) : Proper (letter p ^ n) :=
  ⟨replicate n a, exists_mem_pow h n, by simp; omega⟩

/-- No word of the language goes on to be another one. -/
def PrefixFree (l : Language α) : Prop := ∀ u ∈ l, ∀ v, u ++ v ∈ l → v = []

theorem prefixFree_one : PrefixFree (1 : Language α) := by
  intro u hu v hv
  rw [mem_one] at hu hv
  simpa [hu] using hv

theorem prefixFree_letter : PrefixFree (letter p) := by
  rintro _ ⟨a, -, rfl⟩ v ⟨b, -, hb⟩
  exact (cons.inj hb).2

theorem PrefixFree.mul (hl : PrefixFree l) (hm : PrefixFree m) : PrefixFree (l * m) := by
  intro w mem v more
  obtain ⟨a, ha, b, hb, rfl⟩ := mem_mul.mp mem
  obtain ⟨c, hc, d, hd, eq⟩ := mem_mul.mp more
  rw [append_assoc] at eq
  -- Both words begin with a word of `l`, and neither of these goes on to be the other.
  rcases append_eq_append_iff.mp eq with ⟨e, rfl, rfl⟩ | ⟨e, rfl, tail⟩
  · obtain rfl := hl c hc e ha
    exact hm b hb v hd
  · obtain rfl := hl a ha e hc
    exact hm b hb v (by rwa [tail])

theorem PrefixFree.pow (hl : PrefixFree l) (n : Nat) : PrefixFree (l ^ n) := by
  induction n with
  | zero => exact prefixFree_one
  | succ n ih =>
    rw [pow_succ']
    exact hl.mul ih

theorem PrefixFree.add (hl : PrefixFree l) (hm : PrefixFree m) (nl : [] ∉ l) (nm : [] ∉ m)
    (apart : ∀ a u v, a :: u ∈ l → a :: v ∉ m) : PrefixFree (l + m) := by
  intro u hu v hv
  cases u with
  | nil =>
    rcases hu with hu | hu
    exacts [absurd hu nl, absurd hu nm]
  | cons a u =>
    rcases hu with hu | hu
    · rcases hv with hv | hv
      exacts [hl _ hu v hv, absurd hv (apart a u _ hu)]
    · rcases hv with hv | hv
      exacts [absurd hu (apart a _ u hv), hm _ hu v hv]

def union {ι : Type} (f : ι → Language α) : Language α := {w | ∃ i, w ∈ f i}

theorem prefixFree_union {ι : Type} {f : ι → Language α} (free : ∀ i, PrefixFree (f i))
    (nil : ∀ i, [] ∉ f i) (apart : ∀ i j a u v, a :: u ∈ f i → a :: v ∈ f j → i = j) :
    PrefixFree (union f) := by
  rintro u ⟨i, hu⟩ v ⟨j, hv⟩
  cases u with
  | nil => exact absurd hu (nil i)
  | cons a u =>
    obtain rfl := apart i j a u (u ++ v) hu hv
    exact free i _ hu v hv

/-- A repeated letter ends where the language behind it begins with another one. -/
theorem PrefixFree.star_mul (hm : PrefixFree m) (nil : [] ∉ m)
    (apart : ∀ a w, a :: w ∈ m → ¬p a) : PrefixFree ((letter p)∗ * m) := by
  have cases_ : ∀ {w : List α}, w ∈ (letter p)∗ * m →
      w ∈ m ∨ ∃ a w', p a ∧ w = a :: w' ∧ w' ∈ (letter p)∗ * m := by
    intro w mem
    rw [← one_add_self_mul_kstar_eq_kstar, add_mul, one_mul, mul_assoc] at mem
    rcases mem with mem | mem
    · exact .inl mem
    · obtain ⟨_, ⟨a, ha, rfl⟩, b, hb, rfl⟩ := mem_mul.mp mem
      exact .inr ⟨a, b, ha, rfl, hb⟩
  intro u
  induction u with
  | nil =>
    intro mem
    rcases cases_ mem with mem | ⟨a, w, -, h, -⟩
    · exact absurd mem nil
    · cases h
  | cons a u ih =>
    intro mem v more
    rcases cases_ mem with mem | ⟨b, w, hb, h, mem⟩
    · rcases cases_ more with more | ⟨c, w, hc, h, -⟩
      · exact hm _ mem v more
      · obtain ⟨rfl, -⟩ := cons.inj h
        exact absurd hc (apart _ _ mem)
    · obtain ⟨rfl, rfl⟩ := cons.inj h
      rcases cases_ more with more | ⟨c, w, hc, h, more⟩
      · exact absurd hb (apart _ _ more)
      · obtain ⟨rfl, rfl⟩ := cons.inj h
        exact ih mem v more

/-- No word of the language has a letter with the property. -/
def Avoids (p : α → Prop) (l : Language α) : Prop := ∀ w ∈ l, ∀ a ∈ w, ¬p a

theorem avoids_one : Avoids p (1 : Language α) := by
  intro w mem a ha
  rw [(mem_one w).mp mem] at ha
  cases ha

theorem avoids_letter (apart : ∀ a, q a → ¬p a) : Avoids p (letter q) := by
  rintro _ ⟨b, hb, rfl⟩ a mem
  rw [mem_singleton.mp mem]
  exact apart b hb

theorem Avoids.mul (hl : Avoids p l) (hm : Avoids p m) : Avoids p (l * m) := by
  intro w mem a ha
  obtain ⟨u, hu, v, hv, rfl⟩ := mem_mul.mp mem
  rcases mem_append.mp ha with ha | ha
  exacts [hl u hu a ha, hm v hv a ha]

theorem Avoids.add (hl : Avoids p l) (hm : Avoids p m) : Avoids p (l + m) := by
  intro w mem
  rcases mem with mem | mem
  exacts [hl w mem, hm w mem]

theorem avoids_union {ι : Type} {f : ι → Language α} (hf : ∀ i, Avoids p (f i)) :
    Avoids p (union f) := by
  rintro w ⟨i, mem⟩
  exact hf i w mem

theorem Avoids.pow (hl : Avoids p l) (n : Nat) : Avoids p (l ^ n) := by
  induction n with
  | zero => exact avoids_one
  | succ n ih =>
    exact ih.mul hl

theorem Avoids.star (hl : Avoids p l) : Avoids p l∗ := by
  intro w mem a ha
  obtain ⟨words, rfl, all⟩ := mem_kstar.mp mem
  obtain ⟨u, hu, ha⟩ := mem_flatten.mp ha
  exact hl u (all u hu) a ha

/-- The words of `l`, and those that a letter with the property breaks off before their end. -/
def interrupted (l : Language α) (p : α → Prop) : Language α :=
  {w | w ∈ l ∨ ∃ head rest a, rest ≠ [] ∧ head ++ rest ∈ l ∧ p a ∧ w = head ++ [a]}

theorem le_interrupted : l ≤ interrupted l p := fun _ mem => .inl mem

/-- A word that has been sent in part may be broken off. -/
theorem Behind.interrupt (behind : Behind u l m) (proper : Proper m) :
    Behind u (interrupted l p) (letter p) := by
  rintro _ ⟨a, ha, rfl⟩
  obtain ⟨rest, mem, ne⟩ := proper
  exact .inr ⟨u, rest, a, ne, behind rest mem, ha, rfl⟩

theorem PrefixFree.interrupted (free : PrefixFree l) (avoids : Avoids p l) :
    PrefixFree (interrupted l p) := by
  intro u hu v hv
  by_contra ne
  obtain ⟨init, last, rfl⟩ : ∃ init last, v = init ++ [last] :=
    ⟨v.dropLast, v.getLast ne, (dropLast_append_getLast ne).symm⟩
  rcases hv with whole | ⟨head, rest, a, more, mem, ha, eq⟩
  · rcases hu with hu | ⟨head, rest, a, more, mem, ha, rfl⟩
    · exact ne (free u hu _ whole)
    · exact avoids _ whole a (by simp) ha
  · rw [← append_assoc] at eq
    obtain ⟨eq, -⟩ := append_inj' eq rfl
    rcases hu with hu | ⟨head', rest', a', -, -, ha', rfl⟩
    · have := free u hu (init ++ rest) (by rwa [← append_assoc, eq])
      exact more (append_eq_nil_iff.mp this).2
    · exact avoids _ mem a' (by rw [← eq]; simp) ha'

end Grammar
