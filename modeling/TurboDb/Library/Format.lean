import TurboDb.Library.ByteOrder
import TurboDb.Library.Effect

/-!
Canonical binary formats.

A printer and a parser are canonical for a class of values when parsing inverts
printing in front of any input, and what is parsed is a value of the class that
prints as the input consumed. Sequences are read element by element, and the
parser of an element may look at those before it. Fields of fixed width are cut
out of a record by place.
-/

namespace Format

open ByteOrder Effect List

variable {ε α : Type}

structure Canonical (valid : α → Prop) (print : α → Bytes)
    (parse : Bytes → Except ε (α × Bytes)) : Prop where
  parse_print : ∀ {a} (rest : Bytes), valid a → parse (print a ++ rest) = .ok (a, rest)
  print_parse : ∀ {input a rest}, parse input = .ok (a, rest) → valid a ∧ input = print a ++ rest

variable {input rest : Bytes} {d : UInt8} {done as : List α}

theorem Canonical.parse_eq_ok {valid : α → Prop} {print : α → Bytes}
    {parse : Bytes → Except ε (α × Bytes)} (canonical : Canonical valid print parse) {a : α} :
    parse input = .ok (a, rest) ↔ valid a ∧ input = print a ++ rest := by
  constructor
  · exact canonical.print_parse
  · intro h
    rw [h.2]
    exact canonical.parse_print rest h.1

/-- Read `n` more elements after those already read. -/
def parseList (parse : List α → Bytes → Except ε (α × Bytes)) :
    Nat → List α → Bytes → Except ε (List α × Bytes)
  | 0, done, input => .ok (done, input)
  | n + 1, done, input => do
    let (a, rest) ← parse done input
    parseList parse n (done ++ [a]) rest

def ValidFrom (valid : List α → α → Prop) : List α → List α → Prop
  | _, [] => True
  | done, a :: rest => valid done a ∧ ValidFrom valid (done ++ [a]) rest

/-- The bytes of a field at a fixed place of a record. -/
def field (data : Bytes) (offset width : Nat) : Bytes := (data.drop offset).take width

section Field

variable {data before bytes : Bytes} {offset width : Nat}

theorem take_append_field (data : Bytes) (offset width : Nat) :
    data.take offset ++ field data offset width = data.take (offset + width) :=
  take_add.symm

theorem length_field (span : offset + width ≤ data.length) :
    (field data offset width).length = width := by
  rw [field, length_take, length_drop]
  omega

theorem drop_eq_getD_cons (inside : offset < data.length) :
    data.drop offset = data.getD offset d :: data.drop (offset + 1) := by
  have byte : data.getD offset d = data[offset] := by simp [getD, inside]
  rw [byte]
  exact drop_eq_getElem_cons inside

theorem field_one (inside : offset < data.length) : field data offset 1 = [data.getD offset d] := by
  rw [field, drop_eq_getD_cons inside]
  rfl

theorem getD_append_cons {byte : UInt8} (place : before.length = offset) (after : Bytes) :
    (before ++ byte :: after).getD offset d = byte := by
  subst place
  simp [getD]

theorem field_append (place : before.length = offset) (exact : bytes.length = width)
    (after : Bytes) : field (before ++ (bytes ++ after)) offset width = bytes := by
  rw [field, drop_left' place, take_left' exact]

theorem field_drop (data : Bytes) (start offset width : Nat) :
    field data (start + offset) width = field (data.drop start) offset width := by
  rw [field, field, drop_drop]

end Field

section Sequence

variable {valid : List α → α → Prop} {print : α → Bytes}
  {parse : List α → Bytes → Except ε (α × Bytes)}

theorem parseList_print (canonical : ∀ done, Canonical (valid done) print (parse done))
    (h : ValidFrom valid done as) (rest : Bytes) :
    parseList parse as.length done (as.flatMap print ++ rest) = .ok (done ++ as, rest) := by
  induction as generalizing done with
  | nil => simp [parseList]
  | cons a as ih =>
    have head := (canonical done).parse_print (as.flatMap print ++ rest) h.1
    simp only [flatMap_cons, append_assoc, length_cons, parseList, head]
    simpa using ih h.2

theorem print_parseList (canonical : ∀ done, Canonical (valid done) print (parse done)) {n : Nat}
    {all : List α} (h : parseList parse n done input = .ok (all, rest)) :
    ∃ as, as.length = n ∧ all = done ++ as ∧ ValidFrom valid done as ∧
      input = as.flatMap print ++ rest := by
  induction n generalizing done input with
  | zero =>
    simp only [parseList, Except.ok.injEq, Prod.mk.injEq] at h
    exact ⟨[], rfl, by simp [h.1], trivial, by simp [h.2]⟩
  | succ n ih =>
    simp only [parseList, bind_eq_ok] at h
    obtain ⟨⟨a, middle⟩, head, tail⟩ := h
    obtain ⟨ha, rfl⟩ := (canonical done).print_parse head
    obtain ⟨as, rfl, rfl, has, rfl⟩ := ih tail
    exact ⟨a :: as, rfl, by simp, ⟨ha, has⟩, by simp⟩

end Sequence

theorem length_flatMap_fixed {print : α → Bytes} {width : Nat}
    (fixed : ∀ a, (print a).length = width) (as : List α) :
    (as.flatMap print).length = as.length * width := by
  induction as with
  | nil => simp
  | cons a as ih => simp [fixed, ih, Nat.succ_mul, Nat.add_comm]

theorem field_flatMap_fixed {print : α → Bytes} {width i : Nat} {a : α}
    (fixed : ∀ a, (print a).length = width) (found : as[i]? = some a) :
    field (as.flatMap print) (i * width) width = print a := by
  induction as generalizing i with
  | nil => simp at found
  | cons head as ih =>
    rw [flatMap_cons]
    cases i with
    | zero =>
      obtain rfl : head = a := by simpa using found
      rw [zero_mul, field, drop_zero, take_left' (fixed head)]
    | succ i =>
      rw [Nat.succ_mul, Nat.add_comm, field, ← drop_drop, drop_left' (fixed head)]
      exact ih found

theorem validFrom_iff {valid : List α → α → Prop} :
    ValidFrom valid done as ↔ ∀ i a, as[i]? = some a → valid (done ++ as.take i) a := by
  induction as generalizing done with
  | nil => simp [ValidFrom]
  | cons a as ih =>
    rw [ValidFrom, ih]
    constructor
    · rintro ⟨head, tail⟩ i b hb
      cases i with
      | zero =>
        obtain rfl : a = b := by simpa using hb
        simpa using head
      | succ i => simpa using tail i b (by simpa using hb)
    · intro h
      exact ⟨by simpa using h 0 a rfl, fun i b hb => by simpa using h (i + 1) b hb⟩

theorem version_ite {version first second : UInt8}
    (known : ¬(version ≠ first ∧ version ≠ second)) :
    (if decide (version = second) then second else first) = version := by
  by_cases h : version = second
  · rw [decide_eq_true h, if_pos rfl, h]
  · have : version = first := by
      by_contra other
      exact known ⟨other, h⟩
    rw [decide_eq_false h, if_neg Bool.false_ne_true, this]

theorem nodup_map_iff_take {β : Type} {key : α → β} :
    (as.map key).Nodup ↔ ∀ i a, as[i]? = some a → ∀ b ∈ as.take i, key a ≠ key b := by
  rw [List.Nodup, pairwise_map, pairwise_iff_getElem]
  constructor
  · intro distinct i a ha b hb same
    obtain ⟨hi, rfl⟩ := List.getElem?_eq_some_iff.mp ha
    obtain ⟨j, hj, rfl⟩ := mem_take_iff_getElem.mp hb
    exact distinct j i (by omega) hi (by omega) same.symm
  · intro distinct i j hi hj before same
    exact distinct j as[j] (getElem?_eq_getElem hj) as[i]
      (mem_take_iff_getElem.mpr ⟨i, by omega, rfl⟩) same.symm

end Format
