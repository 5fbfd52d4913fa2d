import TurboDb.Expr.Meaning

/-!
Code under construction and what becomes of it.

Code only grows, and stays as emitted except for the open jumps of the frames
under way, as `Keeps` says; `Agrees` says that a finished program has a piece of
code where it was emitted. Patching changes exactly the chain of open jumps.
-/

namespace TurboDb

open Effect Steps List

structure Keeps (links : List Nat) (code code' : List Instruction) : Prop where
  length_le : code.length ≤ code'.length
  get : ∀ i, i < code.length → i ∉ links → code'[i]? = code[i]?

/-- The program has the code from the given index on. -/
def Agrees (program : List Instruction) (start : Nat) (code : List Instruction) : Prop :=
  ∀ i, start ≤ i → i < code.length → program[i]? = code[i]?

variable {more : List Instruction} {i : Instruction}

section Layout

variable {links : List Nat} {code code' code'' program : List Instruction} {start start' : Nat}

theorem Keeps.refl : Keeps links code code := ⟨le_rfl, fun _ _ _ => rfl⟩

theorem Keeps.append : Keeps links code (code ++ more) where
  length_le := by simp
  get := fun i h _ => getElem?_append_left h

theorem Keeps.trans (first : Keeps links code code') (second : Keeps links code' code'') :
    Keeps links code code'' where
  length_le := Nat.le_trans first.length_le second.length_le
  get := fun i h closed =>
    (second.get i (h.trans_le first.length_le) closed).trans (first.get i h closed)

theorem Keeps.modify {index : Nat} {f : Instruction → Instruction} (isOpen : index ∈ links) :
    Keeps links code (code.modify index f) where
  length_le := by simp
  get := by
    intro i _ closed
    have other : index ≠ i := fun same => closed (same ▸ isOpen)
    simp [other]

theorem Keeps.drop {links' : List Nat} (h : Keeps links code code')
    (later : ∀ i ∈ links, i ∈ links' ∨ code.length ≤ i) : Keeps links' code code' where
  length_le := h.length_le
  get := by
    intro i lt closed
    refine h.get i lt fun isOpen => ?_
    obtain here | above := later i isOpen
    · exact closed here
    · omega

theorem Agrees.from (h : Agrees program start code) (le : start ≤ start') :
    Agrees program start' code := fun i above => h i (le.trans above)

theorem Agrees.of_keeps (h : Agrees program start code') (keeps : Keeps links code code')
    (outside : ∀ i ∈ links, i < start ∨ code.length ≤ i) : Agrees program start code := by
  intro i above lt
  rw [h i above (lt.trans_le keeps.length_le)]
  refine keeps.get i lt fun isOpen => ?_
  obtain below | beyond := outside i isOpen
  · omega
  · omega

theorem outside_of_before {stop : Nat} (before : ∀ l ∈ links, l < start) :
    ∀ l ∈ stop :: links, l < start ∨ stop ≤ l := by
  intro l member
  obtain rfl | member := mem_cons.mp member
  · exact .inr (Nat.le_refl l)
  · exact .inl (before l member)

theorem Agrees.of_append (h : Agrees program start (code ++ more)) : Agrees program start code :=
  h.of_keeps (Keeps.append : Keeps [] code (code ++ more)) (by simp)

theorem Agrees.last (h : Agrees program start (code ++ [i])) (le : start ≤ code.length) :
    program[code.length]? = some i := by
  rw [h _ le (by simp), getElem?_concat_length]

end Layout

theorem setTarget_spec {c c' : Compiler} {index target : Nat} (h : c.setTarget index target = c')
    (here : c.code[index]? = some i) :
    c'.code.length = c.code.length ∧ Keeps [index] c.code c'.code ∧
      c'.code[index]? = some { i with target := target } ∧ c'.registerCount = c.registerCount := by
  subst h
  refine ⟨?_, Keeps.modify mem_cons_self, ?_, rfl⟩
  · simp [Compiler.setTarget]
  · simp [Compiler.setTarget, here]

/-- The open jumps of a frame: each is before the one that links to it. -/
inductive Chain (code : List Instruction) : Nat → List Nat → Prop
  | nil : Chain code 0 []
  | cons {index : Nat} {i : Instruction} {links : List Nat} (here : code[index]? = some i)
      (before : ∀ l ∈ links, l < index) (rest : Chain code i.target links) :
      Chain code (index + 1) (index :: links)

theorem Instruction.patched_branch {op : PredicateOp} {kind : Kind} {target : Nat}
    (isBranch : i.opcode = .branch op) : i.patched kind target = { i with target := target } := by
  rw [Instruction.patched, isBranch]

section Chain

variable {code code' : List Instruction} {branch fuel target : Nat} {links : List Nat} {kind : Kind}

section H

variable (h : Chain code branch links)
include h

theorem Chain.branch_le {n : Nat} (below : ∀ l ∈ links, l < n) : branch ≤ n := by
  cases h with
  | nil => exact Nat.zero_le n
  | cons here before rest => exact below _ mem_cons_self

theorem Chain.lt_length : ∀ l ∈ links, l < code.length := by
  induction h with
  | nil => simp
  | cons here before rest ih =>
    intro l member
    obtain rfl | member := mem_cons.mp member
    · exact (List.getElem?_eq_some_iff.mp here).1
    · exact ih l member

theorem Chain.congr (same : ∀ l ∈ links, code'[l]? = code[l]?) : Chain code' branch links := by
  induction h with
  | nil => exact .nil
  | cons here before rest ih =>
    refine .cons ((same _ mem_cons_self).trans here) before ?_
    exact ih fun l member => same l (mem_cons_of_mem _ member)

theorem Chain.keeps (keeps : Keeps [] code code') : Chain code' branch links :=
  h.congr fun l member => keeps.get l (h.lt_length l member) (by simp)

/-- A jump emitted with the chain as its target heads the chain from then on. -/
theorem Chain.push (target : i.target = branch) :
    Chain (code ++ [i]) (code.length + 1) (code.length :: links) :=
  .cons getElem?_concat_length h.lt_length (target ▸ h.keeps Keeps.append)

/-- Patching ends every jump of the chain at the target and changes nothing else. -/
theorem getElem?_patchBranchChain (enough : branch ≤ fuel) (j : Nat) :
    (patchBranchChain kind target fuel branch code)[j]? =
      if j ∈ links then code[j]?.map (Instruction.patched kind target) else code[j]? := by
  induction links generalizing code branch fuel with
  | nil =>
    cases h
    cases fuel <;> simp [patchBranchChain]
  | cons index links ih =>
    cases h with
    | @cons _ i _ here before rest =>
      cases fuel with
      | zero => omega
      | succ fuel =>
        -- The rest of the chain lies before the jump patched here.
        have kept : Chain (code.set index (i.patched kind target)) i.target links :=
          rest.congr fun l member => getElem?_set_ne (before l member).ne'
        have bound : i.target ≤ fuel :=
          Nat.le_trans (rest.branch_le before) (Nat.le_of_succ_le_succ enough)
        have inside := (List.getElem?_eq_some_iff.mp here).1
        rw [patchBranchChain, if_neg (by omega)]
        simp only [Nat.add_sub_cancel, here]
        rw [ih kept bound]
        by_cases same : j = index
        · subst same
          have closed : j ∉ links := fun member => absurd (before j member) (by omega)
          rw [if_neg closed, if_pos mem_cons_self, getElem?_set_self inside, here]
          rfl
        · simp [same, getElem?_set_ne (Ne.symm same)]

end H

theorem length_patchBranchChain :
    (patchBranchChain kind target fuel branch code).length = code.length := by
  induction fuel generalizing branch code with
  | zero => rfl
  | succ fuel ih =>
    rw [patchBranchChain]
    split
    · rfl
    · split
      · rfl
      · rw [ih, length_set]

theorem Keeps.patchBranchChain (h : Chain code branch links) :
    Keeps links code (patchBranchChain kind target branch branch code) where
  length_le := by rw [length_patchBranchChain]
  get := by
    intro i _ closed
    rw [getElem?_patchBranchChain h le_rfl, if_neg closed]

end Chain

end TurboDb
