import Mathlib.Logic.Function.Basic
import TurboDb.Expr.Compiler

/-!
The register machine that runs compiled expressions.

A program has its own registers, NULL at the start, and a counter. An instruction
that fails keeps the status of its operator and adds the offset of its node to the
message. One rule for every opcode says which computation the machine continues
with.
-/

namespace TurboDb

open Effect Steps

abbrev Registers := Nat → Value

section Evaluate

variable {σ α : Type} (ops : Operators σ)

/-- A failure of the computation is reported at a byte of the statement. -/
def located (offset : Nat) (x : EvalM σ α) : EvalM σ α :=
  fun s => (x s).mapError fun e => exprError e.status offset e.message

def promote (selection : Kind) (value : Value) : EvalM σ Value :=
  if selection = .double ∧ integral value.kind = true then ops.realPromote value else pure value

end Evaluate

/-- The left operand alone decides a conjunction or disjunction. -/
def PredicateOp.decided (op : PredicateOp) (left : Value) : Bool :=
  left.kind = .boolean && left.truth = decide (op = .or)

section Run

variable {σ : Type} (ops : Operators σ) (inputs : List Value)

def execute (i : Instruction) (next : Nat) (registers : Registers) : EvalM σ (Nat × Registers) :=
  let left := registers i.left
  let right := if i.binary then some (registers i.right) else none
  let store (value : Value) := Function.update registers i.destination value
  match i.opcode with
  | .constant value => pure (next, store value)
  | .coalesce selection => do
    let value ← promote ops selection left
    pure (if left.kind = .null then next else i.target, store value)
  | .nullIf => pure (next, store (if (registers i.right).truth then .null else left))
  | .moveJump selection => do
    let value ← promote ops selection left
    pure (i.target, store value)
  | .caseSkip => pure (if left.truth then next else i.target, registers)
  | .branch op => pure (if op.decided left then (i.target, store left) else (next, registers))
  | .session setting => do
    let value ← ops.session setting
    pure (next, store value)
  | .query _ _ _ comparison => do
    let value ← ops.query i.slot (if i.binary then comparison.map (left, ·) else none)
    pure (next, store value)
  | .input predicate => do
    let value := inputs.getD i.slot .null
    let _ ← ops.predicate predicate value none
    pure (next, store value)
  | .like like => do
    let value ← ops.like like left (right.getD .null)
    pure (next, store value)
  | .cast cast => do
    let value ← ops.cast cast left
    pure (next, store value)
  | .arithmetic arithmetic => do
    let value ← ops.arithmetic arithmetic left right
    pure (next, store value)
  | .predicate predicate => do
    let value ← ops.predicate predicate left right
    pure (next, store value)

def exec (code : List Instruction) :
    (Nat × Registers) × σ → Except Failure (Option ((Nat × Registers) × σ))
  | ((pc, registers), s) =>
    match code[pc]? with
    | none => .ok none
    | some i => (located i.offset (execute ops inputs i (pc + 1) registers) s).map some

/-- One evaluation of a program, with a bounded number of instructions. -/
def exprRunEval (fuel : Nat) (program : Program) (s : σ) :
    Option (Except Failure (Value × σ)) :=
  if inputs.length ≠ program.inputCount then
    some (.error (exprError .invalidArgument 0 "invalid expression execution arguments"))
  else
    (run (exec ops inputs program.code) fuel ((0, fun _ => .null), s)).map fun outcome =>
      outcome.map fun ((_, registers), s) => (registers program.resultRegister, s)

end Run

section Rules

variable {σ α : Type} {ops : Operators σ} {inputs : List Value} {code : List Instruction}
  {pc : Nat} {registers : Registers} {i : Instruction} {post : α → Nat × Registers → Prop}

theorem located_bind_pure {β : Type} {offset : Nat} {x : EvalM σ α} {f : α → β} :
    located offset (do let a ← x; pure (f a)) = (do let a ← located offset x; pure (f a)) := by
  funext s
  change Except.mapError _ (x s >>= fun p => .ok (f p.1, p.2)) =
    (Except.mapError _ (x s) >>= fun p => .ok (f p.1, p.2))
  cases x s <;> rfl

/-- An instruction without an effect of its own leads to the state it computes. -/
theorem simulates_pure {x : EvalM σ α} {next : Nat × Registers} (here : code[pc]? = some i)
    (plain : execute ops inputs i (pc + 1) registers = pure next)
    (rest : Simulates (exec ops inputs code) next x post) :
    Simulates (exec ops inputs code) (pc, registers) x post := by
  refine Simulates.next (fun s => ?_) rest
  simp only [exec, here, plain]
  rfl

theorem simulates_effect {β : Type} {x : EvalM σ β} {f : β → EvalM σ α} {offset : Nat}
    {next : β → Nat × Registers} (here : code[pc]? = some i) (place : i.offset = offset)
    (effect : execute ops inputs i (pc + 1) registers = (do let a ← x; pure (next a)))
    (rest : ∀ a, Simulates (exec ops inputs code) (next a) (f a) post) :
    Simulates (exec ops inputs code) (pc, registers) (located offset x >>= f) post := by
  subst place
  have performed : Simulates (exec ops inputs code) (pc, registers) (located i.offset x)
      fun a k => k = next a := by
    refine Simulates.effect (fun s => ?_) (fun _ => rfl)
    simp only [exec, here, effect, located_bind_pure]
    change (located i.offset x s >>= fun p => .ok (next p.1, p.2)).map some = _
    cases located i.offset x s <;> rfl
  exact performed.bind fun a k same => same ▸ rest a

section Opcodes

variable {x : EvalM σ α} {f : Value → EvalM σ α} (here : code[pc]? = some i)
include here

theorem simulates_caseSkip (opcode : i.opcode = .caseSkip)
    (falls : (registers i.left).truth →
      Simulates (exec ops inputs code) (pc + 1, registers) x post)
    (jumps : (registers i.left).truth = false →
      Simulates (exec ops inputs code) (i.target, registers) x post) :
    Simulates (exec ops inputs code) (pc, registers) x post := by
  cases decided : (registers i.left).truth with
  | true =>
    exact simulates_pure here (by simp only [execute, opcode, decided]; rfl) (falls decided)
  | false =>
    exact simulates_pure here (by simp only [execute, opcode, decided]; rfl) (jumps decided)

theorem simulates_branch {op : PredicateOp} (opcode : i.opcode = .branch op)
    (falls : op.decided (registers i.left) = false →
      Simulates (exec ops inputs code) (pc + 1, registers) x post)
    (jumps : op.decided (registers i.left) →
      Simulates (exec ops inputs code)
        (i.target, Function.update registers i.destination (registers i.left)) x post) :
    Simulates (exec ops inputs code) (pc, registers) x post := by
  cases decided : op.decided (registers i.left) with
  | true =>
    exact simulates_pure here (by simp only [execute, opcode, decided]; rfl) (jumps decided)
  | false =>
    exact simulates_pure here (by simp only [execute, opcode, decided]; rfl) (falls decided)

theorem simulates_moveJump {selection : Kind} {v : Value} (opcode : i.opcode = .moveJump selection)
    (left : registers i.left = v)
    (rest : ∀ selected, Simulates (exec ops inputs code)
      (i.target, Function.update registers i.destination selected) (f selected) post) :
    Simulates (exec ops inputs code) (pc, registers)
      (located i.offset (promote ops selection v) >>= f) post :=
  simulates_effect here rfl (by simp only [execute, opcode, left]) rest

theorem simulates_coalesce {selection : Kind} {v : Value} (opcode : i.opcode = .coalesce selection)
    (left : registers i.left = v)
    (rest : ∀ selected, Simulates (exec ops inputs code)
      (if v.kind = .null then pc + 1 else i.target,
        Function.update registers i.destination selected) (f selected) post) :
    Simulates (exec ops inputs code) (pc, registers)
      (located i.offset (promote ops selection v) >>= f) post :=
  simulates_effect here rfl (by simp only [execute, opcode, left]) rest

theorem simulates_comparison {predicate : Predicate} {l r : Value}
    (rest : ∀ v, Simulates (exec ops inputs code)
      (pc + 1, Function.update registers i.destination v) (f v) post)
    (opcode : i.opcode = .predicate predicate) (binary : i.binary)
    (left : registers i.left = l) (right : registers i.right = r) :
    Simulates (exec ops inputs code) (pc, registers)
      (located i.offset (ops.predicate predicate l (some r)) >>= f) post :=
  simulates_effect here rfl (by simp only [execute, opcode, binary, left, right, if_true]) rest

end Opcodes

end Rules

end TurboDb
