import TurboDb.Library.Steps
import TurboDb.Expr.Tree

/-!
The expression compiler.

Trees are compiled without recursion: a stack of frames holds the nodes under
way, and every step resumes the frame on top. It pushes the frame of a child or
finishes its own, leaving register and type of the value for the frame below. A
frame chains its open jumps through their targets and patches them once it knows
where they lead. Budget charges are left out, the capacities of stack and code
are not.
-/

namespace TurboDb

open Effect

inductive Opcode
  | constant (value : Value)
  | input (predicate : Predicate)
  | predicate (predicate : Predicate)
  | branch (op : PredicateOp)
  | caseSkip
  | moveJump (selection : Kind)
  | coalesce (selection : Kind)
  | nullIf
  | arithmetic (arithmetic : Arithmetic)
  | like (like : Like)
  | query (kind : SubqueryKind) (node : Nat) (result : SqlType) (comparison : Option Predicate)
  | cast (cast : Cast)
  | session (setting : Nat)
  deriving DecidableEq

structure Instruction where
  opcode : Opcode
  offset : Nat
  destination : Nat := 0
  left : Nat := 0
  right : Nat := 0
  target : Nat := 0
  slot : Nat := 0
  binary : Bool := false
  deriving DecidableEq

inductive Phase
  | enter | afterLeft | afterRight | afterValue | afterItem | afterLower | afterUpper
  | caseValue | caseCondition | caseResult | caseElse | callArgument | nullIfFirst | nullIfSecond
  | queryProbe | castValue
  deriving DecidableEq, Repr

structure ResultKinds where
  signed : Bool := false
  unsigned : Bool := false
  real : Bool := false
  deriving DecidableEq, Repr

/-- A node under way. `items` and `branches` are what is left of the list the
node goes through, beginning with the entry being compiled. -/
structure Frame where
  node : Expr
  phase : Phase := .enter
  destination : Nat := 0
  left : Nat := 0
  branch : Nat := 0
  scratch : Nat := 0
  skip : Nat := 0
  items : Exprs := .nil
  branches : Branches := .noElse
  leftType : SqlType := ⟨.null, false⟩
  accumulatedType : SqlType := ⟨.null, false⟩
  op : PredicateOp := .equal
  arithmetic : Option ArithmeticOp := none
  like : Bool := false
  escape : Option UInt8 := none
  resultKinds : ResultKinds := {}
  castTarget : CastTarget := .signed

structure Compiler where
  code : List Instruction := []
  registerCount : Nat := 0
  usedInputs : Nat := 0
  usedQueries : Nat := 0
  offset : Nat := 0
  lastRegister : Nat := 0
  lastType : SqlType := ⟨.null, false⟩
  usesSession : Bool := false

/-- How a step leaves its frame. -/
inductive Action
  | push (frame : Frame) (child : Expr)
  | finish (register : Nat) (type : SqlType)

structure Limits where
  depth : Nat
  code : Nat

def SubqueryKind.probe (kind : SubqueryKind) : Bool := kind = .isIn || kind = .notIn

def Exprs.head? : Exprs → Option Expr
  | .nil => none
  | .cons head _ => some head

def Branches.empty : Branches → Bool
  | .when _ _ _ _ => false
  | _ => true

def Exprs.tail : Exprs → Exprs
  | .nil => .nil
  | .cons _ tail => tail

abbrev Emitted := Except Failure (Compiler × Action)

def storageFailure : Failure :=
  exprError .limitExceeded 0 "expression container allocation/capacity failure"

section Emit

variable (limits : Limits)

def emit (c : Compiler) (instruction : Instruction) : Except Failure Compiler := do
  reject (limits.code ≤ c.code.length) storageFailure
  return { c with code := c.code ++ [instruction] }

def emitPredicate (c : Compiler) (op : PredicateOp) (destination left right : Nat)
    (leftType : SqlType) (rightType : Option SqlType) : Except Failure (Compiler × SqlType) := do
  let predicate ← predicateBind op leftType rightType
  let c ← emit limits c {
    opcode := .predicate predicate, offset := c.offset, destination, left, right
    binary := rightType.isSome }
  return (c, predicate.result)

def emitCompoundBranch (c : Compiler) (frame : Frame) (op : PredicateOp) :
    Except Failure (Compiler × Frame) := do
  let index := c.code.length
  let c ← emit limits c {
    opcode := .branch op, offset := c.offset, destination := frame.destination
    left := frame.destination, target := frame.branch }
  return (c, { frame with branch := index + 1 })

end Emit

def Compiler.setTarget (c : Compiler) (index target : Nat) : Compiler :=
  { c with code := c.code.modify index fun i => { i with target := target } }

def Instruction.patched (kind : Kind) (target : Nat) (i : Instruction) : Instruction :=
  { i with
    target
    opcode := match i.opcode with
      | .moveJump _ => .moveJump kind
      | .coalesce _ => .coalesce kind
      | opcode => opcode }

/-- Follows the chain of open jumps, given as index plus one with zero for its
end. Every link leads backwards, so the first bounds their number. -/
def patchBranchChain (kind : Kind) (target : Nat) :
    Nat → Nat → List Instruction → List Instruction
  | 0, _, code => code
  | fuel + 1, branch, code =>
    if branch = 0 then code
    else match code[branch - 1]? with
      | none => code
      | some i =>
        patchBranchChain kind target fuel i.target
          (code.set (branch - 1) (i.patched kind target))

def Compiler.patchBranchChain (c : Compiler) (frame : Frame) : Compiler :=
  let kind := frame.accumulatedType.kind
  { c with code := TurboDb.patchBranchChain kind c.code.length frame.branch frame.branch c.code }

section Nodes

variable {σ : Type} (b : Bindings) (limits : Limits) (ops : Operators σ)

def compileInput (c : Compiler) (frame : Frame) (slot : Nat) (input : Input) : Emitted := do
  let predicate ← predicateBind .isNull input.type none
  let c ← emit limits { c with usedInputs := c.usedInputs + 1 } {
    opcode := .input predicate, offset := c.offset, destination := frame.destination, slot }
  return (c, .finish frame.destination input.type)

def compileConstant (c : Compiler) (frame : Frame) (value : Value) : Emitted := do
  let c ← emit limits c {
    opcode := .constant value, offset := c.offset, destination := frame.destination }
  return (c, .finish frame.destination ⟨value.kind, value.kind = .null⟩)

def compileLeaf (c : Compiler) (frame : Frame) : Leaf → Emitted
  | .name | .parameter => do
    let (slot, input) ← given (inputAt b frame.node.info.node)
      (exprError .sqlError c.offset "unresolved expression input")
    compileInput limits c frame slot input
  | .session resolved => do
    let setting ← resolved
    let c ← emit limits { c with usesSession := true } {
      opcode := .session setting, offset := c.offset, destination := frame.destination }
    return (c, .finish frame.destination (ops.sessionType setting))
  | .null => compileConstant limits c frame .null
  | .boolean value => compileConstant limits c frame (.bool value)
  | .string literal => do
    let value ← literal
    compileConstant limits c frame value
  | .number literal => do
    let value ← literal false
    compileConstant limits c frame value

/-- A signed number is one literal, although its parts are two nodes. -/
def compileSigned (depth : Nat) (c : Compiler) (frame : Frame) (op : Operator)
    (literal : Bool → Except Failure Value) : Emitted := do
  reject (limits.depth ≤ depth) (exprError .limitExceeded c.offset "expression depth exceeded")
  let value ← literal (op = .negate)
  compileConstant limits c frame value

/-- The comparison of a looked up value with the elements of a query. -/
def compileProbe (c : Compiler) (query : Query) : Except Failure (Option Predicate) :=
  if query.kind.probe then some <$> predicateBind .equal c.lastType (some query.element)
  else .ok none

def compileQuery (c : Compiler) (frame : Frame) (slot : Nat) (query : Query) : Emitted :=
  if query.kind.probe ∧ frame.phase = .enter then
    match frame.node with
    | .inRows _ _ _ value => .ok (c, .push { frame with phase := .queryProbe } value)
    | _ => .error (exprError .invalidArgument 0 "query binding does not match its AST operation")
  else do
    let comparison ← compileProbe c query
    let validator ← predicateBind .isNull query.result none
    let c ← emit limits c {
      opcode := .query query.kind query.node validator.left comparison, offset := c.offset
      destination := frame.destination, slot
      left := if query.kind.probe then c.lastRegister else 0, binary := query.kind.probe }
    return ({ c with usedQueries := c.usedQueries + 1 }, .finish frame.destination query.result)

def finishCompound (c : Compiler) (frame : Frame) (negated : Bool) : Emitted :=
  let c := c.patchBranchChain frame
  if negated then do
    let (c, type) ← emitPredicate limits c .not frame.destination frame.destination 0
      frame.accumulatedType none
    return (c, .finish frame.destination type)
  else .ok (c, .finish frame.destination frame.accumulatedType)

/-- `compile_compound` for a list: the destination collects the disjunction of
the comparisons, of which each goes through the scratch register. -/
def compileList (c : Compiler) (frame : Frame) (negated : Bool) (value : Expr) (items : Exprs) :
    Emitted :=
  match frame.phase with
  | .enter => do
    reject (items.length = 0) (exprError .unsupported c.offset "IN requires a nonempty scalar list")
    return ({ c with registerCount := c.registerCount + 1 },
      .push { frame with scratch := c.registerCount, phase := .afterValue } value)
  | .afterValue => do
    let item ← given items.head? (exprError .invalidArgument c.offset "invalid IN list")
    let frame := { frame with
      left := c.lastRegister, leftType := c.lastType, items, accumulatedType := ⟨.boolean, false⟩ }
    let c ← emit limits c {
      opcode := .constant (.bool false), offset := c.offset, destination := frame.destination }
    return (c, .push { frame with phase := .afterItem } item)
  | _ => do
    let (c, comparison) ← emitPredicate limits c .equal frame.scratch frame.left c.lastRegister
      frame.leftType (some c.lastType)
    let (c, accumulated) ← emitPredicate limits c .or frame.destination frame.destination
      frame.scratch frame.accumulatedType (some comparison)
    let frame := { frame with accumulatedType := accumulated, items := frame.items.tail }
    match frame.items.head? with
    | some item => do
      let (c, frame) ← emitCompoundBranch limits c frame .or
      return (c, .push frame item)
    | none => finishCompound limits c frame negated

/-- BETWEEN compares three types: one real among them makes both comparisons real. -/
def realBetween (value lower upper : Kind) : Bool :=
  value ≠ .null && [value, lower, upper].any (· = .double)

def Instruction.predicateRight (i : Instruction) : Kind :=
  match i.opcode with
  | .predicate predicate => predicate.right.kind
  | _ => .null

def Instruction.setReal (i : Instruction) : Instruction :=
  { i with
    opcode := match i.opcode with
      | .predicate predicate => .predicate { predicate with realComparison := true }
      | opcode => opcode }

def Compiler.setReal (c : Compiler) (index : Nat) : Compiler :=
  { c with code := c.code.modify index Instruction.setReal }

/-- Both comparisons of a range are real, or each is as it was bound. -/
def Compiler.aggregateReal (c : Compiler) (real : Bool) (lower upper : Nat) : Compiler :=
  if real then (c.setReal lower).setReal upper else c

/-- `compile_compound` for BETWEEN. -/
def compileBetween (c : Compiler) (frame : Frame) (negated : Bool) (value lower upper : Expr) :
    Emitted :=
  match frame.phase with
  | .enter =>
    .ok ({ c with registerCount := c.registerCount + 1 },
      .push { frame with scratch := c.registerCount, phase := .afterValue } value)
  | .afterValue =>
    .ok (c, .push { frame with
      left := c.lastRegister, leftType := c.lastType, phase := .afterLower } lower)
  | .afterLower => do
    let frame := { frame with skip := c.code.length }
    let (c, comparison) ← emitPredicate limits c .greaterEqual frame.destination frame.left
      c.lastRegister frame.leftType (some c.lastType)
    let (c, frame) ← emitCompoundBranch limits c { frame with accumulatedType := comparison } .and
    return (c, .push { frame with phase := .afterUpper } upper)
  | _ => do
    let first := (c.code[frame.skip]?.map Instruction.predicateRight).getD .null
    let real := realBetween frame.leftType.kind first c.lastType.kind
    reject (real = true ∧ [frame.leftType.kind, first, c.lastType.kind].any
        (fun kind => kind ≠ .null && !assignmentNumeric kind) = true)
      (exprError .unsupported c.offset "real BETWEEN requires three numeric or NULL operands")
    let index := c.code.length
    let (c, comparison) ← emitPredicate limits c .lessEqual frame.scratch frame.left
      c.lastRegister frame.leftType (some c.lastType)
    let c := c.aggregateReal real frame.skip index
    let (c, accumulated) ← emitPredicate limits c .and frame.destination frame.destination
      frame.scratch frame.accumulatedType (some comparison)
    finishCompound limits c { frame with accumulatedType := accumulated } negated

def resultNumericKind (kind : Kind) : ResultKinds :=
  { signed := kind = .int64, unsigned := kind = .uint64, real := kind = .double }

def ResultKinds.union (a b : ResultKinds) : ResultKinds :=
  ⟨a.signed || b.signed, a.unsigned || b.unsigned, a.real || b.real⟩

/-- A later real result makes a mixture of integers representable, so that is
not refused here. -/
def mergeResultType (c : Compiler) (frame : Frame) : Except Failure Frame := do
  let type := frame.accumulatedType
  reject (type.kind ≠ .null ∧ c.lastType.kind ≠ .null ∧ type.kind ≠ c.lastType.kind ∧
      (assignmentNumeric type.kind = false ∨ assignmentNumeric c.lastType.kind = false))
    (exprError .unsupported c.offset "conditional result conversion is unsupported")
  let resultKinds := frame.resultKinds.union (resultNumericKind c.lastType.kind)
  let kind := if type.kind = .null then c.lastType.kind else type.kind
  return { frame with
    resultKinds
    accumulatedType := {
      kind := if resultKinds.real then .double else kind
      nullable := type.nullable || c.lastType.nullable } }

def finishSelection (c : Compiler) (frame : Frame) : Emitted := do
  reject (frame.resultKinds = { signed := true, unsigned := true })
    (exprError .unsupported c.offset "mixed signed/unsigned conditional results require DECIMAL")
  return (c.patchBranchChain frame, .finish frame.destination frame.accumulatedType)

def emitCaseResult (c : Compiler) (frame : Frame) : Except Failure (Compiler × Frame) := do
  let frame ← mergeResultType c frame
  let index := c.code.length
  let c ← emit limits c {
    opcode := .moveJump .null, offset := c.offset, destination := frame.destination
    left := c.lastRegister, target := frame.branch }
  return (c, { frame with branch := index + 1 })

def nextCaseBranch (c : Compiler) (frame : Frame) : Emitted :=
  match frame.branches with
  | .when _ condition _ _ => .ok (c, .push { frame with phase := .caseCondition } condition)
  | .otherwise result => .ok (c, .push { frame with phase := .caseElse } result)
  | .noElse => do
    let c ← emit limits c {
      opcode := .constant .null, offset := c.offset, destination := frame.destination }
    let type := { frame.accumulatedType with nullable := true }
    finishSelection c { frame with accumulatedType := type }

/-- The register that decides a branch: the condition itself, or its comparison
with the operand of the CASE. -/
def caseCondition (c : Compiler) (frame : Frame) (simple : Bool) :
    Except Failure (Compiler × Nat) :=
  if simple then do
    let (c, _) ← emitPredicate limits c .equal frame.scratch frame.left c.lastRegister
      frame.leftType (some c.lastType)
    return (c, frame.scratch)
  else do
    reject (booleanType c.lastType.kind = false)
      (exprError .unsupported c.offset "CASE condition requires BOOL or NULL")
    return (c, c.lastRegister)

def compileCase (c : Compiler) (frame : Frame) (operand : Option Expr) (branches : Branches) :
    Emitted :=
  match frame.phase with
  | .enter => do
    reject (branches.empty = true)
      (exprError .invalidArgument c.offset "CASE requires WHEN branches")
    let frame := { frame with branches }
    match operand with
    | some operand =>
      return ({ c with registerCount := c.registerCount + 1 },
        .push { frame with scratch := c.registerCount, phase := .caseValue } operand)
    | none => nextCaseBranch limits c frame
  | .caseValue =>
    nextCaseBranch limits c { frame with left := c.lastRegister, leftType := c.lastType }
  | .caseElse => do
    let (c, frame) ← emitCaseResult limits c frame
    finishSelection c frame
  | phase =>
    match frame.branches with
    | .when offset _ result rest => do
      let c := { c with offset }
      if phase = .caseCondition then do
        let (c, condition) ← caseCondition limits c frame operand.isSome
        let frame := { frame with skip := c.code.length, phase := .caseResult }
        let c ← emit limits c { opcode := .caseSkip, offset := c.offset, left := condition }
        return (c, .push frame result)
      else do
        let (c, frame) ← emitCaseResult limits c frame
        let c := c.setTarget frame.skip c.code.length
        nextCaseBranch limits c { frame with branches := rest }
    | _ => .error (exprError .invalidArgument c.offset "invalid CASE branch")

def compileArithmetic (c : Compiler) (frame : Frame) (op : ArithmeticOp) (binary : Bool) :
    Emitted := do
  let arithmetic ← ops.arithmeticBind op (if binary then frame.leftType else c.lastType)
    (if binary then some c.lastType else none)
  let c ← emit limits c {
    opcode := .arithmetic arithmetic, offset := c.offset, destination := frame.destination
    left := if binary then frame.left else c.lastRegister, right := c.lastRegister, binary }
  return (c, .finish frame.destination arithmetic.result)

def defaultPrecision (c : Compiler) : Except Failure Compiler :=
  emit limits { c with
      registerCount := c.registerCount + 1
      lastRegister := c.registerCount
      lastType := ⟨.int64, false⟩ } {
    opcode := .constant (.int64 0), offset := c.offset, destination := c.registerCount }

def compileArithmeticCall (c : Compiler) (frame : Frame) (op : ArithmeticOp) (count : Nat) :
    Emitted :=
  let saved := { frame with left := c.lastRegister, leftType := c.lastType }
  match arithmeticBinary op, frame.items.head? with
  | true, some item => .ok (c, .push saved item)
  | binary, _ =>
    if op = .round ∧ count = 1 then do
      let c ← defaultPrecision limits c
      compileArithmetic limits ops c saved op binary
    else compileArithmetic limits ops c frame op binary

def compileCoalesce (c : Compiler) (frame : Frame) : Emitted := do
  let nullable := frame.accumulatedType.nullable && c.lastType.nullable
  let frame ← mergeResultType c frame
  let type := { frame.accumulatedType with nullable := nullable }
  let index := c.code.length
  let c ← emit limits c {
    opcode := .coalesce .null, offset := c.offset, destination := frame.destination
    left := c.lastRegister, target := frame.branch }
  let frame := { frame with accumulatedType := type, branch := index + 1 }
  match frame.items.head? with
  | some item => return (c, .push frame item)
  | none => finishSelection c frame

def compileCall (c : Compiler) (frame : Frame) (name : String) (distinct : Bool)
    (arguments : Exprs) : Emitted :=
  match frame.phase with
  | .enter => do
    let function ← resolveCall c.offset name distinct arguments.length
    let argument ← given arguments.head?
      (exprError .invalidArgument c.offset "invalid function argument list")
    let phase := if function = .nullIf then .nullIfFirst else .callArgument
    return (c, .push { frame with
      items := arguments, accumulatedType := ⟨.null, true⟩
      arithmetic := function.arithmetic, phase } argument)
  | phase =>
    let frame := { frame with items := frame.items.tail }
    match frame.arithmetic, phase with
    | some op, _ => compileArithmeticCall limits ops c frame op arguments.length
    | none, .nullIfFirst => do
      let argument ← given frame.items.head?
        (exprError .invalidArgument c.offset "invalid function argument list")
      return ({ c with registerCount := c.registerCount + 1 }, .push { frame with
        left := c.lastRegister, leftType := c.lastType, scratch := c.registerCount
        phase := .nullIfSecond } argument)
    | none, .nullIfSecond => do
      let (c, _) ← emitPredicate limits c .equal frame.scratch frame.left c.lastRegister
        frame.leftType (some c.lastType)
      let c ← emit limits c {
        opcode := .nullIf, offset := c.offset, destination := frame.destination
        left := frame.left, right := frame.scratch }
      return (c, .finish frame.destination ⟨frame.leftType.kind, true⟩)
    | none, _ => compileCoalesce limits c frame

def compileCast (c : Compiler) (frame : Frame) (target : Except Failure CastTarget)
    (expression : Expr) : Emitted :=
  match frame.phase with
  | .enter => do
    let castTarget ← target
    return (c, .push { frame with castTarget, phase := .castValue } expression)
  | _ => do
    let cast ← ops.castBind c.lastType frame.castTarget
    let c ← emit limits c {
      opcode := .cast cast, offset := c.offset, destination := frame.destination
      left := c.lastRegister }
    return (c, .finish frame.destination cast.result)

def compileLike (c : Compiler) (frame : Frame) (negated : Bool) : Emitted := do
  let like ← ops.likeBind frame.leftType c.lastType frame.escape negated
  let c ← emit limits c {
    opcode := .like like, offset := c.offset, destination := frame.destination
    left := frame.left, right := c.lastRegister, binary := true }
  return (c, .finish frame.destination like.result)

def PredicateOp.shortCircuit (op : PredicateOp) : Bool := op = .and || op = .or

/-- A predicate whose operands are compiled. The jump over the right operand of
a conjunction or disjunction ends behind it. -/
def compilePredicate (c : Compiler) (frame : Frame) (binary : Bool) : Emitted := do
  let predicate ← predicateBind frame.op (if binary then frame.leftType else c.lastType)
    (if binary then some c.lastType else none)
  let c ← emit limits c {
    opcode := .predicate predicate, offset := c.offset, destination := frame.destination
    left := if binary then frame.left else c.lastRegister, right := c.lastRegister, binary }
  let c := if binary && frame.op.shortCircuit then c.setTarget frame.branch c.code.length else c
  return (c, .finish frame.destination predicate.result)

def compileOperator (c : Compiler) (frame : Frame) (binary negated : Bool) : Emitted :=
  if frame.like then compileLike limits ops c frame negated
  else match frame.arithmetic with
    | some op => compileArithmetic limits ops c frame op binary
    | none => compilePredicate limits c frame binary

def classify (c : Compiler) (frame : Frame) (op : Operator) : Except Failure Frame :=
  match arithmeticOf op, operatorOf op with
  | some arithmetic, _ => .ok { frame with arithmetic := some arithmetic, phase := .afterLeft }
  | none, some op => .ok { frame with op, phase := .afterLeft }
  | none, none => .error (exprError .unsupported c.offset "unsupported predicate AST")

def Operator.sign (op : Operator) : Bool := op = .negate || op = .positive

def Expr.number? : Expr → Option (Bool → Except Failure Value)
  | .leaf _ (.number literal) => some literal
  | _ => none

def compileUnary (depth : Nat) (c : Compiler) (frame : Frame) (op : Operator) (operand : Expr) :
    Emitted :=
  match frame.phase with
  | .enter =>
    match op.sign, operand.number? with
    | true, some literal => compileSigned limits depth c frame op literal
    | _, _ => do
      let frame ← classify c frame op
      return (c, .push frame operand)
  | _ => compileOperator limits ops c frame false false

def Operator.isLike (op : Operator) : Bool := op = .like || op = .notLike

/-- The escape of a pattern, by default that of the session. -/
def compileEscape (escape : Option (Except Failure (Option UInt8))) :
    Except Failure (Option UInt8) :=
  escape.getD (.ok b.defaultEscape)

def enterBinary (c : Compiler) (frame : Frame) (op : Operator)
    (escape : Option (Except Failure (Option UInt8))) : Except Failure Frame := do
  reject (escape.isSome = true ∧ op.isLike = false)
    (exprError .unsupported c.offset "unsupported predicate escape")
  if op.isLike then do
    let escape ← compileEscape b escape
    return { frame with like := true, escape, phase := .afterLeft }
  else classify c frame op

def enterRight (c : Compiler) (frame : Frame) : Except Failure (Compiler × Frame) :=
  if !frame.like && frame.arithmetic.isNone && frame.op.shortCircuit then do
    let index := c.code.length
    let c ← emit limits c {
      opcode := .branch frame.op, offset := c.offset, destination := frame.destination
      left := frame.left }
    return (c, { frame with branch := index })
  else .ok (c, frame)

def compileBinary (c : Compiler) (frame : Frame) (op : Operator)
    (escape : Option (Except Failure (Option UInt8))) (left right : Expr) : Emitted :=
  match frame.phase with
  | .enter => do
    let frame ← enterBinary b c frame op escape
    return (c, .push frame left)
  | .afterLeft => do
    let frame := { frame with left := c.lastRegister, leftType := c.lastType }
    let (c, frame) ← enterRight limits c frame
    return (c, .push { frame with phase := .afterRight } right)
  | _ => compileOperator limits ops c frame true (op = .notLike)

def compileNode (depth : Nat) (c : Compiler) (frame : Frame) : Emitted :=
  match frame.node with
  | .cast _ target expression => compileCast limits ops c frame target expression
  | .call _ name distinct arguments => compileCall limits ops c frame name distinct arguments
  | .searchedCase _ branches => compileCase limits c frame none branches
  | .simpleCase _ operand branches => compileCase limits c frame (some operand) branches
  | .inList _ negated value items => compileList limits c frame negated value items
  | .inRows _ _ _ _ =>
    .error (exprError .unsupported c.offset "IN requires a nonempty scalar list")
  | .between _ negated value lower upper =>
    compileBetween limits c frame negated value lower upper
  | .leaf _ leaf => compileLeaf b limits ops c frame leaf
  | .unary _ op operand => compileUnary limits ops depth c frame op operand
  | .binary _ op escape left right => compileBinary b limits ops c frame op escape left right
  | .subquery _ | .window _ | .other _ =>
    .error (exprError .unsupported c.offset "unsupported predicate AST")

/-- One resumption of the frame on top of a stack of the given depth. -/
def resume (depth : Nat) (c : Compiler) (frame : Frame) : Emitted :=
  let c := { c with offset := frame.node.info.offset }
  let node := frame.node.info.node
  match frame.phase with
  | .enter =>
    let frame := { frame with destination := c.registerCount }
    let c := { c with registerCount := c.registerCount + 1 }
    match replacedAt b node, queryAt b node with
    | some (slot, input), _ => compileInput limits c frame slot input
    | none, some (slot, query) => compileQuery limits c frame slot query
    | none, none => compileNode b limits ops depth c frame
  | _ =>
    match queryAt b node with
    | some (slot, query) => compileQuery limits c frame slot query
    | none => compileNode b limits ops depth c frame

/-- A push onto a full stack fails, as every other container does. -/
def compileStep : Compiler × List Frame → Except Failure (Option (Compiler × List Frame))
  | (_, []) => .ok none
  | (c, frame :: stack) => do
    let (c, action) ← resume b limits ops (stack.length + 1) c frame
    match action with
    | .push frame child => do
      reject (limits.depth ≤ stack.length + 1) storageFailure
      return some (c, { node := child } :: frame :: stack)
    | .finish register type =>
      return some ({ c with lastRegister := register, lastType := type }, stack)

def exprSubstitutionKind : Expr → Bool
  | .leaf _ .name | .leaf _ .parameter | .subquery _ | .other _ => false
  | _ => true

end Nodes

structure Program where
  code : List Instruction
  registerCount : Nat
  resultRegister : Nat
  result : SqlType
  inputCount : Nat
  queryCount : Nat
  usesSession : Bool

section Compile

variable {σ : Type} (document : Nat → Option Expr) (b : Bindings) (ops : Operators σ)

def Expr.isName : Expr → Bool
  | .leaf _ .name | .leaf _ .parameter => true
  | _ => false

/-- The node of every input is of the right kind, and the nodes ascend. -/
def inputsValid : List Input → Bool
  | [] => true
  | input :: rest =>
    (document input.node).any
        (fun node => if input.replaceExpression then exprSubstitutionKind node else node.isName) &&
      rest.head?.all (fun next => input.node < next.node) && inputsValid rest

def SubqueryKind.matches (kind : SubqueryKind) (node : Expr) : Bool :=
  match kind, node with
  | .scalar, .subquery _ | .exist, .unary _ .exist _ | .notExist, .unary _ .not (.unary _ .exist _)
  | .isIn, .inRows _ false false _ | .notIn, .inRows _ true false _ => true
  | _, _ => false

def SubqueryKind.resultValid (kind : SubqueryKind) (result : SqlType) : Bool :=
  match kind with
  | .scalar => result.nullable
  | .isIn | .notIn => result.nullable && result.kind = .boolean
  | .exist | .notExist => !result.nullable && result.kind = .boolean

def exprValidateQuery (query : Query) : Except Failure Unit := do
  let node ← given ((document query.node).filter (query.kind.matches ·))
    (exprError .invalidArgument 0 "query binding does not match its AST operation")
  reject (query.kind.resultValid query.result = false)
    (exprError .typeError node.info.offset "invalid subquery result declaration")
  let _ ← predicateBind .isNull query.result none
  if query.kind.probe then
    let _ ← predicateBind .isNull query.element none

def exprValidateQueries : List Query → Except Failure Unit
  | [] => .ok ()
  | query :: rest => do
    exprValidateQuery document query
    reject (rest.head?.any (fun next => next.node ≤ query.node) = true)
      (exprError .invalidArgument 0 "query bindings must be strictly ordered")
    exprValidateQueries rest

def exprCheck (nodes root maxDepth : Nat) : Except Failure Expr := do
  reject (maxDepth = 0) (exprError .invalidArgument 0 "invalid compile arguments")
  let tree ← given (document root) (exprError .invalidArgument 0 "invalid expression root")
  reject (nodes = 0 ∨ 2 ^ 64 / 4 ≤ nodes ∨ nodes < b.inputs.length ∨
      nodes - b.inputs.length < b.queries.length)
    (exprError .limitExceeded 0 "expression size exceeded")
  reject (inputsValid document b.inputs = false)
    (exprError .invalidArgument 0 "invalid or unordered input bindings")
  exprValidateQueries document b.queries
  return tree

def exprLimits (nodes maxDepth : Nat) : Limits where
  depth := min maxDepth nodes
  code := nodes * 4

def exprFinish (predicate : Bool) (c : Compiler) : Except Failure Program := do
  reject (c.usedInputs ≠ b.inputs.length ∨ c.usedQueries ≠ b.queries.length)
    (exprError .invalidArgument c.offset "binding outside expression")
  reject (predicate = true ∧ booleanType c.lastType.kind = false)
    (exprError .unsupported c.offset "predicate root must be BOOL or NULL")
  return {
    code := c.code, registerCount := c.registerCount, resultRegister := c.lastRegister
    result := c.lastType, inputCount := b.inputs.length, queryCount := b.queries.length
    usesSession := c.usesSession }

/-- The whole compilation, with a bounded number of steps for its loop. A
failure keeps the message of the step that refused; the prefix that repeats its
offset is left out. -/
def exprCompile (fuel nodes root maxDepth : Nat) (predicate : Bool) :
    Option (Except Failure Program) :=
  match exprCheck document b nodes root maxDepth with
  | .error e => some (.error e)
  | .ok tree =>
    (Steps.run (compileStep b (exprLimits nodes maxDepth) ops) fuel ({}, [{ node := tree }])).map
      fun outcome => outcome.bind fun final => exprFinish b predicate final.1

end Compile

end TurboDb
