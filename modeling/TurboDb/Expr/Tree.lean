import TurboDb.Library.Search
import TurboDb.Predicate

/-!
Expression trees, their bindings, and the operators they are compiled to.

A tree is what the parser makes of a scalar expression, with node number and
source offset of every node. Literals, session variables, cast targets and escape
clauses stand in it as read, failures included. How arithmetic, cast and pattern
operators are bound and evaluated is a parameter, and evaluation may keep a state.
-/

namespace TurboDb

open Effect Search

/-- Operators of the parser; `other` is one no scalar expression may use. -/
inductive Operator
  | eq | ne | lt | le | gt | ge | nullSafeEq | isNull | isNotNull | not | and | or
  | like | notLike | add | subtract | multiply | divide | integerDivide | modulo
  | positive | negate | exist | other
  deriving DecidableEq, Repr

inductive ArithmeticOp
  | add | subtract | multiply | positive | negate | absolute | sign | floor | ceil
  | divide | integerDivide | modulo | round | truncate
  deriving DecidableEq, Repr

def operatorOf : Operator → Option PredicateOp
  | .eq => some .equal
  | .ne => some .notEqual
  | .lt => some .less
  | .le => some .lessEqual
  | .gt => some .greater
  | .ge => some .greaterEqual
  | .nullSafeEq => some .nullSafeEqual
  | .isNull => some .isNull
  | .isNotNull => some .isNotNull
  | .not => some .not
  | .and => some .and
  | .or => some .or
  | _ => none

def arithmeticOf : Operator → Option ArithmeticOp
  | .add => some .add
  | .subtract => some .subtract
  | .multiply => some .multiply
  | .divide => some .divide
  | .integerDivide => some .integerDivide
  | .modulo => some .modulo
  | .positive => some .positive
  | .negate => some .negate
  | _ => none

def arithmeticBinary (op : ArithmeticOp) : Bool := op = .modulo || op = .round || op = .truncate

structure Arithmetic where
  op : ArithmeticOp
  left : SqlType
  right : SqlType
  result : SqlType
  deriving DecidableEq, Repr

inductive CastTarget
  | signed | unsigned | double | float
  deriving DecidableEq, Repr

structure Cast where
  source : SqlType
  result : SqlType
  target : CastTarget
  deriving DecidableEq, Repr

structure Like where
  left : SqlType
  right : SqlType
  result : SqlType
  escape : Option UInt8
  negated : Bool
  asciiInsensitive : Bool
  deriving DecidableEq, Repr

inductive SubqueryKind
  | scalar | exist | notExist | isIn | notIn
  deriving DecidableEq, Repr

structure Info where
  node : Nat
  offset : Nat
  deriving DecidableEq, Repr

inductive Leaf
  | name | parameter | null
  | session (resolved : Except Failure Nat)
  | boolean (value : Bool)
  | string (literal : Except Failure Value)
  | number (literal : Bool → Except Failure Value)

mutual

inductive Expr
  | leaf (info : Info) (leaf : Leaf)
  | unary (info : Info) (op : Operator) (operand : Expr)
  | binary (info : Info) (op : Operator) (escape : Option (Except Failure (Option UInt8)))
      (left right : Expr)
  | inList (info : Info) (negated : Bool) (value : Expr) (items : Exprs)
  /-- Membership in the rows of a query or a table. -/
  | inRows (info : Info) (negated table : Bool) (value : Expr)
  | between (info : Info) (negated : Bool) (value lower upper : Expr)
  | searchedCase (info : Info) (branches : Branches)
  | simpleCase (info : Info) (operand : Expr) (branches : Branches)
  | call (info : Info) (name : String) (distinct : Bool) (arguments : Exprs)
  | cast (info : Info) (target : Except Failure CastTarget) (expression : Expr)
  | subquery (info : Info)
  | window (info : Info)
  /-- A node of any other kind. -/
  | other (info : Info)

inductive Exprs
  | nil
  | cons (head : Expr) (tail : Exprs)

/-- The branches of a CASE, up to its ELSE. -/
inductive Branches
  | noElse
  | otherwise (result : Expr)
  | when (offset : Nat) (condition result : Expr) (rest : Branches)

end

def Expr.info : Expr → Info
  | .leaf info _ | .unary info _ _ | .binary info _ _ _ _ | .inList info _ _ _
  | .inRows info _ _ _ | .between info _ _ _ _ | .searchedCase info _ | .simpleCase info _ _
  | .call info _ _ _ | .cast info _ _ | .subquery info | .window info | .other info => info

def Exprs.length : Exprs → Nat
  | .nil => 0
  | .cons _ tail => tail.length + 1

structure Input where
  node : Nat
  type : SqlType
  replaceExpression : Bool
  deriving DecidableEq, Repr

structure Query where
  node : Nat
  kind : SubqueryKind
  result : SqlType
  element : SqlType
  deriving DecidableEq, Repr

structure Bindings where
  inputs : List Input
  queries : List Query
  /-- The escape of a LIKE without an escape clause. -/
  defaultEscape : Option UInt8

section Lookup

variable (b : Bindings) (node : Nat)

def findInput : Nat :=
  lowerBound (fun i => (b.inputs[i]?.map fun input => decide (input.node < node)).getD false)
    b.inputs.length

def findQuery : Nat :=
  lowerBound (fun i => (b.queries[i]?.map fun query => decide (query.node < node)).getD false)
    b.queries.length

def inputAt : Option (Nat × Input) :=
  let slot := findInput b node
  (b.inputs[slot]?.filter fun input => input.node = node).map (slot, ·)

def queryAt : Option (Nat × Query) :=
  let slot := findQuery b node
  (b.queries[slot]?.filter fun query => query.node = node).map (slot, ·)

def replacedAt : Option (Nat × Input) :=
  (inputAt b node).filter fun (_, input) => input.replaceExpression

end Lookup

abbrev EvalM (σ : Type) := StateT σ (Except Failure)

/-- The operators of the engine: how their operand types are bound and how they
are evaluated. `arithmetic` and `cast` include what they report to the
statement, `query` runs a subquery and checks its result. -/
structure Operators (σ : Type) where
  arithmeticBind : ArithmeticOp → SqlType → Option SqlType → Except Failure Arithmetic
  castBind : SqlType → CastTarget → Except Failure Cast
  likeBind : SqlType → SqlType → Option UInt8 → Bool → Except Failure Like
  sessionType : Nat → SqlType
  predicate : Predicate → Value → Option Value → EvalM σ Value
  arithmetic : Arithmetic → Value → Option Value → EvalM σ Value
  cast : Cast → Value → EvalM σ Value
  like : Like → Value → Value → EvalM σ Value
  realPromote : Value → EvalM σ Value
  session : Nat → EvalM σ Value
  query : Nat → Option (Value × Predicate) → EvalM σ Value

/-- Functions an expression may call. -/
inductive ExprFunction
  | coalesce | ifNull | nullIf | abs | sign | floor | ceil | mod | round | truncate
  deriving DecidableEq, Repr

def ExprFunction.named (name : String) : Option ExprFunction :=
  match name.map Char.toUpper with
  | "COALESCE" => some .coalesce
  | "IFNULL" => some .ifNull
  | "NULLIF" => some .nullIf
  | "ABS" => some .abs
  | "SIGN" => some .sign
  | "FLOOR" => some .floor
  | "CEIL" | "CEILING" => some .ceil
  | "MOD" => some .mod
  | "ROUND" => some .round
  | "TRUNCATE" => some .truncate
  | _ => none

def ExprFunction.arithmetic : ExprFunction → Option ArithmeticOp
  | .abs => some .absolute
  | .sign => some .sign
  | .floor => some .floor
  | .ceil => some .ceil
  | .mod => some .modulo
  | .round => some .round
  | .truncate => some .truncate
  | _ => none

def exprError (status : Status) (offset : Nat) (reason : String) : Failure :=
  ⟨status, s!"TidesDB SQL expression at byte {offset}: {reason}"⟩

def ExprFunction.arity (function : ExprFunction) : Nat :=
  if function.arithmetic.any (fun op => !arithmeticBinary op || function = .round) then 1 else 2

def ExprFunction.maximum (function : ExprFunction) : Nat :=
  if function = .round then 2 else function.arity

def resolveCall (offset : Nat) (name : String) (distinct : Bool) (count : Nat) :
    Except Failure ExprFunction := do
  let function ← given (ExprFunction.named name) (exprError .unsupported offset "unsupported function")
  reject (distinct = true) (exprError .unsupported offset "function DISTINCT is unsupported")
  reject (count = 0 ∨ (function ≠ .coalesce ∧ (count < function.arity ∨ count > function.maximum)))
    (exprError .sqlError offset "invalid function argument count")
  return function

end TurboDb
