import TurboDb.Expr.Run

/-!
What an expression means.

The meaning of a tree is a type and a computation, put together from those of
its parts. Operands are evaluated from left to right, until the result is decided.
A selection has one kind for all its results, real as soon as one of them is, to
which integers are promoted. All this is said by cases of values, operators and
function names, apart from the tables of the compiler and the tests of the machine.
-/

namespace TurboDb

open Effect

structure Computation (σ : Type) where
  type : SqlType
  eval : EvalM σ Value

structure Choice (σ : Type) where
  offset : Nat
  condition : Computation σ
  result : Computation σ

section Parts

variable {σ : Type} (ops : Operators σ) (offset : Nat)

def selectionKind (kinds : List Kind) : Kind :=
  if .double ∈ kinds then .double else (kinds.find? (· ≠ .null)).getD .null

/-- An integer among the results of a real selection becomes real. -/
def selected (selection : Kind) (value : Value) : EvalM σ Value :=
  match selection, value.kind with
  | .double, .int64 => ops.realPromote value
  | .double, .uint64 => ops.realPromote value
  | _, _ => pure value

/-- The left operand settles a conjunction that it makes FALSE and a disjunction that it makes TRUE;
a malformed truth value is not TRUE. -/
def settles : PredicateOp → Value → Bool
  | .and, .boolean value => value = 0
  | .and, .malformed .boolean => true
  | .or, .boolean value => value ≠ 0
  | _, _ => false

def constantMeaning (value : Value) : Computation σ where
  type := ⟨value.kind, value.kind = .null⟩
  eval := pure value

def inputMeaning (inputs : List Value) (slot : Nat) (input : Input) :
    Except Failure (Computation σ) := do
  let check ← predicateBind .isNull input.type none
  let value := inputs.getD slot .null
  return {
    type := input.type
    eval := do
      let _ ← located offset (ops.predicate check value none)
      pure value }

/-- A query is given the value looked for in it, if there is one. -/
def queryMeaning (slot : Nat) (query : Query) (probe : Except Failure (Computation σ)) :
    Except Failure (Computation σ) := do
  if query.kind.probe then do
    let value ← probe
    let comparison ← predicateBind .equal value.type (some query.element)
    return {
      type := query.result
      eval := do
        let v ← value.eval
        located offset (ops.query slot (some (v, comparison))) }
  else return { type := query.result, eval := located offset (ops.query slot none) }

def predicateMeaning (op : PredicateOp) (operand : Computation σ) :
    Except Failure (Computation σ) := do
  let predicate ← predicateBind op operand.type none
  return {
    type := predicate.result
    eval := do
      let v ← operand.eval
      located offset (ops.predicate predicate v none) }

def comparisonMeaning (op : PredicateOp) (left right : Computation σ) :
    Except Failure (Computation σ) := do
  let predicate ← predicateBind op left.type (some right.type)
  return {
    type := predicate.result
    eval := do
      let l ← left.eval
      if settles op l then pure l
      else do
        let r ← right.eval
        located offset (ops.predicate predicate l (some r)) }

def arithmeticMeaning (op : ArithmeticOp) (operand : Computation σ) :
    Except Failure (Computation σ) := do
  let arithmetic ← ops.arithmeticBind op operand.type none
  return {
    type := arithmetic.result
    eval := do
      let v ← operand.eval
      located offset (ops.arithmetic arithmetic v none) }

def arithmeticMeaning₂ (op : ArithmeticOp) (left right : Computation σ) :
    Except Failure (Computation σ) := do
  let arithmetic ← ops.arithmeticBind op left.type (some right.type)
  return {
    type := arithmetic.result
    eval := do
      let l ← left.eval
      let r ← right.eval
      located offset (ops.arithmetic arithmetic l (some r)) }

def likeMeaning (escape : Option UInt8) (negated : Bool) (left right : Computation σ) :
    Except Failure (Computation σ) := do
  let like ← ops.likeBind left.type right.type escape negated
  return {
    type := like.result
    eval := do
      let l ← left.eval
      let r ← right.eval
      located offset (ops.like like l r) }

def castMeaning (target : CastTarget) (operand : Computation σ) :
    Except Failure (Computation σ) := do
  let cast ← ops.castBind operand.type target
  return {
    type := cast.result
    eval := do
      let v ← operand.eval
      located offset (ops.cast cast v) }

def negation (negated : Bool) (type : SqlType) :
    Except Failure (SqlType × (Value → EvalM σ Value)) :=
  if negated then do
    let predicate ← predicateBind .not type none
    return (predicate.result, fun v => located offset (ops.predicate predicate v none))
  else .ok (type, pure)

structure Item (σ : Type) where
  eval : EvalM σ Value
  same : Predicate
  either : Predicate

/-- The type of the disjunction so far goes into the binding of the next one. -/
def bindItems (value : SqlType) : SqlType → List (Computation σ) →
    Except Failure (SqlType × List (Item σ))
  | type, [] => .ok (type, [])
  | type, item :: rest => do
    let same ← predicateBind .equal value (some item.type)
    let either ← predicateBind .or type (some same.result)
    let (type, items) ← bindItems value either.result rest
    return (type, { eval := item.eval, same, either } :: items)

/-- Compares the items in turn, up to the first that is equal. -/
def anyItem (value : Value) : List (Item σ) → Value → EvalM σ Value
  | [], found => pure found
  | item :: rest, found => do
    let v ← item.eval
    let same ← located offset (ops.predicate item.same value (some v))
    let found ← located offset (ops.predicate item.either found (some same))
    if settles .or found then pure found else anyItem value rest found

def listMeaning (negated : Bool) (value : Computation σ) (items : List (Computation σ)) :
    Except Failure (Computation σ) := do
  let (type, items) ← bindItems value.type ⟨.boolean, false⟩ items
  let (type, negate) ← negation ops offset negated type
  return {
    type
    eval := do
      let v ← value.eval
      let found ← anyItem ops offset v items (.bool false)
      negate found }

/-- One real among the kinds makes both comparisons of a range real, unless the value is NULL. -/
def realRange : Kind → Kind → Kind → Bool
  | .null, _, _ => false
  | .double, _, _ => true
  | _, .double, _ => true
  | _, _, .double => true
  | _, _, _ => false

def Predicate.real (predicate : Predicate) (real : Bool) : Predicate :=
  { predicate with realComparison := predicate.realComparison || real }

/-- The upper bound of a range is not evaluated for values below the lower one. -/
def withinRange (above below both : Predicate) (negate : Value → EvalM σ Value)
    (value lower upper : EvalM σ Value) : EvalM σ Value := do
  let v ← value
  let low ← lower
  let isAbove ← located offset (ops.predicate above v (some low))
  if settles .and isAbove then negate isAbove
  else do
    let high ← upper
    let isBelow ← located offset (ops.predicate below v (some high))
    let within ← located offset (ops.predicate both isAbove (some isBelow))
    negate within

def betweenMeaning (negated : Bool) (value lower upper : Computation σ) :
    Except Failure (Computation σ) := do
  let above ← predicateBind .greaterEqual value.type (some lower.type)
  let below ← predicateBind .lessEqual value.type (some upper.type)
  let both ← predicateBind .and above.result (some below.result)
  let (type, negate) ← negation ops offset negated both.result
  let real := realRange value.type.kind lower.type.kind upper.type.kind
  return {
    type
    eval := withinRange ops offset (above.real real) (below.real real) both negate
      value.eval lower.eval upper.eval }

structure Test (σ : Type) where
  offset : Nat
  test : Value → EvalM σ Value
  result : EvalM σ Value

/-- A CASE with an operand compares it, one without has conditions of its own. -/
def bindTest (operand : Option SqlType) (choice : Choice σ) : Except Failure (Test σ) :=
  match operand with
  | none => .ok ⟨choice.offset, fun _ => choice.condition.eval, choice.result.eval⟩
  | some type => do
    let same ← predicateBind .equal type (some choice.condition.type)
    return {
      offset := choice.offset
      test := fun v => do
        let c ← choice.condition.eval
        located choice.offset (ops.predicate same v (some c))
      result := choice.result.eval }

/-- Selects the result of the first branch whose test is true. -/
def firstTrue (selection : Kind) (otherwise : EvalM σ Value) (value : Value) :
    List (Test σ) → EvalM σ Value
  | [] => otherwise
  | test :: rest => do
    let decision ← test.test value
    if decision.truth then do
      let v ← test.result
      located test.offset (selected ops selection v)
    else firstTrue selection otherwise value rest

def otherwiseEval (selection : Kind) : Option (Computation σ) → EvalM σ Value
  | none => pure .null
  | some result => do
    let v ← result.eval
    located offset (selected ops selection v)

def caseMeaning (operand : Option (Computation σ)) (choices : List (Choice σ))
    (otherwise : Option (Computation σ)) : Except Failure (Computation σ) := do
  let tests ← choices.mapM (bindTest ops (operand.map Computation.type))
  let types := choices.map (·.result.type) ++ otherwise.toList.map Computation.type
  let selection := selectionKind (types.map SqlType.kind)
  let select (v : Value) :=
    firstTrue ops selection (otherwiseEval ops offset selection otherwise) v tests
  return {
    type := ⟨selection, otherwise.isNone || types.any SqlType.nullable⟩
    eval := match operand with
      | none => select .null
      | some operand => do
        let v ← operand.eval
        select v }

/-- The first value that is not NULL, or else the last. -/
def firstValue (selection : Kind) : List (Computation σ) → Value → EvalM σ Value
  | [], last => pure last
  | argument :: rest, _ => do
    let v ← argument.eval
    let selected ← located offset (selected ops selection v)
    if v.kind = .null then firstValue selection rest selected else pure selected

def coalesceMeaning (arguments : List (Computation σ)) : Computation σ :=
  let selection := selectionKind (arguments.map (·.type.kind))
  { type := ⟨selection, arguments.all (·.type.nullable)⟩
    eval := firstValue ops offset selection arguments .null }

def nullIfMeaning (left right : Computation σ) : Except Failure (Computation σ) := do
  let same ← predicateBind .equal left.type (some right.type)
  return {
    type := ⟨left.type.kind, true⟩
    eval := do
      let l ← left.eval
      let r ← right.eval
      let equal ← located offset (ops.predicate same l (some r))
      pure (if equal.truth then .null else l) }

/-- What a function means, if there is one of that name, for the numbers of arguments it takes. -/
def functionMeaning (name : String) :
    Option (List (Computation σ) → Option (Except Failure (Computation σ))) :=
  let unary (op : ArithmeticOp) : List (Computation σ) → Option (Except Failure (Computation σ))
    | [value] => some (arithmeticMeaning ops offset op value)
    | _ => none
  let binary (op : ArithmeticOp) : List (Computation σ) → Option (Except Failure (Computation σ))
    | [left, right] => some (arithmeticMeaning₂ ops offset op left right)
    | _ => none
  match name with
  | "COALESCE" => some fun arguments =>
    if arguments.isEmpty then none else some (.ok (coalesceMeaning ops offset arguments))
  | "IFNULL" => some fun
    | [left, right] => some (.ok (coalesceMeaning ops offset [left, right]))
    | _ => none
  | "NULLIF" => some fun
    | [left, right] => some (nullIfMeaning ops offset left right)
    | _ => none
  | "ABS" => some (unary .absolute)
  | "SIGN" => some (unary .sign)
  | "FLOOR" => some (unary .floor)
  | "CEIL" => some (unary .ceil)
  | "CEILING" => some (unary .ceil)
  | "MOD" => some (binary .modulo)
  | "TRUNCATE" => some (binary .truncate)
  | "ROUND" => some fun
    | [value] => some (arithmeticMeaning₂ ops offset .round value (constantMeaning (.int64 0)))
    | arguments => binary .round arguments
  | _ => none

def callMeaning (name : String) (distinct : Bool) (arguments : List (Computation σ)) :
    Except Failure (Computation σ) := do
  let function ← given (functionMeaning ops offset (name.map Char.toUpper))
    (exprError .unsupported offset "unsupported function")
  reject (distinct = true) (exprError .unsupported offset "function DISTINCT is unsupported")
  let called ← given (function arguments) (exprError .sqlError offset "invalid function argument count")
  called

def operatorMeaning (op : Operator) (left : Computation σ) (right : Option (Computation σ)) :
    Except Failure (Computation σ) :=
  let test (op : PredicateOp) := match right with
    | none => predicateMeaning ops offset op left
    | some right => comparisonMeaning ops offset op left right
  let compute (op : ArithmeticOp) := match right with
    | none => arithmeticMeaning ops offset op left
    | some right => arithmeticMeaning₂ ops offset op left right
  match op with
  | .eq => test .equal
  | .ne => test .notEqual
  | .lt => test .less
  | .le => test .lessEqual
  | .gt => test .greater
  | .ge => test .greaterEqual
  | .nullSafeEq => test .nullSafeEqual
  | .isNull => test .isNull
  | .isNotNull => test .isNotNull
  | .not => test .not
  | .and => test .and
  | .or => test .or
  | .add => compute .add
  | .subtract => compute .subtract
  | .multiply => compute .multiply
  | .divide => compute .divide
  | .integerDivide => compute .integerDivide
  | .modulo => compute .modulo
  | .positive => compute .positive
  | .negate => compute .negate
  | .like | .notLike | .exist | .other =>
    throw (exprError .unsupported offset "unsupported predicate AST")

end Parts

section Trees

variable {σ : Type} (b : Bindings) (ops : Operators σ) (inputs : List Value)

def leafMeaning (info : Info) : Leaf → Except Failure (Computation σ)
  | .name | .parameter => do
    let (slot, input) ← given (inputAt b info.node)
      (exprError .sqlError info.offset "unresolved expression input")
    inputMeaning ops info.offset inputs slot input
  | .session resolved => do
    let setting ← resolved
    return {
      type := ops.sessionType setting
      eval := located info.offset (ops.session setting) }
  | .null => return constantMeaning .null
  | .boolean value => return constantMeaning (.bool value)
  | .string literal => do return constantMeaning (← literal)
  | .number literal => do return constantMeaning (← literal false)

/-- Inputs that replace a node and bound queries come before the node itself. -/
def boundMeaning (info : Info) (probe : Except Failure (Computation σ))
    (node : Except Failure (Computation σ)) : Except Failure (Computation σ) :=
  match replacedAt b info.node, queryAt b info.node with
  | some (slot, input), _ => inputMeaning ops info.offset inputs slot input
  | none, some (slot, query) => queryMeaning ops info.offset slot query probe
  | none, none => node

def noMeaning (info : Info) : Except Failure (Computation σ) :=
  throw (exprError .unsupported info.offset "unsupported predicate AST")

def binaryMeaning (info : Info) (op : Operator)
    (escape : Option (Except Failure (Option UInt8))) (left right : Computation σ) :
    Except Failure (Computation σ) :=
  let like (negated : Bool) : Except Failure (Computation σ) := do
    let escape ← match escape with
      | none => pure b.defaultEscape
      | some given => given
    likeMeaning ops info.offset escape negated left right
  match op with
  | .like => like false
  | .notLike => like true
  | op => operatorMeaning ops info.offset op left (some right)

mutual

def meaning : Expr → Except Failure (Computation σ)
  | .leaf info leaf => boundMeaning b ops inputs info (noMeaning info)
    (leafMeaning b ops inputs info leaf)
  | .unary info op operand => boundMeaning b ops inputs info (noMeaning info) <|
    match op, operand with
    | .negate, .leaf _ (.number literal) => do return constantMeaning (← literal true)
    | .positive, .leaf _ (.number literal) => do return constantMeaning (← literal false)
    | _, _ => do operatorMeaning ops info.offset op (← meaning operand) none
  | .binary info op escape left right => boundMeaning b ops inputs info (noMeaning info) do
    binaryMeaning b ops info op escape (← meaning left) (← meaning right)
  | .inList info negated value items => boundMeaning b ops inputs info (noMeaning info) do
    listMeaning ops info.offset negated (← meaning value) (← meanings items)
  | .inRows info _ _ value =>
    boundMeaning b ops inputs info (meaning value) (noMeaning info)
  | .between info negated value lower upper =>
    boundMeaning b ops inputs info (noMeaning info) do
      betweenMeaning ops info.offset negated (← meaning value) (← meaning lower)
        (← meaning upper)
  | .searchedCase info branches => boundMeaning b ops inputs info (noMeaning info) do
    let (choices, otherwise) ← branchMeanings branches
    caseMeaning ops info.offset none choices otherwise
  | .simpleCase info operand branches => boundMeaning b ops inputs info (noMeaning info) do
    let operand ← meaning operand
    let (choices, otherwise) ← branchMeanings branches
    caseMeaning ops info.offset (some operand) choices otherwise
  | .call info name distinct arguments => boundMeaning b ops inputs info (noMeaning info) do
    callMeaning ops info.offset name distinct (← meanings arguments)
  | .cast info target expression => boundMeaning b ops inputs info (noMeaning info) do
    castMeaning ops info.offset (← target) (← meaning expression)
  | .subquery info | .window info | .other info =>
    boundMeaning b ops inputs info (noMeaning info) (noMeaning info)

def meanings : Exprs → Except Failure (List (Computation σ))
  | .nil => .ok []
  | .cons head tail => do return (← meaning head) :: (← meanings tail)

def branchMeanings : Branches →
    Except Failure (List (Choice σ) × Option (Computation σ))
  | .noElse => .ok ([], none)
  | .otherwise result => do return ([], some (← meaning result))
  | .when offset condition result rest => do
    let condition ← meaning condition
    let result ← meaning result
    let (choices, otherwise) ← branchMeanings rest
    return ({ offset, condition, result } :: choices, otherwise)

end

end Trees

section Tables

variable {σ : Type} {b : Bindings} {ops : Operators σ} {inputs : List Value} {info : Info} {offset : Nat}
  {op : Operator} {left right : Computation σ}

theorem promote_eq {selection : Kind} {value : Value} :
    promote ops selection value = selected ops selection value := by
  unfold promote selected
  cases selection <;> cases value.kind <;> simp [integral]

theorem settles_eq {op : PredicateOp} {value : Value} :
    settles op value = (op.shortCircuit && op.decided value) := by
  have conjunction (value : UInt8) : settles .and (.boolean value) = decide (value = 0) := rfl
  have disjunction (value : UInt8) : settles .or (.boolean value) = decide (value ≠ 0) := rfl
  cases op with
  | and | or =>
    cases value with
    | boolean value => simp [conjunction, disjunction, PredicateOp.shortCircuit,
        PredicateOp.decided, Value.kind, Value.truth]
    | malformed kind => cases kind <;> rfl
    | _ => rfl
  | _ => rfl

theorem settles_and {value : Value} : settles .and value = PredicateOp.and.decided value := settles_eq

theorem settles_or {value : Value} : settles .or value = PredicateOp.or.decided value := settles_eq

theorem realRange_eq {value lower upper : Kind} :
    realRange value lower upper = realBetween value lower upper := by
  cases value <;> cases lower <;> cases upper <;> rfl

theorem operatorMeaning_none : operatorMeaning ops offset op left none =
    match arithmeticOf op, operatorOf op with
    | some op, _ => arithmeticMeaning ops offset op left
    | none, some op => predicateMeaning ops offset op left
    | none, none => throw (exprError .unsupported offset "unsupported predicate AST") := by
  cases op <;> rfl

theorem operatorMeaning_some : operatorMeaning ops offset op left (some right) =
    match arithmeticOf op, operatorOf op with
    | some op, _ => arithmeticMeaning₂ ops offset op left right
    | none, some op => comparisonMeaning ops offset op left right
    | none, none => throw (exprError .unsupported offset "unsupported predicate AST") := by
  cases op <;> rfl

theorem callMeaning_eq {name : String} {distinct : Bool} {arguments : List (Computation σ)} :
    callMeaning ops offset name distinct arguments = (do
      let function ← resolveCall offset name distinct arguments.length
      match function.arithmetic, function, arguments with
      | some .round, _, [value] =>
        arithmeticMeaning₂ ops offset .round value (constantMeaning (.int64 0))
      | some op, _, [value] => arithmeticMeaning ops offset op value
      | some op, _, [left, right] => arithmeticMeaning₂ ops offset op left right
      | none, .nullIf, [left, right] => nullIfMeaning ops offset left right
      | none, _, arguments => return coalesceMeaning ops offset arguments
      | _, _, _ => throw (exprError .sqlError offset "invalid function argument count")) := by
  rw [callMeaning, resolveCall, ExprFunction.named]
  unfold functionMeaning
  generalize name.map Char.toUpper = name
  split
  case h_12 => simp_all only [given]; rfl
  all_goals
    cases distinct
    · rcases arguments with _ | ⟨_, _ | ⟨_, _ | ⟨_, rest⟩⟩⟩ <;> rfl
    · rfl

theorem binaryMeaning_eq {escape : Option (Except Failure (Option UInt8))} :
    binaryMeaning b ops info op escape left right =
      if op.isLike then do
        let escape ← compileEscape b escape
        likeMeaning ops info.offset escape (op = .notLike) left right
      else operatorMeaning ops info.offset op left (some right) := by
  cases op <;> cases escape <;> rfl

theorem meaning_unary {operand : Expr} : meaning b ops inputs (.unary info op operand) =
    boundMeaning b ops inputs info (noMeaning info) (match op.sign, operand.number? with
      | true, some literal => do return constantMeaning (← literal (op = .negate))
      | _, _ => do operatorMeaning ops info.offset op (← meaning b ops inputs operand) none) := by
  cases op <;> first
    | rfl
    | cases operand with
      | leaf _ leaf => cases leaf <;> rfl
      | _ => rfl

end Tables

end TurboDb
