import TurboDb.Library.Effect
import TurboDb.Value

/-!
Scalar predicates: binding of operand types and three-valued evaluation.

The step charge of an evaluation is left out: its refusal is one more failure
without output. Binary64 operands are compared as patterns by sign and magnitude,
the numeric order of finite ones.
-/

namespace TurboDb

open ByteOrder Words Wire Effect

variable {type : SqlType}

inductive PredicateOp
  | equal | notEqual | less | lessEqual | greater | greaterEqual | nullSafeEqual
  | isNull | isNotNull | not | and | or
  deriving DecidableEq, Repr

structure Predicate where
  op : PredicateOp
  left : SqlType
  right : SqlType
  result : SqlType
  realComparison : Bool
  deriving DecidableEq, Repr

def PredicateOp.unary (op : PredicateOp) : Bool := op = .isNull || op = .isNotNull || op = .not

def PredicateOp.comparison : PredicateOp → Bool
  | .equal | .notEqual | .less | .lessEqual | .greater | .greaterEqual | .nullSafeEqual => true
  | _ => false

def booleanType (kind : Kind) : Bool := kind = .null || kind = .boolean

def PredicateOp.compatible (op : PredicateOp) (left : Kind) (right : Option Kind) : Bool :=
  if op = .not ∨ op = .and ∨ op = .or then
    booleanType left && right.all booleanType
  else if op.unary then true
  else right.all fun right =>
    left = .null || right = .null || left = right ||
      (assignmentNumeric left && assignmentNumeric right)

def predicateBind (op : PredicateOp) (left : SqlType) (right : Option SqlType) :
    Except Failure Predicate := do
  reject (op.unary = right.isSome)
    ⟨.invalidArgument, "TidesDB SQL bind: invalid predicate output or arity"⟩
  reject (validType left = false ∨ right.any (fun r => !validType r) = true)
    ⟨.typeError, "TidesDB SQL bind: invalid operand type or nullability"⟩
  reject (op.compatible left.kind (right.map SqlType.kind) = false)
    ⟨.unsupported, "TidesDB SQL bind: implicit operand conversion is unsupported"⟩
  let nullable := op ≠ .nullSafeEqual && op ≠ .isNull && op ≠ .isNotNull &&
    (left.nullable || right.any SqlType.nullable)
  return {
    op, left
    right := right.getD ⟨.null, true⟩
    result := ⟨.boolean, nullable⟩
    realComparison := op.comparison &&
      (left.kind = .double || right.any fun r => r.kind = .double) }

/-- Three-way comparison of binary64 patterns by sign and magnitude. -/
def compareDouble (a b : UInt64) : Ordering := compare (magnitudeOrder a) (magnitudeOrder b)

def compareU64 (a b : UInt64) : Ordering := compare a.toNat b.toNat

/-- Signed against unsigned: a negative number comes first. -/
def compareMixed (s : Int64) (u : UInt64) : Ordering :=
  if s.toInt < 0 then .lt else compareU64 s.toUInt64 u

def compareValues (left right : Value) (realComparison : Bool) : Ordering :=
  if realComparison then compareDouble (numericRealValue left) (numericRealValue right)
  else match left, right with
    | .int64 a, .int64 b => compare a.toInt b.toInt
    | .uint64 a, .uint64 b => compareU64 a b
    | .int64 s, .uint64 u => compareMixed s u
    | .uint64 u, .int64 s => (compareMixed s u).swap
    | .double a, .double b => compareDouble a b
    | .boolean a, .boolean b => compare a b
    | .text a, .text b => memcmp a b
    | .blob a, .blob b => memcmp a b
    -- Binding and validation leave no other pair.
    | _, _ => .eq

def Value.truth : Value → Bool
  | .boolean b => b ≠ 0
  | _ => false

/-- The outcome of a comparison operator on the order of its operands. -/
def PredicateOp.holds : PredicateOp → Ordering → Bool
  | .equal, order | .nullSafeEqual, order => order = .eq
  | .notEqual, order => order ≠ .eq
  | .less, order => order = .lt
  | .lessEqual, order => order ≠ .gt
  | .greater, order => order = .gt
  | _, order => order ≠ .lt

def evaluate (predicate : Predicate) (left : Value) (right : Option Value) : Value :=
  let aNull := left.kind = .null
  let bNull := right.all fun r => r.kind = .null
  match predicate.op with
  | .isNull => .bool aNull
  | .isNotNull => .bool ¬ aNull
  | .not => if aNull then .null else .bool !left.truth
  | .and | .or =>
    let decisive : Bool := predicate.op = .or
    if (¬ aNull ∧ left.truth = decisive) ∨
        (¬ bNull ∧ (right.any Value.truth) = decisive) then .bool decisive
    else if aNull ∨ bNull then .null else .bool !decisive
  | op =>
    if aNull ∨ bNull then
      if op = .nullSafeEqual then .bool (aNull ∧ bNull) else .null
    else .bool (op.holds (compareValues left (right.getD .null) predicate.realComparison))

def validText : Value → Bool
  | .text bytes => bytes.isEmpty || (ByteArray.mk bytes.toArray).validateUTF8
  | _ => true

def predicateEval (predicate : Predicate) (left : Value) (right : Option Value) :
    Except Failure Value := do
  reject (predicate.op.unary = right.isSome)
    ⟨.invalidArgument, "TidesDB SQL eval: invalid predicate arguments"⟩
  reject (validValue left predicate.left = false ∨
      right.any (fun r => !validValue r predicate.right) = true)
    ⟨.typeError, "TidesDB SQL eval: value does not match its bound type"⟩
  reject (validText left = false ∨ right.any (fun r => !validText r) = true)
    ⟨.typeError, "TidesDB SQL eval: TEXT must contain valid UTF-8"⟩
  return evaluate predicate left right

variable {right : SqlType} {predicate : Predicate} {result : SqlType} {value : Value}

theorem predicateBind_bound {op : PredicateOp} {left : SqlType}
    (h : predicateBind op left (some right) = .ok predicate) :
    validType left ∧ predicate.op = op ∧ predicate.right = right := by
  simp only [predicateBind, bind_eq_ok, reject_eq_ok, exists_unit, pure_eq_ok, not_or] at h
  obtain ⟨-, ⟨valid, -⟩, -, rfl⟩ := h
  exact ⟨by simpa using valid, rfl, rfl⟩

/-- The engine checks a value against its type by asking whether it is NULL. -/
theorem predicateBind_isNull :
    predicateBind .isNull type none = .ok predicate ↔
      validType type ∧
        predicate = ⟨.isNull, type, ⟨.null, true⟩, ⟨.boolean, false⟩, false⟩ := by
  rw [eq_comm (a := predicate)]
  simp [predicateBind, PredicateOp.unary, PredicateOp.compatible, PredicateOp.comparison]

theorem predicateEval_isNull {type : SqlType} {real : Bool} {out : Value} :
    predicateEval ⟨.isNull, type, right, result, real⟩ value none = .ok out ↔
      validValue value type ∧ validText value ∧
        out = .bool (value.kind = .null) := by
  rw [eq_comm (a := out)]
  simp [predicateEval, PredicateOp.unary, evaluate]

theorem predicateEval_isNull_error {type : SqlType} {real : Bool} {failure : Failure}
    (h : predicateEval ⟨.isNull, type, right, result, real⟩ value none = .error failure) :
    failure.status = .typeError := by
  simp only [predicateEval, bind_eq_error, reject_eq_error, reject_eq_ok, pure_ne_error] at h
  rcases h with ⟨h, -⟩ | ⟨_, -, ⟨-, rfl⟩ | ⟨_, -, ⟨-, rfl⟩ | ⟨_, -, h⟩⟩⟩
  · exact absurd h (by decide)
  · rfl
  · rfl
  · exact h.elim

theorem validType_of_numeric (numeric : assignmentNumeric type.kind) :
    validType type := by
  cases hk : type.kind <;> simp_all [assignmentNumeric, validType]

theorem validText_of_numeric (numeric : assignmentNumeric type.kind) (valid : validValue value type) :
    validText value := by
  cases value <;> simp_all [validText, validValue, assignmentNumeric]

section Equality

/-- Two doubles are the same number. -/
def sameDouble (a b : UInt64) : Bool :=
  a = b || ((a = 0 || a = 0x8000000000000000) && (b = 0 || b = 0x8000000000000000))

/-- SQL equality is TRUE: neither is NULL, and numbers are equal, as doubles if one of them is. -/
def sqlEqual : Value → Value → Bool
  | .int64 a, .int64 b => a = b
  | .uint64 a, .uint64 b => a = b
  | .int64 a, .uint64 b => a.toInt = b.toNat
  | .uint64 a, .int64 b => (a.toNat : ℤ) = b.toInt
  | .double a, .double b => sameDouble a b
  | .double a, .int64 b => sameDouble a (doubleOfInt64 b)
  | .double a, .uint64 b => sameDouble a (doubleOfUInt64 b)
  | .int64 a, .double b => sameDouble (doubleOfInt64 a) b
  | .uint64 a, .double b => sameDouble (doubleOfUInt64 a) b
  | .boolean a, .boolean b => a = b
  | .text a, .text b => a = b
  | .blob a, .blob b => a = b
  | _, _ => false

/-- A value of the type, whose text is UTF-8. -/
def IsValue (type : SqlType) (value : Value) : Prop := validValue value type ∧ validText value

variable {a b : Value} {l r : SqlType} {comparison : Predicate}

theorem compareDouble_eq_iff {a b : UInt64} : compareDouble a b = .eq ↔ sameDouble a b := by
  have := a.toNat_lt
  have := b.toNat_lt
  rw [compareDouble, compare_eq_iff_eq]
  simp only [sameDouble, magnitudeOrder, Bool.or_eq_true, Bool.and_eq_true, decide_eq_true_eq,
    ← UInt64.toNat_inj, UInt64.toNat_ofNat]
  split_ifs <;> omega

theorem compareMixed_eq_iff {a : Int64} {b : UInt64} : compareMixed a b = .eq ↔ a.toInt = b.toNat := by
  have signed : a.toInt = if 2 * a.toUInt64.toNat < 2 ^ 64 then (a.toUInt64.toNat : ℤ)
      else a.toUInt64.toNat - (2 ^ 64 : Nat) := BitVec.toInt_eq_toNat_cond a.toBitVec
  have := a.toUInt64.toNat_lt
  rw [compareMixed]
  split
  · simp only [reduceCtorEq, false_iff]
    omega
  · rw [compareU64, compare_eq_iff_eq]
    omega

theorem compareValues_eq_iff {nullA nullB : Bool} (validA : validValue a ⟨a.kind, nullA⟩)
    (validB : validValue b ⟨b.kind, nullB⟩) (someA : a ≠ .null) (someB : b ≠ .null)
    (compatible : a.kind = b.kind ∨ assignmentNumeric a.kind ∧ assignmentNumeric b.kind) :
    compareValues a b (a.kind = .double || b.kind = .double) = .eq ↔ sqlEqual a b := by
  cases a <;> cases b <;>
    simp [Value.kind, assignmentNumeric, validValue] at someA someB compatible validA validB <;>
    simp [compareValues, Value.kind, sqlEqual, numericRealValue, compareDouble_eq_iff, compareMixed_eq_iff,
      compareU64, memcmp_eq_iff, UInt64.toNat_inj, Int64.toInt_inj]
  exact eq_comm

theorem kind_ne_null (valid : validValue a l) (some : a ≠ .null) : a.kind ≠ .null := by
  cases a <;> simp_all [validValue, Value.kind]

theorem truth_equal :
    (if a = .null ∨ b = .null then .null else Value.bool (sqlEqual a b)).truth = sqlEqual a b := by
  by_cases null : a = .null ∨ b = .null
  · rcases null with rfl | rfl <;> simp [Value.truth, sqlEqual]
  · cases holds : sqlEqual a b <;> simp [null, Value.truth, Value.bool]

/-- Equality of SQL is NULL if an operand is. -/
theorem predicateEval_equal (bound : predicateBind .equal l (some r) = .ok comparison)
    (validA : IsValue l a) (validB : IsValue r b) :
    predicateEval comparison a (some b) =
      .ok (if a = .null ∨ b = .null then .null else .bool (sqlEqual a b)) := by
  simp only [predicateBind, bind_eq_ok, reject_eq_ok, exists_unit, pure_eq_ok] at bound
  obtain ⟨-, -, compatible, rfl⟩ := bound
  have evaluated (p : Predicate) (left : p.left = l) (right : p.right = r) (op : p.op = .equal) :
      predicateEval p a (some b) = .ok (evaluate p a (some b)) := by
    simp [predicateEval, PredicateOp.unary, left, right, op, validA.1, validA.2, validB.1, validB.2, pure_ok]
  rw [evaluated _ rfl rfl rfl]
  by_cases nullA : a = .null
  · simp [nullA, evaluate, Value.kind]
  by_cases nullB : b = .null
  · simp [nullB, evaluate, Value.kind]
  have someA := kind_ne_null validA.1 nullA
  have someB := kind_ne_null validB.1 nullB
  obtain ⟨left, _⟩ := l
  obtain ⟨right, _⟩ := r
  obtain rfl : a.kind = left := (validValue_kind validA.1).resolve_left nullA
  obtain rfl : b.kind = right := (validValue_kind validB.1).resolve_left nullB
  have same : a.kind = b.kind ∨ assignmentNumeric a.kind ∧ assignmentNumeric b.kind := by
    simpa [PredicateOp.compatible, PredicateOp.unary, someA, someB, or_iff_not_imp_left] using compatible
  have equal := compareValues_eq_iff validA.1 validB.1 nullA nullB same
  simp [evaluate, someA, someB, nullA, nullB, PredicateOp.holds, PredicateOp.comparison, equal]

end Equality

end TurboDb
