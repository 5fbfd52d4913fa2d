import TurboDb.Library.Decimal
import TurboDb.Library.Effect
import TurboDb.Value

/-!
Query plans.

A plan names a table, columns and values; each step that fills it checks the kind
of the plan, the name it is given, and the limits of the connection. A step that
is refused leaves the plan as it was, without the parts of a key already added.

NULL handles are left out, and so are failed allocations, which come with the
calls that fill a plan in place. The bytes of all parameters never exceed their
limit, so that the difference of the two is one of numbers.
-/

namespace TurboDb.Orm

open ByteOrder Decimal Effect List

inductive QueryKind
  | select | insert | update | delete | raw
  deriving DecidableEq

structure Limits where
  maxParameters : Nat
  maxColumns : Nat
  maxPredicates : Nat
  maxAssignments : Nat
  maxQueryBytes : Nat
  maxParameterBytes : Nat
  maxResultRows : UInt64
  deriving DecidableEq

/-- A value as the caller hands it over; a view with a length but no data is `malformed`. -/
structure OrmValue where
  reserved : UInt32
  value : Value
  deriving DecidableEq

inductive Compare
  | equal | notEqual | less | lessEqual | greater | greaterEqual | like | notLike
  deriving DecidableEq

structure Assignment where
  column : Bytes
  value : Value
  deriving DecidableEq

structure Predicate where
  column : Bytes
  comparison : Compare
  value : Value
  deriving DecidableEq

structure Ordering where
  column : Bytes
  descending : Bool
  deriving DecidableEq

structure Plan where
  kind : QueryKind
  table : Bytes
  rawSql : Bytes
  columns : List Bytes
  assignments : List Assignment
  predicates : List Predicate
  rawParameters : List Value
  ordering : Option Ordering
  limit : Option UInt64
  offset : Option UInt64
  parameterBytes : Nat
  selectAll : Bool
  deriving DecidableEq

def identifierSegmentMaxBytes : Nat := 63

def dot : UInt8 := 46

def identifierStart (value : UInt8) : Bool :=
  (97 ≤ value && value ≤ 122) || (65 ≤ value && value ≤ 90) || value = 95

/-- The scan of a name; `size` is that of the segment so far. -/
def identifierValid (qualified : Bool) : Nat → Bytes → Except Status Unit
  | size, [] => if size ≠ 0 then pure () else throw .invalidArgument
  | size, value :: rest =>
    if qualified ∧ value = dot then
      if size = 0 then throw .invalidArgument else identifierValid qualified 0 rest
    else if (size = 0 ∧ identifierStart value = false) ∨
        (size ≠ 0 ∧ identifierStart value = false ∧ isDigit value = false) then
      throw .invalidArgument
    else if size + 1 > identifierSegmentMaxBytes then throw .limitExceeded
    else identifierValid qualified (size + 1) rest

def validateIdentifier (input : Bytes) (maxBytes : Nat) (role : String) (qualified : Bool) :
    Except Failure Unit :=
  if input.length > maxBytes then throw ⟨.limitExceeded, role⟩
  else if input = [] ∨ 0 ∈ input then throw ⟨.invalidArgument, role⟩
  else (identifierValid qualified 0 input).mapError fun status => ⟨status, role⟩

def copyIdentifier (input : Bytes) (maxBytes : Nat) (role : String) (qualified : Bool) :
    Except Failure Bytes := do
  validateIdentifier input maxBytes role qualified
  pure input

section Build

variable (limits : Limits)

def payload : Value → Nat
  | .text bytes | .blob bytes => bytes.length
  | _ => 0

def ownedValueKind : Value → Except Failure Unit
  | .boolean value =>
    reject (value > 1) ⟨.invalidArgument, "boolean ORM parameter must be 0 or 1"⟩
  | .malformed .text => throw ⟨.invalidArgument, "invalid ORM text parameter"⟩
  | .malformed .blob => throw ⟨.invalidArgument, "invalid ORM blob parameter"⟩
  | .malformed _ => throw ⟨.invalidArgument, "unknown ORM value kind"⟩
  | _ => pure ()

def ownedValueCopy (input : OrmValue) (plan : Plan) : Except Failure (Value × Plan) := do
  reject (input.reserved ≠ 0) ⟨.abiMismatch, "orm_value_t.reserved must be zero"⟩
  ownedValueKind input.value
  let bytes := payload input.value
  reject (bytes > limits.maxParameterBytes - plan.parameterBytes)
    ⟨.limitExceeded, "ORM parameter bytes exceed configured limit"⟩
  pure (input.value, { plan with parameterBytes := plan.parameterBytes + bytes })

def vecPush {α : Type} (values : List α) (value : α) (limit : Nat) (role : String) :
    Except Failure (List α) := do
  reject (values.length ≥ limit) ⟨.limitExceeded, role⟩
  pure (values ++ [value])

def Plan.empty (kind : QueryKind) : Plan :=
  { kind, table := [], rawSql := [], columns := [], assignments := [], predicates := []
    rawParameters := [], ordering := none, limit := none, offset := none, parameterBytes := 0
    selectAll := false }

def planInit (kind : QueryKind) (input : Bytes) : Except Failure Plan := do
  reject (input = []) ⟨.invalidArgument, "invalid ORM query input"⟩
  if kind = .raw then
    reject (input.length > limits.maxQueryBytes) ⟨.limitExceeded, "invalid raw query text"⟩
    reject (0 ∈ input) ⟨.invalidArgument, "invalid raw query text"⟩
    pure { Plan.empty kind with rawSql := input }
  else
    let table ← copyIdentifier input limits.maxQueryBytes "invalid ORM table name" true
    pure { Plan.empty kind with table }

def planSelectAll (plan : Plan) : Except Failure Plan := do
  reject (plan.kind ≠ .select) ⟨.invalidState, "select_all requires a SELECT query"⟩
  pure { plan with columns := [], selectAll := true }

def planAddColumn (plan : Plan) (column : Bytes) : Except Failure Plan := do
  reject (plan.kind ≠ .select) ⟨.invalidState, "add_column requires a SELECT query"⟩
  let owned ← copyIdentifier column limits.maxQueryBytes "invalid ORM column name" true
  let columns ← vecPush plan.columns owned limits.maxColumns "too many ORM result columns"
  pure { plan with columns, selectAll := false }

def planAddAssignment (plan : Plan) (column : Bytes) (value : OrmValue) : Except Failure Plan := do
  reject (plan.kind ≠ .insert ∧ plan.kind ≠ .update)
    ⟨.invalidState, "set requires an INSERT or UPDATE query"⟩
  let column ← copyIdentifier column limits.maxQueryBytes "invalid ORM assignment column" false
  let (value, plan) ← ownedValueCopy limits value plan
  let assignments ← vecPush plan.assignments ⟨column, value⟩ limits.maxAssignments
    "too many ORM assignments"
  pure { plan with assignments }

def planAddPredicate (plan : Plan) (column : Bytes) (comparison : Compare) (value : OrmValue) :
    Except Failure Plan := do
  reject (plan.kind = .insert ∨ plan.kind = .raw)
    ⟨.invalidState, "where requires SELECT, UPDATE, or DELETE"⟩
  let column ← copyIdentifier column limits.maxQueryBytes "invalid ORM predicate column" true
  let (value, plan) ← ownedValueCopy limits value plan
  let predicates ← vecPush plan.predicates ⟨column, comparison, value⟩ limits.maxPredicates
    "too many ORM predicates"
  pure { plan with predicates }

structure KeyPart where
  column : Bytes
  value : OrmValue
  deriving DecidableEq

def KeyPart.predicate (part : KeyPart) : Predicate := ⟨part.column, .equal, part.value.value⟩

/-- The names of a key are checked before any of its parts is added. -/
def validateKey : List Bytes → List KeyPart → Except Failure Unit
  | _, [] => pure ()
  | earlier, part :: parts => do
    validateIdentifier part.column limits.maxQueryBytes "invalid ORM key column" true
    reject (part.column ∈ earlier) ⟨.invalidArgument, "composite key columns must be unique"⟩
    validateKey (earlier ++ [part.column]) parts

def planAddKey (plan : Plan) (parts : List KeyPart) : Except Failure Plan := do
  reject (plan.kind = .insert ∨ plan.kind = .raw)
    ⟨.invalidState, "where_key requires SELECT, UPDATE, or DELETE"⟩
  reject (parts = []) ⟨.invalidArgument, "composite key must contain at least one part"⟩
  reject (plan.predicates.length > limits.maxPredicates ∨
      parts.length > limits.maxPredicates - plan.predicates.length)
    ⟨.limitExceeded, "composite key exceeds configured predicate limit"⟩
  validateKey limits [] parts
  parts.foldlM (fun plan part => planAddPredicate limits plan part.column .equal part.value) plan

def planAddBind (plan : Plan) (value : OrmValue) : Except Failure Plan := do
  reject (plan.kind ≠ .raw) ⟨.invalidState, "bind requires a raw query"⟩
  let (value, plan) ← ownedValueCopy limits value plan
  let rawParameters ← vecPush plan.rawParameters value limits.maxParameters
    "too many raw query parameters"
  pure { plan with rawParameters }

def planSetOrder (plan : Plan) (column : Bytes) (descending : Bool) : Except Failure Plan := do
  reject (plan.kind ≠ .select)
    ⟨.invalidState, "order_by requires a SELECT query and valid direction"⟩
  let column ← copyIdentifier column limits.maxQueryBytes "invalid ORM order column" true
  pure { plan with ordering := some ⟨column, descending⟩ }

def querySetLimit (plan : Plan) (limit : UInt64) : Except Failure Plan := do
  reject (plan.kind ≠ .select) ⟨.invalidState, "limit requires a SELECT query"⟩
  reject (limit > limits.maxResultRows)
    ⟨.limitExceeded, "query limit exceeds max_result_rows"⟩
  pure { plan with limit := some limit }

def querySetOffset (plan : Plan) (offset : UInt64) : Except Failure Plan := do
  reject (plan.kind ≠ .select) ⟨.invalidState, "offset requires a SELECT query"⟩
  pure { plan with offset := some offset }

inductive PlanOp
  | selectAll
  | addColumn (column : Bytes)
  | addAssignment (column : Bytes) (value : OrmValue)
  | addPredicate (column : Bytes) (comparison : Compare) (value : OrmValue)
  | addKey (parts : List KeyPart)
  | addBind (value : OrmValue)
  | setOrder (column : Bytes) (descending : Bool)
  | setLimit (limit : UInt64)
  | setOffset (offset : UInt64)
  deriving DecidableEq

def planApply (plan : Plan) : PlanOp → Except Failure Plan
  | .selectAll => planSelectAll plan
  | .addColumn column => planAddColumn limits plan column
  | .addAssignment column value => planAddAssignment limits plan column value
  | .addPredicate column comparison value => planAddPredicate limits plan column comparison value
  | .addKey parts => planAddKey limits plan parts
  | .addBind value => planAddBind limits plan value
  | .setOrder column descending => planSetOrder limits plan column descending
  | .setLimit limit => querySetLimit limits plan limit
  | .setOffset offset => querySetOffset plan offset

/-- A refused operation leaves the plan as it was. -/
def planStep (plan : Plan) (op : PlanOp) : Plan :=
  match planApply limits plan op with
  | .ok plan' => plan'
  | .error _ => plan

def Built (plan : Plan) : Prop :=
  ∃ kind input start, planInit limits kind input = .ok start ∧
    ∃ ops : List PlanOp, plan = ops.foldl (planStep limits) start

end Build

variable {maxBytes : Nat} {role : String} {comparison : Compare}

section Name

def nameByte (value : UInt8) : Bool := identifierStart value || isDigit value

/-- A letter or an underscore. -/
def NameStart (value : UInt8) : Prop :=
  97 ≤ value ∧ value ≤ 122 ∨ 65 ≤ value ∧ value ≤ 90 ∨ value = 95

def NameByte (value : UInt8) : Prop := NameStart value ∨ 48 ≤ value ∧ value ≤ 57

structure IsSegment (segment : Bytes) : Prop where
  starts : ∃ first rest, segment = first :: rest ∧ NameStart first
  bytes : ∀ b ∈ segment, NameByte b
  length_le : segment.length ≤ identifierSegmentMaxBytes

/-- A name is a sequence of segments with single dots between them. -/
def IsIdentifier (name : Bytes) : Prop :=
  ∃ (first : Bytes) (others : List Bytes), name = first ++ others.flatMap (dot :: ·) ∧
    IsSegment first ∧ ∀ segment ∈ others, IsSegment segment

variable {qualified : Bool} {name : Bytes}

theorem identifierStart_iff {value : UInt8} : identifierStart value ↔ NameStart value := by
  simp [identifierStart, NameStart, or_assoc]

theorem nameByte_iff {value : UInt8} : nameByte value ↔ NameByte value := by
  simp [nameByte, NameByte, identifierStart_iff, isDigit]

theorem identifierValid_completes {size : Nat} {rest : Bytes}
    (valid : identifierValid qualified size rest = .ok ()) (small : size ≤ identifierSegmentMaxBytes) :
    ∃ (tail : Bytes) (others : List Bytes), rest = tail ++ others.flatMap (dot :: ·) ∧
      (size = 0 → ∃ first more, tail = first :: more ∧ NameStart first) ∧
      (∀ b ∈ tail, NameByte b) ∧ size + tail.length ≤ identifierSegmentMaxBytes ∧
      ∀ segment ∈ others, IsSegment segment := by
  induction rest generalizing size with
  | nil =>
    rw [identifierValid] at valid
    split at valid
    case isTrue filled =>
      exact ⟨[], [], rfl, fun empty => absurd empty filled, by simp, by simpa using small,
        by simp⟩
    case isFalse => exact absurd valid throw_ne_ok
  | cons value rest ih =>
    rw [identifierValid] at valid
    split at valid
    case isTrue isDot =>
      split at valid
      case isTrue => exact absurd valid throw_ne_ok
      case isFalse filled =>
        obtain ⟨tail, others, rfl, starts, bytes, short, segments⟩ := ih valid (Nat.zero_le _)
        have segment : IsSegment tail := ⟨starts rfl, bytes, by omega⟩
        refine ⟨[], tail :: others, ?_, fun empty => absurd empty filled, by simp,
          by simpa using small, ?_⟩
        · simp [isDot.2]
        · simpa using ⟨segment, segments⟩
    case isFalse =>
      split at valid
      case isTrue => exact absurd valid throw_ne_ok
      case isFalse accepted =>
        split at valid
        case isTrue => exact absurd valid throw_ne_ok
        case isFalse fits =>
          obtain ⟨tail, others, rfl, -, bytes, short, segments⟩ := ih valid (by omega)
          refine ⟨value :: tail, others, by simp, ?_, ?_, ?_, segments⟩
          · intro empty
            have starts : identifierStart value := by
              by_contra other
              exact accepted (.inl ⟨empty, by simpa using other⟩)
            exact ⟨value, tail, rfl, identifierStart_iff.mp starts⟩
          · have this : NameByte value := by
              rw [← nameByte_iff, nameByte]
              grind
            simpa [this] using bytes
          · simp only [length_cons]
            omega

theorem validateIdentifier_ok (valid : validateIdentifier name maxBytes role qualified = .ok ()) :
    IsIdentifier name := by
  rw [validateIdentifier] at valid
  split at valid
  case isTrue => exact absurd valid throw_ne_ok
  case isFalse =>
    split at valid
    case isTrue => exact absurd valid throw_ne_ok
    case isFalse =>
      rw [mapError_eq_ok] at valid
      obtain ⟨tail, others, same, starts, bytes, short, segments⟩ :=
        identifierValid_completes valid (Nat.zero_le _)
      exact ⟨tail, others, same, ⟨starts rfl, bytes, by omega⟩, segments⟩

theorem copyIdentifier_ok {copy : Bytes}
    (copied : copyIdentifier name maxBytes role qualified = .ok copy) :
    copy = name ∧ IsIdentifier name := by
  simp only [copyIdentifier, bind_eq_ok, exists_unit, pure_eq_ok] at copied
  obtain ⟨valid, rfl⟩ := copied
  exact ⟨rfl, validateIdentifier_ok valid⟩

theorem IsIdentifier.byte {b : UInt8} (identifier : IsIdentifier name) (mem : b ∈ name) :
    nameByte b ∨ b = dot := by
  obtain ⟨first, others, rfl, segment, segments⟩ := identifier
  simp only [mem_append, mem_flatMap, mem_cons] at mem
  rcases mem with inFirst | ⟨other, isOther, isDot | inOther⟩
  · exact .inl (nameByte_iff.mpr (segment.bytes b inFirst))
  · exact .inr isDot
  · exact .inl (nameByte_iff.mpr ((segments other isOther).bytes b inOther))

end Name

section Invariant

variable {column : Bytes} {value : OrmValue} {op : PlanOp}

def Plan.names (plan : Plan) : List Bytes :=
  plan.table :: plan.columns ++ plan.assignments.map (·.column) ++
    plan.predicates.map (·.column) ++ plan.ordering.toList.map (·.column)

/-- What the operations keep of a plan that is not raw. -/
structure Plan.Wf (plan : Plan) : Prop where
  structured : plan.kind ≠ .raw
  named : ∀ name ∈ plan.names, IsIdentifier name
  assigns : plan.assignments ≠ [] → plan.kind = .insert ∨ plan.kind = .update
  filters : plan.predicates ≠ [] → plan.kind ≠ .insert

def Plan.owned (plan : Plan) : List Value :=
  plan.assignments.map (·.value) ++ plan.predicates.map (·.value) ++ plan.rawParameters

/-- The count is that of the bytes of all values, and within the limit. -/
def Plan.Counted (limits : Limits) (plan : Plan) : Prop :=
  plan.parameterBytes = (plan.owned.map payload).sum ∧
    plan.parameterBytes ≤ limits.maxParameterBytes

variable {limits : Limits} {plan plan' : Plan}

theorem ownedValueCopy_ok {input : OrmValue} {value : Value}
    (copied : ownedValueCopy limits input plan = .ok (value, plan')) :
    value = input.value ∧ payload value ≤ limits.maxParameterBytes - plan.parameterBytes ∧
      plan' = { plan with parameterBytes := plan.parameterBytes + payload value } := by
  simp only [ownedValueCopy, bind_eq_ok, reject_eq_ok, exists_unit, pure_eq_ok, Prod.mk.injEq] at copied
  obtain ⟨-, -, fits, rfl, rfl⟩ := copied
  exact ⟨rfl, not_lt.mp fits, rfl⟩

theorem vecPush_ok {α : Type} {values pushed : List α} {value : α} {limit : Nat}
    (ok : vecPush values value limit role = .ok pushed) : pushed = values ++ [value] := by
  simp only [vecPush, bind_eq_ok, pure_eq_ok] at ok
  obtain ⟨_, -, rfl⟩ := ok
  rfl

theorem planSelectAll_ok (ok : planSelectAll plan = .ok plan') :
    plan' = { plan with columns := [], selectAll := true } := by
  simp only [planSelectAll, bind_eq_ok, pure_eq_ok] at ok
  obtain ⟨_, -, rfl⟩ := ok
  rfl

theorem planAddColumn_ok (ok : planAddColumn limits plan column = .ok plan') :
    IsIdentifier column ∧
      plan' = { plan with columns := plan.columns ++ [column], selectAll := false } := by
  simp only [planAddColumn, bind_eq_ok, pure_eq_ok] at ok
  obtain ⟨_, -, name, copied, columns, pushed, rfl⟩ := ok
  obtain ⟨rfl, identifier⟩ := copyIdentifier_ok copied
  exact ⟨identifier, by rw [vecPush_ok pushed]⟩

theorem planAddAssignment_ok (ok : planAddAssignment limits plan column value = .ok plan') :
    (plan.kind = .insert ∨ plan.kind = .update) ∧ IsIdentifier column ∧
      payload value.value ≤ limits.maxParameterBytes - plan.parameterBytes ∧
      plan' = { plan with
        assignments := plan.assignments ++ [⟨column, value.value⟩]
        parameterBytes := plan.parameterBytes + payload value.value } := by
  simp only [planAddAssignment, bind_eq_ok, reject_eq_ok, exists_unit, pure_eq_ok, Prod.exists] at ok
  obtain ⟨kind, name, copied, _, _, owned, assignments, pushed, rfl⟩ := ok
  obtain ⟨rfl, identifier⟩ := copyIdentifier_ok copied
  obtain ⟨rfl, fits, rfl⟩ := ownedValueCopy_ok owned
  exact ⟨by tauto, identifier, fits, by rw [vecPush_ok pushed]⟩

theorem planAddPredicate_ok (ok : planAddPredicate limits plan column comparison value = .ok plan') :
    plan.kind ≠ .insert ∧ IsIdentifier column ∧
      payload value.value ≤ limits.maxParameterBytes - plan.parameterBytes ∧
      plan' = { plan with
        predicates := plan.predicates ++ [⟨column, comparison, value.value⟩]
        parameterBytes := plan.parameterBytes + payload value.value } := by
  simp only [planAddPredicate, bind_eq_ok, reject_eq_ok, exists_unit, pure_eq_ok, Prod.exists] at ok
  obtain ⟨kind, name, copied, _, _, owned, predicates, pushed, rfl⟩ := ok
  obtain ⟨rfl, identifier⟩ := copyIdentifier_ok copied
  obtain ⟨rfl, fits, rfl⟩ := ownedValueCopy_ok owned
  exact ⟨by tauto, identifier, fits, by rw [vecPush_ok pushed]⟩

theorem planSetOrder_ok {descending : Bool}
    (ok : planSetOrder limits plan column descending = .ok plan') :
    IsIdentifier column ∧ plan' = { plan with ordering := some ⟨column, descending⟩ } := by
  simp only [planSetOrder, bind_eq_ok, pure_eq_ok] at ok
  obtain ⟨_, -, name, copied, rfl⟩ := ok
  obtain ⟨rfl, identifier⟩ := copyIdentifier_ok copied
  exact ⟨identifier, rfl⟩

/-- What an operation keeps of a plan. -/
structure Plan.Keeps (limits : Limits) (plan plan' : Plan) : Prop where
  kind : plan'.kind = plan.kind
  wf : plan.Wf → plan'.Wf
  counted : plan.Counted limits → plan'.Counted limits

theorem Plan.Keeps.refl : plan.Keeps limits plan := ⟨rfl, id, id⟩

theorem Plan.Keeps.trans {plan'' : Plan} (first : plan.Keeps limits plan')
    (later : plan'.Keeps limits plan'') : plan.Keeps limits plan'' :=
  ⟨later.kind.trans first.kind, later.wf ∘ first.wf, later.counted ∘ first.counted⟩

/-- A value that fits is stored and counted. -/
theorem Plan.Counted.store {value : Value} (counted : plan.Counted limits)
    (fits : payload value ≤ limits.maxParameterBytes - plan.parameterBytes)
    (bytes : plan'.parameterBytes = plan.parameterBytes + payload value)
    {earlier later : List Value} (owned : plan.owned = earlier ++ later)
    (stored : plan'.owned = earlier ++ value :: later) : plan'.Counted limits := by
  obtain ⟨same, within⟩ := counted
  refine ⟨?_, by omega⟩
  rw [owned, map_append, sum_append] at same
  rw [stored, map_append, map_cons, sum_append, sum_cons]
  omega

theorem keeps_addPredicate (ok : planAddPredicate limits plan column comparison value = .ok plan') :
    plan.Keeps limits plan' := by
  obtain ⟨kind, identifier, fits, rfl⟩ := planAddPredicate_ok ok
  refine ⟨rfl, fun wf => ⟨wf.structured, ?_, wf.assigns, fun _ => kind⟩, fun counted => ?_⟩
  · have named := wf.named
    simp only [Plan.names, map_append, mem_append, mem_cons, mem_map] at named ⊢
    grind
  · exact counted.store fits rfl rfl (by simp [Plan.owned])

/-- A key adds its parts in their order. -/
theorem planAddKey_ok {parts : List KeyPart}
    (ok : parts.foldlM
      (fun plan part => planAddPredicate limits plan part.column .equal part.value) plan =
        .ok plan') :
    plan.Keeps limits plan' ∧ plan'.predicates = plan.predicates ++ parts.map KeyPart.predicate := by
  induction parts generalizing plan with
  | nil =>
    rw [foldlM_nil, pure_eq_ok] at ok
    rw [ok]
    exact ⟨.refl, (append_nil _).symm⟩
  | cons part parts ih =>
    rw [foldlM_cons, bind_eq_ok] at ok
    obtain ⟨next, added, rest⟩ := ok
    obtain ⟨later, predicates⟩ := ih rest
    refine ⟨(keeps_addPredicate added).trans later, ?_⟩
    obtain ⟨-, -, -, made⟩ := planAddPredicate_ok added
    rw [predicates, made, map_cons, append_assoc]
    rfl

theorem planApply_keeps (ok : planApply limits plan op = .ok plan') : plan.Keeps limits plan' := by
  cases op with
  | selectAll =>
    rw [planSelectAll_ok ok]
    refine ⟨rfl, fun wf => ⟨wf.structured, fun name mem => wf.named name ?_, wf.assigns, wf.filters⟩, id⟩
    simp only [Plan.names, mem_append, mem_cons] at mem ⊢
    grind
  | addColumn column =>
    obtain ⟨identifier, rfl⟩ := planAddColumn_ok ok
    refine ⟨rfl, fun wf => ⟨wf.structured, ?_, wf.assigns, wf.filters⟩, id⟩
    have named := wf.named
    simp only [Plan.names, mem_append, mem_cons] at named ⊢
    grind
  | addAssignment column value =>
    obtain ⟨kind, identifier, fits, rfl⟩ := planAddAssignment_ok ok
    refine ⟨rfl, fun wf => ⟨wf.structured, ?_, fun _ => kind, wf.filters⟩, fun counted => ?_⟩
    · have named := wf.named
      simp only [Plan.names, map_append, mem_append, mem_cons, mem_map] at named ⊢
      grind
    · exact counted.store fits rfl (append_assoc ..) (by simp [Plan.owned])
  | addPredicate column comparison value => exact keeps_addPredicate ok
  | addKey parts =>
    simp only [planApply, planAddKey, bind_eq_ok, exists_unit] at ok
    exact (planAddKey_ok ok.2.2.2.2).1
  | addBind value =>
    simp only [planApply, planAddBind, bind_eq_ok, reject_eq_ok, exists_unit, pure_eq_ok,
      Prod.exists] at ok
    obtain ⟨kind, _, _, owned, _, pushed, rfl⟩ := ok
    obtain ⟨rfl, fits, rfl⟩ := ownedValueCopy_ok owned
    refine ⟨rfl, fun wf => absurd wf.structured kind, fun counted => ?_⟩
    rw [vecPush_ok pushed]
    exact counted.store fits rfl (append_nil _).symm (by simp [Plan.owned])
  | setOrder column descending =>
    obtain ⟨identifier, rfl⟩ := planSetOrder_ok ok
    refine ⟨rfl, fun wf => ⟨wf.structured, ?_, wf.assigns, wf.filters⟩, id⟩
    have named := wf.named
    simp only [Plan.names, mem_append, mem_cons, mem_map] at named ⊢
    grind
  | setLimit limit =>
    simp only [planApply, querySetLimit, bind_eq_ok, exists_unit, pure_eq_ok] at ok
    rw [← ok.2.2]
    exact ⟨rfl, fun wf => ⟨wf.structured, wf.named, wf.assigns, wf.filters⟩, id⟩
  | setOffset offset =>
    simp only [planApply, querySetOffset, bind_eq_ok, exists_unit, pure_eq_ok] at ok
    rw [← ok.2]
    exact ⟨rfl, fun wf => ⟨wf.structured, wf.named, wf.assigns, wf.filters⟩, id⟩

theorem planStep_keeps : plan.Keeps limits (planStep limits plan op) := by
  rw [planStep]
  cases applied : planApply limits plan op with
  | ok plan' => exact planApply_keeps applied
  | error failure => exact .refl

theorem planInit_ok {kind : QueryKind} {input : Bytes}
    (started : planInit limits kind input = .ok plan) :
    plan.Counted limits ∧ (plan.kind ≠ .raw → plan.Wf) := by
  simp only [planInit, bind_eq_ok, exists_unit] at started
  obtain ⟨-, started⟩ := started
  split at started
  case isTrue isRaw =>
    simp only [bind_eq_ok, exists_unit, pure_eq_ok] at started
    obtain ⟨-, -, rfl⟩ := started
    exact ⟨⟨rfl, Nat.zero_le _⟩, absurd isRaw⟩
  case isFalse =>
    simp only [bind_eq_ok, pure_eq_ok] at started
    obtain ⟨table, copied, rfl⟩ := started
    refine ⟨⟨rfl, Nat.zero_le _⟩, fun structured =>
      ⟨structured, ?_, fun some => absurd rfl some, fun some => absurd rfl some⟩⟩
    obtain ⟨rfl, identifier⟩ := copyIdentifier_ok copied
    simpa [Plan.names, Plan.empty] using identifier

theorem Built.wf (built : Built limits plan) (structured : plan.kind ≠ .raw) : plan.Wf := by
  obtain ⟨kind, input, start, started, ops, rfl⟩ := built
  have kept : start.Keeps limits (ops.foldl (planStep limits) start) := by
    clear started structured
    induction ops generalizing start with
    | nil => exact .refl
    | cons op ops ih => exact planStep_keeps.trans (ih _)
  exact kept.wf ((planInit_ok started).2 (kept.kind ▸ structured))

end Invariant

end TurboDb.Orm
