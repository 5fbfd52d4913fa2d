import TurboDb.Orm.Plan

/-!
How a plan is filled in place.

A call counts the bytes of a value before it stores it, and takes them back when
there is no room; a key takes back the parts it has added. Any allocation may
fail. A call that returns has made the plan that the operation on plans gives,
one that fails has left the plan as it was. What is popped off the predicates is
freed, which no plan shows.
-/

namespace TurboDb.Orm

open ByteOrder Effect List

/-- A plan under construction, with the answers the allocator will give. -/
structure Building where
  plan : Plan
  grants : List Bool

abbrev Call := EStateM Failure Building Unit

namespace Building

section Calls

variable (limits : Limits)

def edit (f : Plan → Plan) : Call := modify fun s => { s with plan := f s.plan }

def allocate (role : String) : Call := do
  let granted ← modifyGet fun s => (s.grants.headD true, { s with grants := s.grants.tail })
  reject (granted = false) ⟨.outOfMemory, role⟩

def copyIdentifier (input : Bytes) (role : String) (qualified : Bool) : Call := do
  attempt (validateIdentifier input limits.maxQueryBytes role qualified)
  allocate role

def copyBytes : Value → Call
  | .text _ | .blob _ => allocate "copy ORM parameter value"
  | _ => pure ()

def ownedValueCopy (input : OrmValue) : Call := do
  reject (input.reserved ≠ 0) ⟨.abiMismatch, "orm_value_t.reserved must be zero"⟩
  attempt (ownedValueKind input.value)
  let bytes := payload input.value
  reject (bytes > limits.maxParameterBytes - (← get).plan.parameterBytes)
    ⟨.limitExceeded, "ORM parameter bytes exceed configured limit"⟩
  copyBytes input.value
  edit fun plan => { plan with parameterBytes := plan.parameterBytes + bytes }

def vecPush (count : Plan → Nat) (limit : Nat) (role : String) : Call := do
  reject (count (← get).plan ≥ limit) ⟨.limitExceeded, role⟩
  allocate role

/-- A value is counted, then stored; without room its bytes are taken back. -/
def addValue (value : OrmValue) (count : Plan → Nat) (limit : Nat) (role : String)
    (store : Plan → Plan) : Call := do
  ownedValueCopy limits value
  tryCatch (vecPush count limit role) fun failure => do
    edit fun plan => { plan with parameterBytes := plan.parameterBytes - payload value.value }
    throw failure
  edit store

def planAddColumn (column : Bytes) : Call := do
  reject ((← get).plan.kind ≠ .select) ⟨.invalidState, "add_column requires a SELECT query"⟩
  copyIdentifier limits column "invalid ORM column name" true
  vecPush (·.columns.length) limits.maxColumns "too many ORM result columns"
  edit fun plan => { plan with columns := plan.columns ++ [column], selectAll := false }

def planAddAssignment (column : Bytes) (value : OrmValue) : Call := do
  let kind := (← get).plan.kind
  reject (kind ≠ .insert ∧ kind ≠ .update)
    ⟨.invalidState, "set requires an INSERT or UPDATE query"⟩
  copyIdentifier limits column "invalid ORM assignment column" false
  addValue limits value (·.assignments.length) limits.maxAssignments "too many ORM assignments"
    fun plan => { plan with assignments := plan.assignments ++ [⟨column, value.value⟩] }

def planAddPredicate (column : Bytes) (comparison : Compare) (value : OrmValue) : Call := do
  let kind := (← get).plan.kind
  reject (kind = .insert ∨ kind = .raw)
    ⟨.invalidState, "where requires SELECT, UPDATE, or DELETE"⟩
  copyIdentifier limits column "invalid ORM predicate column" true
  addValue limits value (·.predicates.length) limits.maxPredicates "too many ORM predicates"
    fun plan => { plan with predicates := plan.predicates ++ [⟨column, comparison, value.value⟩] }

def planRollbackPredicates (predicateCount parameterBytes : Nat) : Call :=
  edit fun plan =>
    { plan with predicates := plan.predicates.take predicateCount, parameterBytes }

def planAddKey (parts : List KeyPart) : Call := do
  let plan := (← get).plan
  reject (plan.kind = .insert ∨ plan.kind = .raw)
    ⟨.invalidState, "where_key requires SELECT, UPDATE, or DELETE"⟩
  reject (parts = []) ⟨.invalidArgument, "composite key must contain at least one part"⟩
  reject (plan.predicates.length > limits.maxPredicates ∨
      parts.length > limits.maxPredicates - plan.predicates.length)
    ⟨.limitExceeded, "composite key exceeds configured predicate limit"⟩
  attempt (validateKey limits [] parts)
  tryCatch (parts.forM fun part => planAddPredicate limits part.column .equal part.value)
    fun failure => do
      planRollbackPredicates plan.predicates.length plan.parameterBytes
      throw failure

def planAddBind (value : OrmValue) : Call := do
  reject ((← get).plan.kind ≠ .raw) ⟨.invalidState, "bind requires a raw query"⟩
  addValue limits value (·.rawParameters.length) limits.maxParameters
    "too many raw query parameters"
    fun plan => { plan with rawParameters := plan.rawParameters ++ [value.value] }

def planSetOrder (column : Bytes) (descending : Bool) : Call := do
  reject ((← get).plan.kind ≠ .select)
    ⟨.invalidState, "order_by requires a SELECT query and valid direction"⟩
  copyIdentifier limits column "invalid ORM order column" true
  edit fun plan => { plan with ordering := some ⟨column, descending⟩ }

/-- Calls that allocate nothing are those on plans. -/
def apply (op : PlanOp) : Call :=
  match op with
  | .addColumn column => planAddColumn limits column
  | .addAssignment column value => planAddAssignment limits column value
  | .addPredicate column comparison value => planAddPredicate limits column comparison value
  | .addKey parts => planAddKey limits parts
  | .addBind value => planAddBind limits value
  | .setOrder column descending => planSetOrder limits column descending
  | .selectAll | .setLimit _ | .setOffset _ => do
    let plan ← attempt (planApply limits (← get).plan op)
    edit fun _ => plan

end Calls

section Refines

variable {limits : Limits} {s : Building} {column : Bytes} {value : OrmValue}

/-- The call makes the plan that the operation gives, or leaves the plan alone. -/
def Refines (s : Building) (call : Call) (f : Except Failure Plan) : Prop :=
  Wp call (fun _ t => f = .ok t.plan) (fun _ t => t.plan = s.plan) s

theorem wp_copyBytes (value : Value) : Wp (copyBytes value) (fun _ t => t.plan = s.plan)
    (fun _ t => t.plan = s.plan) s := by
  cases value <;> simp [copyBytes, allocate]

theorem wp_ownedValueCopy : Wp (ownedValueCopy limits value)
    (fun _ t => Orm.ownedValueCopy limits value s.plan = .ok (value.value, t.plan))
    (fun _ t => t.plan = s.plan) s := by
  simp only [ownedValueCopy, edit, wp_bind, wp_attempt, wp_reject, wp_get, wp_modify]
  simp only [implies_true, true_and]
  intro reserved _ valid fits
  refine (wp_copyBytes value.value).mono (fun _ t same => ?_) fun _ _ same => same
  simp [Orm.ownedValueCopy, reserved, valid, not_lt.mp fits, same]

theorem wp_addValue {count : Plan → Nat} {limit : Nat} {role : String} {store : Plan → Plan} :
    Wp (addValue limits value count limit role store)
      (fun _ t => ∃ plan, Orm.ownedValueCopy limits value s.plan = .ok (value.value, plan) ∧
        count plan < limit ∧ t.plan = store plan)
      (fun _ t => t.plan = s.plan) s := by
  simp only [addValue, vecPush, allocate, edit, wp_bind, wp_modifyGet, wp_reject, wp_get,
    wp_tryCatch, wp_modify, wp_throw]
  refine wp_ownedValueCopy.mono (fun _ t copied => ?_) fun _ _ same => same
  have back : { t.plan with
      parameterBytes := t.plan.parameterBytes - payload value.value } = s.plan := by
    rw [(ownedValueCopy_ok copied).2.2]
    simp
  simp only [back, implies_true, true_and]
  exact fun room _ => ⟨t.plan, copied, not_le.mp room, rfl⟩

theorem wp_copyIdentifier {role : String} {qualified : Bool} :
    Wp (copyIdentifier limits column role qualified)
      (fun _ t => Orm.copyIdentifier column limits.maxQueryBytes role qualified = .ok column ∧
        t.plan = s.plan) (fun _ t => t.plan = s.plan) s := by
  simp only [copyIdentifier, Orm.copyIdentifier, allocate, wp_bind, wp_attempt, wp_modifyGet, wp_reject,
    bind_eq_ok, pure_eq_ok, exists_unit, implies_true, true_and, and_true]
  exact fun _ valid _ => valid

theorem refines_addPredicate (comparison : Compare) :
    Refines s (planAddPredicate limits column comparison value)
      (Orm.planAddPredicate limits s.plan column comparison value) := by
  simp only [Refines, planAddPredicate, wp_bind, wp_get, wp_reject, implies_true, true_and]
  intro kind
  refine wp_copyIdentifier.mono (fun _ t named => ?_) fun _ _ same => same
  refine wp_addValue.mono (fun _ u stored => ?_) fun _ _ same => same.trans named.2
  obtain ⟨plan, copied, room, stored⟩ := stored
  rw [named.2] at copied
  simp [Orm.planAddPredicate, Orm.vecPush, kind, named.1, copied, room, stored]

/-- What a key has added is taken back by cutting the predicates to their old number. -/
theorem refines_addKey (parts : List KeyPart) :
    Refines s (planAddKey limits parts) (Orm.planAddKey limits s.plan parts) := by
  simp only [Refines, planAddKey, planRollbackPredicates, edit, wp_bind, wp_get, wp_reject, wp_attempt,
    wp_tryCatch, wp_modify, wp_throw, implies_true, true_and]
  intro kind some few _ valid
  let add (plan : Plan) (part : KeyPart) :=
    Orm.planAddPredicate limits plan part.column .equal part.value
  let back (plan : Plan) : Plan :=
    { plan with
      predicates := plan.predicates.take s.plan.predicates.length
      parameterBytes := s.plan.parameterBytes }
  refine (wp_forM parts _ (fun rest t => parts.foldlM add s.plan = rest.foldlM add t.plan ∧
    back t.plan = s.plan) (fun part rest t inv => ?_) ⟨rfl, by simp [back]⟩).mono ?_ fun _ _ undone => undone
  · obtain ⟨folds, undone⟩ := inv
    refine (refines_addPredicate .equal).mono (fun _ u added => ⟨?_, ?_⟩) fun _ u same => ?_
    · have here : add t.plan part = .ok u.plan := added
      rw [folds, foldlM_cons, here, ok_bind]
    · obtain ⟨-, -, -, made⟩ := planAddPredicate_ok added
      have kept : s.plan.predicates.length ≤ t.plan.predicates.length := by
        rw [← undone]
        simp [back]
      rw [made, ← undone]
      simp [back, take_append_of_le_length, kept]
    · rw [same]
      exact undone
  · rintro _ t ⟨folds, -⟩
    simp only [Orm.planAddKey, bind_eq_ok, reject_eq_ok, exists_unit]
    exact ⟨kind, some, few, valid, folds⟩

theorem apply_refines (op : PlanOp) : Refines s (apply limits op) (planApply limits s.plan op) := by
  cases op with
  | selectAll | setLimit | setOffset =>
    simp only [Refines, apply, edit, wp_bind, wp_get, wp_attempt, wp_modify, implies_true, true_and]
    exact fun _ made => made
  | addColumn column =>
    simp only [Refines, apply, planAddColumn, wp_bind, wp_get, wp_reject, implies_true, true_and]
    intro kind
    refine wp_copyIdentifier.mono (fun _ t named => ?_) fun _ _ same => same
    simp only [vecPush, allocate, edit, wp_bind, wp_get, wp_reject, wp_modifyGet, wp_modify, named.2,
      implies_true, true_and]
    intro room _
    simp [planApply, Orm.planAddColumn, Orm.vecPush, kind, named.1, not_le.mp room]
  | addAssignment column value =>
    simp only [Refines, apply, planAddAssignment, wp_bind, wp_get, wp_reject, implies_true, true_and]
    intro kind
    refine wp_copyIdentifier.mono (fun _ t named => ?_) fun _ _ same => same
    refine wp_addValue.mono (fun _ u stored => ?_) fun _ _ same => same.trans named.2
    obtain ⟨plan, copied, room, stored⟩ := stored
    rw [named.2] at copied
    simp [planApply, Orm.planAddAssignment, Orm.vecPush, kind, named.1, copied, room, stored]
  | addPredicate column comparison value => exact refines_addPredicate comparison
  | addKey parts => exact refines_addKey parts
  | addBind value =>
    simp only [Refines, apply, planAddBind, wp_bind, wp_get, wp_reject, implies_true, true_and]
    intro kind
    refine wp_addValue.mono (fun _ u stored => ?_) fun _ _ same => same
    obtain ⟨plan, copied, room, stored⟩ := stored
    simp [planApply, Orm.planAddBind, Orm.vecPush, kind, copied, room, stored]
  | setOrder column descending =>
    simp only [Refines, apply, planSetOrder, edit, wp_bind, wp_get, wp_reject, wp_modify,
      implies_true, true_and]
    intro kind
    refine wp_copyIdentifier.mono (fun _ t named => ?_) fun _ _ same => same
    simp [planApply, Orm.planSetOrder, kind, named]

/-- The plan after a sequence of calls, each with the answers of the allocator. -/
def run (limits : Limits) (start : Plan) (calls : List (PlanOp × List Bool)) : Plan :=
  calls.foldl (fun plan call => (final (apply limits call.1 ⟨plan, call.2⟩)).plan) start

theorem call_keeps (plan : Plan) (op : PlanOp) (grants : List Bool) :
    plan.Keeps limits (final (apply limits op ⟨plan, grants⟩)).plan := by
  have refines : Refines ⟨plan, grants⟩ (apply limits op) (planApply limits plan op) :=
    apply_refines op
  cases called : apply limits op ⟨plan, grants⟩ with
  | ok _ s => exact planApply_keeps (refines.of_ok called)
  | error e s =>
    have same : s.plan = plan := refines.of_error called
    rw [final_error, same]
    exact .refl

theorem run_keeps (start : Plan) (calls : List (PlanOp × List Bool)) :
    start.Keeps limits (run limits start calls) := by
  induction calls generalizing start with
  | nil => exact .refl
  | cons call calls ih => exact (call_keeps start call.1 call.2).trans (ih _)

/-- Over all sequences of calls the bytes are counted exactly and within the limit; a call that fails
leaves the plan as it was, and a key adds one predicate for each part. -/
theorem plan_counted {kind : QueryKind} {input : Bytes} {start : Plan}
    (started : planInit limits kind input = .ok start) (calls : List (PlanOp × List Bool)) :
    let plan := run limits start calls
    plan.Counted limits ∧ ∀ op grants,
      (∀ e s, apply limits op ⟨plan, grants⟩ = .error e s → s.plan = plan) ∧
      ∀ parts s, op = .addKey parts → apply limits op ⟨plan, grants⟩ = .ok () s →
        s.plan.predicates = plan.predicates ++ parts.map KeyPart.predicate := by
  refine ⟨(run_keeps start calls).counted (planInit_ok started).1, fun op grants => ⟨?_, ?_⟩⟩
  · exact fun e s failed => (apply_refines op).of_error failed
  · rintro parts s rfl made
    have ok := (apply_refines (.addKey parts)).of_ok made
    simp only [planApply, Orm.planAddKey, bind_eq_ok, exists_unit] at ok
    exact (planAddKey_ok ok.2.2.2.2).2

/-- The value of the second part of a key has no room in memory, after one predicate `a = 'A'`. -/
theorem plan_counted_key :
    let limits : Limits := ⟨0, 0, 4, 0, 8, 8, 0⟩
    let plan := run limits { Plan.empty .select with table := [116] }
      [(.addPredicate [97] .equal ⟨0, .text [65]⟩, [])]
    let key : PlanOp := .addKey [⟨[98], 0, .text [66]⟩, ⟨[99], 0, .text [67]⟩]
    plan.Counted limits ∧ plan.parameterBytes = 1 ∧
      ∃ e s, apply limits key ⟨plan, [true, true, true, true, false]⟩ = .error e s ∧ s.plan = plan := by
  intro limits plan key
  have started : planInit limits .select [116] = .ok { Plan.empty .select with table := [116] } := rfl
  have counted := plan_counted started [(.addPredicate [97] .equal ⟨0, .text [65]⟩, [])]
  have refused : ∃ e s, apply limits key ⟨plan, [true, true, true, true, false]⟩ = .error e s :=
    ⟨_, _, rfl⟩
  obtain ⟨e, s, refused⟩ := refused
  exact ⟨counted.1, rfl, e, s, refused, (counted.2 key _).1 e s refused⟩

end Refines

end Building

end TurboDb.Orm
