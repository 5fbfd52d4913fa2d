import Mathlib.Data.List.Chain
import TurboDb.Orm.Render

/-!
Statements as sequences of fragments.

What a renderer does with a plan does not depend on the text so far: it is a
sequence of fragments, each a piece of fixed text, a name, a number, a parameter
or a refusal. Each rendering function performs exactly the fragments of its plan,
and a performance adds their spelling to the text and their parameters to the list.

Erasing the contents of all values of a plan erases the parameters among its
fragments and nothing else, and a performance does not look at them.
-/

namespace TurboDb.Orm

open ByteOrder Decimal Effect List

inductive Fragment
  | text (words : String)
  | name (identifier : Bytes)
  | number (value : UInt64)
  | parameter (value : Value)
  | refuse (failure : Failure)
  deriving DecidableEq

section Perform

variable (renderer : Renderer) (limits : Limits)

def Fragment.perform : Fragment → Render Unit
  | .text words => appendCstr renderer limits words
  | .name identifier => appendIdentifier renderer limits identifier
  | .number value => appendU64 renderer limits value
  | .parameter value => pushParameter renderer limits value
  | .refuse failure => throw failure

def perform (fragments : List Fragment) : Render Unit :=
  forM fragments (Fragment.perform renderer limits)

variable {renderer limits}

@[simp] theorem perform_nil : perform renderer limits [] = pure () := rfl

@[simp] theorem perform_cons (fragment : Fragment) (rest : List Fragment) :
    perform renderer limits (fragment :: rest) =
      (do fragment.perform renderer limits; perform renderer limits rest) := rfl

@[simp] theorem perform_append (first second : List Fragment) :
    perform renderer limits (first ++ second) =
      (do perform renderer limits first; perform renderer limits second) := by
  rw [perform, forM_append]
  rfl

@[simp] theorem perform_one (fragment : Fragment) :
    perform renderer limits [fragment] = fragment.perform renderer limits := by
  rw [perform_cons, perform_nil, bind_pure_unit]

theorem perform_name (identifier : Bytes) :
    appendIdentifier renderer limits identifier = perform renderer limits [.name identifier] := by
  rw [perform_one, Fragment.perform]

end Perform

section Fragments

/-- Fragments for each element, with a separator between them. -/
def between {α : Type} (separator : String) (body : α → List Fragment) : List α → List Fragment
  | [] => []
  | first :: others => body first ++ others.flatMap fun other => .text separator :: body other

def refusal (refused : Prop) [Decidable refused] (message : String) : List Fragment :=
  if refused then [.refuse ⟨.invalidState, message⟩] else []

def predicateFragments (predicate : Predicate) : List Fragment :=
  .name predicate.column ::
    if predicate.value = .null then
      match predicate.comparison with
      | .equal => [.text " is null"]
      | .notEqual => [.text " is not null"]
      | _ => [.refuse ⟨.invalidArgument, "only equality comparisons accept a null value"⟩]
    else [.text (comparison predicate.comparison), .parameter predicate.value]

def whereFragments (plan : Plan) : List Fragment :=
  if plan.predicates = [] then []
  else .text " where " :: between " and " predicateFragments plan.predicates

def valueFragments (value : Value) : List Fragment :=
  if value = .null then [.text "null"] else [.parameter value]

def orderFragments (plan : Plan) : List Fragment :=
  match plan.ordering with
  | none => []
  | some ordering =>
    [.text " order by ", .name ordering.column,
      .text (if ordering.descending then " desc" else " asc")]

def offsetFragments (plan : Plan) : List Fragment :=
  match plan.offset with
  | none => []
  | some offset => [.text " offset ", .number offset]

def assignmentFragments (assignment : Assignment) : List Fragment :=
  .name assignment.column :: .text " = " :: valueFragments assignment.value

def deleteFragments (plan : Plan) : List Fragment :=
  .text "delete from " :: .name plan.table :: whereFragments plan

variable (renderer : Renderer)

def limitFragments (plan : Plan) : List Fragment :=
  match plan.limit with
  | some limit => [.text " limit ", .number limit]
  | none =>
    match plan.offset, renderer.unlimited with
    | some _, some unlimited => [.text unlimited]
    | _, _ => []

def columnFragments (plan : Plan) : List Fragment :=
  if plan.selectAll then [.text "*"] else between ", " (fun column => [.name column]) plan.columns

def selectFragments (plan : Plan) : List Fragment :=
  refusal (plan.selectAll = false ∧ plan.columns = []) renderer.noColumns ++
    .text "select " :: (columnFragments plan ++ .text " from " :: .name plan.table ::
      (whereFragments plan ++ (orderFragments plan ++ (limitFragments renderer plan ++
        offsetFragments plan))))

def insertFragments (plan : Plan) : List Fragment :=
  refusal (plan.assignments = []) renderer.insertsNothing ++
    .text "insert into " :: .name plan.table :: .text " (" ::
      (between ", " (fun assignment => [.name assignment.column]) plan.assignments ++
        .text ") values (" ::
          (between ", " (fun assignment => valueFragments assignment.value) plan.assignments ++
            [.text ")"]))

def updateFragments (plan : Plan) : List Fragment :=
  refusal (plan.assignments = []) renderer.updatesNothing ++
    .text "update " :: .name plan.table :: .text " set " ::
      (between ", " assignmentFragments plan.assignments ++ whereFragments plan)

def fragments (plan : Plan) : List Fragment :=
  match plan.kind with
  | .select => selectFragments renderer plan
  | .insert => insertFragments renderer plan
  | .update => updateFragments renderer plan
  | .delete => deleteFragments plan
  | .raw => []

end Fragments

variable {renderer : Renderer} {limits : Limits} {plan : Plan}

variable {refused : Prop} {message : String} {α : Type} {separator : String} {rest : List Fragment}
  {value : Value}

theorem perform_refusal [Decidable refused] :
    perform renderer limits (refusal refused message) = reject refused ⟨.invalidState, message⟩ := by
  by_cases h : refused
  · rw [refusal, reject, if_pos h, if_pos h, perform_one]
    rfl
  · rw [refusal, reject, if_neg h, if_neg h]
    rfl

theorem perform_between {body : α → Render Unit} {script : α → List Fragment}
    (each : ∀ x, body x = perform renderer limits (script x)) (xs : List α) :
    separated renderer limits separator body xs =
      perform renderer limits (between separator script xs) := by
  cases xs with
  | nil => rfl
  | cons first others =>
    rw [separated, between, perform_append, each]
    congr 1
    induction others with
    | nil => rfl
    | cons other others ih =>
      rw [flatMap_cons, perform_append, perform_cons, ← each, ← ih]
      rfl

theorem renderPredicate_eq (predicate : Predicate) :
    renderPredicate renderer limits predicate =
      perform renderer limits (predicateFragments predicate) := by
  rw [renderPredicate, predicateFragments, perform_cons]
  by_cases isNull : predicate.value = .null
  · simp only [if_pos isNull]
    cases predicate.comparison <;> simp only [perform_one] <;> rfl
  · simp only [if_neg isNull, perform_cons, perform_nil, bind_pure_unit]
    rfl

theorem renderPredicates_eq :
    renderPredicates renderer limits plan = perform renderer limits (whereFragments plan) := by
  rw [renderPredicates, whereFragments]
  split
  case isTrue => rfl
  case isFalse =>
    rw [perform_cons, perform_between renderPredicate_eq]
    rfl

theorem renderValue_eq (value : Value) :
    renderValue renderer limits value = perform renderer limits (valueFragments value) := by
  rw [renderValue, valueFragments]
  split <;> rw [perform_one] <;> rfl

theorem renderAssignment_eq (assignment : Assignment) :
    renderAssignment renderer limits assignment =
      perform renderer limits (assignmentFragments assignment) := by
  rw [renderAssignment, assignmentFragments, renderValue_eq]
  rfl

theorem renderOrdering_eq :
    renderOrdering renderer limits plan = perform renderer limits (orderFragments plan) := by
  rw [renderOrdering, orderFragments]
  cases plan.ordering with
  | none => rfl
  | some ordering =>
    simp only [perform_cons, perform_nil, bind_pure_unit]
    rfl

theorem renderLimit_eq :
    renderLimit renderer limits plan = perform renderer limits (limitFragments renderer plan) := by
  rw [renderLimit, limitFragments]
  cases plan.limit <;> cases plan.offset <;> cases renderer.unlimited <;>
    simp only [perform_cons, perform_nil, bind_pure_unit] <;> rfl

theorem renderOffset_eq :
    renderOffset renderer limits plan = perform renderer limits (offsetFragments plan) := by
  rw [renderOffset, offsetFragments]
  cases plan.offset with
  | none => rfl
  | some offset =>
    simp only [perform_cons, perform_nil, bind_pure_unit]
    rfl

theorem renderSelect_eq :
    renderSelect renderer limits plan = perform renderer limits (selectFragments renderer plan) := by
  have columns : (if plan.selectAll then appendCstr renderer limits "*"
      else separated renderer limits ", " (appendIdentifier renderer limits) plan.columns) =
        perform renderer limits (columnFragments plan) := by
    rw [columnFragments]
    split
    case isTrue => rw [perform_one, Fragment.perform]
    case isFalse => exact perform_between perform_name _
  simp only [renderSelect, selectFragments, perform_append, perform_cons, perform_refusal,
    renderPredicates_eq, renderOrdering_eq, renderLimit_eq, renderOffset_eq, ← columns,
    Fragment.perform]
  congr 1
  funext _
  split <;> rfl

theorem renderInsert_eq :
    renderInsert renderer limits plan = perform renderer limits (insertFragments renderer plan) := by
  simp only [renderInsert, insertFragments, perform_append, perform_cons, perform_nil,
    bind_pure_unit, perform_refusal,
    perform_between fun assignment : Assignment => perform_name assignment.column,
    perform_between fun assignment : Assignment => renderValue_eq assignment.value]
  rfl

theorem renderUpdate_eq :
    renderUpdate renderer limits plan = perform renderer limits (updateFragments renderer plan) := by
  simp only [renderUpdate, updateFragments, perform_append, perform_cons, perform_refusal,
    perform_between renderAssignment_eq, renderPredicates_eq]
  rfl

theorem renderDelete_eq :
    renderDelete renderer limits plan = perform renderer limits (deleteFragments plan) := by
  simp only [renderDelete, deleteFragments, perform_cons, renderPredicates_eq]
  rfl

theorem ormSqlRender_eq {dialect : SqlDialect} (structured : plan.kind ≠ .raw) :
    ormSqlRender limits dialect plan =
      rendered (perform (sqlRenderer dialect) limits (fragments (sqlRenderer dialect) plan)) := by
  rw [ormSqlRender, fragments]
  cases kind : plan.kind with
  | select => exact congrArg rendered renderSelect_eq
  | insert => exact congrArg rendered renderInsert_eq
  | update => exact congrArg rendered renderUpdate_eq
  | delete => exact congrArg rendered renderDelete_eq
  | raw => exact absurd kind structured

theorem ormMysqlRenderPlan_eq (structured : plan.kind ≠ .raw) :
    ormMysqlRenderPlan limits plan =
      rendered (perform mysqlRenderer limits (fragments mysqlRenderer plan)) := by
  rw [ormMysqlRenderPlan, fragments]
  cases kind : plan.kind with
  | select => exact congrArg rendered renderSelect_eq
  | insert => exact congrArg rendered renderInsert_eq
  | update => exact congrArg rendered renderUpdate_eq
  | delete => exact congrArg rendered renderDelete_eq
  | raw => exact absurd kind structured

section Completed

variable {query query' : SqlQuery}

def Fragment.bytes (renderer : Renderer) : Fragment → Bytes
  | .text words => ascii words
  | .name identifier => (renderer.identifier identifier).flatten
  | .number value => numeral value.toNat
  | .parameter _ | .refuse _ => []

def spelling (renderer : Renderer) : Nat → List Fragment → Bytes
  | _, [] => []
  | count, .parameter _ :: rest => renderer.placeholder (count + 1) ++ spelling renderer (count + 1) rest
  | count, fragment :: rest => fragment.bytes renderer ++ spelling renderer count rest

def Fragment.value? : Fragment → Option Value
  | .parameter value => some value
  | _ => none

def values (fragments : List Fragment) : List Value := fragments.filterMap Fragment.value?

@[simp] theorem values_nil : values [] = [] := rfl

@[simp] theorem values_cons {fragment : Fragment} :
    values (fragment :: rest) = fragment.value?.toList ++ values rest := by
  cases fragment <;> rfl

@[simp] theorem values_append {first second : List Fragment} :
    values (first ++ second) = values first ++ values second := filterMap_append

theorem spelling_plain {fragment : Fragment} {count : Nat} (plain : fragment.value? = none) :
    spelling renderer count (fragment :: rest) =
      fragment.bytes renderer ++ spelling renderer count rest := by
  cases fragment with
  | parameter value => cases plain
  | text _ | name _ | number _ | refuse _ => rfl

theorem append_completed {bytes : Bytes}
    (ok : append renderer limits bytes query = .ok () query') :
    query' = { query with text := query.text ++ bytes } := by
  rw [append, run_bind_ok run_get, run_bind_eq_ok] at ok
  obtain ⟨_, _, checked, ok⟩ := ok
  obtain ⟨-, rfl⟩ := run_reject_eq_ok.mp checked
  cases ok
  rfl

theorem appends_completed {parts : List Bytes}
    (ok : parts.forM (append renderer limits) query = .ok () query') :
    query' = { query with text := query.text ++ parts.flatten } := by
  induction parts generalizing query with
  | nil =>
    cases ok
    simp
  | cons part parts ih =>
    rw [forM_eq_forM, forM_cons, run_bind_eq_ok] at ok
    obtain ⟨_, next, first, rest⟩ := ok
    rw [ih rest, append_completed first]
    simp

theorem pushParameter_completed (ok : pushParameter renderer limits value query = .ok () query') :
    query' = ⟨query.text ++ renderer.placeholder (query.parameters.length + 1),
      query.parameters ++ [value]⟩ := by
  rw [pushParameter, run_bind_ok run_get, run_bind_eq_ok] at ok
  obtain ⟨_, _, checked, ok⟩ := ok
  obtain ⟨-, rfl⟩ := run_reject_eq_ok.mp checked
  exact append_completed ok

theorem perform_completed {fragments : List Fragment}
    (ok : perform renderer limits fragments query = .ok () query') :
    query' = ⟨query.text ++ spelling renderer query.parameters.length fragments,
      query.parameters ++ values fragments⟩ := by
  induction fragments generalizing query with
  | nil =>
    cases ok
    simp [spelling]
  | cons fragment rest ih =>
    rw [perform_cons, run_bind_eq_ok] at ok
    obtain ⟨_, next, first, ok⟩ := ok
    rw [ih ok]
    cases fragment with
    | text words =>
      rw [append_completed first]
      simp [spelling, Fragment.bytes, Fragment.value?]
    | name identifier =>
      rw [appends_completed first]
      simp [spelling, Fragment.bytes, Fragment.value?]
    | number value =>
      rw [append_completed first]
      simp [spelling, Fragment.bytes, Fragment.value?]
    | parameter value =>
      rw [pushParameter_completed first]
      simp [spelling, Fragment.value?]
    | refuse failure => cases first

theorem rendered_ok {fragments : List Fragment}
    (ok : rendered (perform renderer limits fragments) = .ok query) :
    query.text = spelling renderer 0 fragments ∧ query.parameters = values fragments := by
  rw [rendered] at ok
  cases performed : perform renderer limits fragments ⟨[], []⟩ with
  | error failure query' => simp [performed] at ok
  | ok _ query' =>
    simp only [performed, Except.ok.injEq] at ok
    rw [← ok, perform_completed performed]
    simp

end Completed

open Fragment

/-- Values that are not NULL become one and the same. -/
def eraseValue (value : Value) : Value := if value = .null then .null else .blob []

def Fragment.erase : Fragment → Fragment
  | .parameter value => .parameter (eraseValue value)
  | fragment => fragment

def SqlQuery.erase (query : SqlQuery) : SqlQuery :=
  { query with parameters := query.parameters.map eraseValue }

def Assignment.erase (assignment : Assignment) : Assignment :=
  { assignment with value := eraseValue assignment.value }

def Predicate.erase (predicate : Predicate) : Predicate :=
  { predicate with value := eraseValue predicate.value }

/-- The shape of a plan: everything but the contents of its values. -/
def Plan.erase (plan : Plan) : Plan :=
  { plan with
    assignments := plan.assignments.map Assignment.erase
    predicates := plan.predicates.map Predicate.erase
    rawParameters := plan.rawParameters.map eraseValue
    parameterBytes := 0 }

theorem eraseValue_eq_null : eraseValue value = .null ↔ value = .null := by
  rw [eraseValue]
  split <;> simp_all

theorem append_mirrors (bytes : Bytes) :
    Mirrors SqlQuery.erase (append renderer limits bytes) (append renderer limits bytes) := by
  intro query
  have same : query.erase.text = query.text := rfl
  rw [append, run_bind_ok run_get, run_bind_ok run_get, same]
  by_cases long : bytes.length > limits.maxQueryBytes ∨
      query.text.length > limits.maxQueryBytes - bytes.length
  · rw [run_bind_error (run_reject_error long), run_bind_error (run_reject_error long)]
    rfl
  · rw [run_bind_ok (run_reject long), run_bind_ok (run_reject long)]
    rfl

theorem pushParameter_mirrors (value : Value) :
    Mirrors SqlQuery.erase (pushParameter renderer limits value)
      (pushParameter renderer limits (eraseValue value)) := by
  intro query
  have same : query.erase.parameters.length = query.parameters.length := by
    rw [SqlQuery.erase, length_map]
  rw [pushParameter, pushParameter, run_bind_ok run_get, run_bind_ok run_get, same]
  by_cases full : query.parameters.length ≥ limits.maxParameters
  · rw [run_bind_error (run_reject_error full), run_bind_error (run_reject_error full)]
    rfl
  · rw [run_bind_ok (run_reject full), run_bind_ok (run_reject full), run_bind_ok run_modify,
      run_bind_ok run_modify]
    rw [← append_mirrors]
    simp [SqlQuery.erase]

theorem fragment_mirrors (fragment : Fragment) :
    Mirrors SqlQuery.erase (fragment.perform renderer limits)
      (fragment.erase.perform renderer limits) := by
  cases fragment with
  | text words => exact append_mirrors _
  | name identifier =>
    have parts : Mirrors SqlQuery.erase
        (forM (renderer.identifier identifier) (append renderer limits))
        (forM ((renderer.identifier identifier).map id) (append renderer limits)) :=
      mirrors_forM id append_mirrors _
    rwa [map_id] at parts
  | number value => exact append_mirrors _
  | parameter value => exact pushParameter_mirrors value
  | refuse failure => exact mirrors_throw failure

/-- The text that is rendered, or the failure, without the parameters. -/
def textOf (result : Except Failure SqlQuery) : Except Failure Bytes := result.map (·.text)

theorem rendered_erase (fragments : List Fragment) :
    textOf (rendered (perform renderer limits (fragments.map erase))) =
      textOf (rendered (perform renderer limits fragments)) := by
  have mirrored : perform renderer limits (fragments.map erase) ⟨[], []⟩ =
      outcome SqlQuery.erase (perform renderer limits fragments ⟨[], []⟩) :=
    mirrors_forM erase fragment_mirrors fragments ⟨[], []⟩
  rw [rendered, rendered, mirrored]
  cases perform renderer limits fragments ⟨[], []⟩ <;> rfl

theorem between_erase (body : α → List Fragment) (image : α → α)
    (each : ∀ x, body (image x) = (body x).map erase) (xs : List α) :
    between separator body (xs.map image) = (between separator body xs).map erase := by
  cases xs with
  | nil => rfl
  | cons first others =>
    rw [map_cons, between, between, map_append, each, map_flatMap,
      flatMap_map]
    simp only [each, map_cons]
    rfl

theorem valueFragments_erase (value : Value) :
    valueFragments (eraseValue value) = (valueFragments value).map erase := by
  rw [valueFragments, valueFragments]
  by_cases isNull : value = .null
  · rw [if_pos isNull, if_pos (eraseValue_eq_null.mpr isNull)]
    rfl
  · rw [if_neg isNull, if_neg (mt eraseValue_eq_null.mp isNull)]
    rfl

theorem predicateFragments_erase (predicate : Predicate) :
    predicateFragments predicate.erase = (predicateFragments predicate).map erase := by
  rw [predicateFragments, predicateFragments, map_cons, Predicate.erase]
  by_cases isNull : predicate.value = .null
  · rw [if_pos isNull, if_pos (eraseValue_eq_null.mpr isNull)]
    cases predicate.comparison <;> rfl
  · rw [if_neg isNull, if_neg (mt eraseValue_eq_null.mp isNull)]
    rfl

theorem whereFragments_erase (plan : Plan) :
    whereFragments plan.erase = (whereFragments plan).map erase := by
  simp only [whereFragments, Plan.erase, map_eq_nil_iff]
  by_cases none : plan.predicates = []
  · simp only [if_pos none, map_nil]
  · simp only [if_neg none, map_cons, between_erase _ _ predicateFragments_erase]
    rfl

theorem assignmentFragments_erase (assignment : Assignment) :
    assignmentFragments assignment.erase = (assignmentFragments assignment).map erase := by
  simp only [assignmentFragments, Assignment.erase, valueFragments_erase, map_cons]
  rfl

theorem map_erase {fragments : List Fragment} (free : values fragments = []) :
    fragments.map erase = fragments := by
  induction fragments with
  | nil => rfl
  | cons fragment rest ih =>
    simp only [values_cons, append_eq_nil_iff] at free
    rw [map_cons, ih free.2]
    cases fragment with
    | parameter value => exact absurd free.1 (by simp [value?])
    | text _ | name _ | number _ | refuse _ => rfl

/-- The values that are not NULL: those of the assignments, then those of the predicates. -/
def Plan.bound (plan : Plan) : List Value :=
  (plan.assignments.map (·.value) ++ plan.predicates.map (·.value)).filter (· ≠ .null)

theorem values_between {body : α → List Fragment} (xs : List α) :
    values (between separator body xs) = xs.flatMap fun x => values (body x) := by
  cases xs with
  | nil => rfl
  | cons first others =>
    rw [between, values_append, flatMap_cons]
    congr 1
    induction others with
    | nil => rfl
    | cons other others ih =>
      rw [flatMap_cons, values_append, ih, flatMap_cons, values_cons]
      rfl

theorem flatMap_eq_filter {f : α → Value} {g : α → List Value}
    (each : ∀ x, g x = if f x = .null then [] else [f x]) (xs : List α) :
    xs.flatMap g = (xs.map f).filter (· ≠ .null) := by
  induction xs with
  | nil => rfl
  | cons x xs ih =>
    rw [flatMap_cons, ih, each, map_cons, filter_cons]
    by_cases isNull : f x = .null <;> simp [isNull]

theorem values_valueFragments (value : Value) :
    values (valueFragments value) = if value = .null then [] else [value] := by
  rw [valueFragments]
  split <;> rfl

theorem values_predicateFragments (predicate : Predicate) :
    values (predicateFragments predicate) =
      if predicate.value = .null then [] else [predicate.value] := by
  rw [predicateFragments]
  split
  case isTrue => cases predicate.comparison <;> rfl
  case isFalse => rfl

theorem values_whereFragments :
    values (whereFragments plan) = (plan.predicates.map (·.value)).filter (· ≠ .null) := by
  rw [whereFragments]
  split
  case isTrue none => rw [none]; rfl
  case isFalse =>
    rw [values_cons, values_between, flatMap_eq_filter values_predicateFragments]
    rfl

@[simp] theorem values_refusal [Decidable refused] : values (refusal refused message) = [] := by
  rw [refusal]
  split <;> rfl

@[simp] theorem values_columnFragments : values (columnFragments plan) = [] := by
  rw [columnFragments]
  split
  case isTrue => rfl
  case isFalse => simp [values_between, value?]

@[simp] theorem values_orderFragments : values (orderFragments plan) = [] := by
  rw [orderFragments]
  cases plan.ordering <;> rfl

@[simp] theorem values_limitFragments : values (limitFragments renderer plan) = [] := by
  rw [limitFragments]
  cases plan.limit <;> cases plan.offset <;> cases renderer.unlimited <;> rfl

@[simp] theorem values_offsetFragments : values (offsetFragments plan) = [] := by
  rw [offsetFragments]
  cases plan.offset <;> rfl

theorem values_fragments (wf : plan.Wf) : values (fragments renderer plan) = plan.bound := by
  have assigned : plan.assignments.flatMap (fun assignment => values (valueFragments assignment.value)) =
      (plan.assignments.map (·.value)).filter (· ≠ .null) :=
    flatMap_eq_filter (fun assignment => values_valueFragments assignment.value) _
  have unassigned (kind : plan.kind = .select ∨ plan.kind = .delete) : plan.assignments = [] := by
    by_contra some
    have := wf.assigns some
    grind
  have unfiltered (kind : plan.kind = .insert) : plan.predicates = [] := by
    by_contra some
    exact wf.filters some kind
  rw [fragments, Plan.bound, filter_append]
  cases kind : plan.kind with
  | select =>
    simp [selectFragments, values_whereFragments, value?, unassigned (.inl kind)]
  | insert =>
    simp [insertFragments, values_between, assigned, value?, unfiltered kind]
  | update =>
    simp [updateFragments, values_between, assignmentFragments, assigned, value?,
      values_whereFragments]
  | delete =>
    simp [deleteFragments, values_whereFragments, value?, unassigned (.inr kind)]
  | raw => exact absurd kind wf.structured

theorem fragments_erase :
    fragments renderer plan.erase = (fragments renderer plan).map erase := by
  have columns := @between_erase Assignment ", " (fun assignment => [.name assignment.column])
    Assignment.erase fun _ => rfl
  have assigned := @between_erase Assignment ", "
    (fun assignment => valueFragments assignment.value) Assignment.erase
    fun assignment => valueFragments_erase assignment.value
  have kept : (plan.erase.assignments = []) = (plan.assignments = []) := by simp [Plan.erase]
  have selected : columnFragments plan.erase = columnFragments plan := rfl
  have ordered : orderFragments plan.erase = orderFragments plan := rfl
  have limited : limitFragments renderer plan.erase = limitFragments renderer plan := rfl
  have moved : offsetFragments plan.erase = offsetFragments plan := rfl
  rw [fragments, fragments]
  change (match plan.kind with
    | .select => _
    | .insert => _
    | .update => _
    | .delete => _
    | .raw => _) = _
  cases kind : plan.kind with
  | select =>
    simp only [selectFragments, map_append, map_cons, whereFragments_erase, selected,
      ordered, limited, moved, map_erase values_columnFragments, map_erase values_orderFragments,
      map_erase values_limitFragments, map_erase values_offsetFragments, map_erase values_refusal]
    rfl
  | insert =>
    simp only [insertFragments, map_append, map_cons, kept, map_erase values_refusal]
    simp only [Plan.erase, columns, assigned]
    rfl
  | update =>
    simp only [updateFragments, map_append, map_cons, kept, map_erase values_refusal,
      whereFragments_erase]
    simp only [Plan.erase, between_erase _ _ assignmentFragments_erase]
    rfl
  | delete =>
    simp only [deleteFragments, map_cons, whereFragments_erase]
    rfl
  | raw => rfl

end TurboDb.Orm
