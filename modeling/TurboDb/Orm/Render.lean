import TurboDb.Orm.Plan

/-!
Rendering of query plans.

Two renderers turn a plan into the text of a statement and the list of its
parameters: one for SQLite and PostgreSQL, one for MySQL. They make the same
calls in the same order and differ in their messages, in how they write a name
and a placeholder, and in what stands for a missing limit before an offset. So
there is one renderer over these values, and each function of the source is it
at its own. Raw statements are passed on; for PostgreSQL the question marks outside
literals, quoted names and comments become dollar signs.

A failed rendering gives no query. Allocation failures, and sizes beyond the
range of the platform, are left out.
-/

namespace TurboDb.Orm

open ByteOrder Decimal Effect

structure SqlQuery where
  text : Bytes
  parameters : List Value
  deriving DecidableEq

abbrev Render := EStateM Failure SqlQuery

/-- What one renderer has for itself. -/
structure Renderer where
  tooLong : String
  tooManyParameters : String
  noColumns : String
  insertsNothing : String
  updatesNothing : String
  /-- The parts of a name, in the order in which they are appended. -/
  identifier : Bytes → List Bytes
  placeholder : Nat → Bytes
  /-- What stands for a missing limit before an offset. -/
  unlimited : Option String

section Statement

variable (renderer : Renderer) (limits : Limits)

def append (bytes : Bytes) : Render Unit := do
  let query ← get
  reject (bytes.length > limits.maxQueryBytes ∨
      query.text.length > limits.maxQueryBytes - bytes.length)
    ⟨.limitExceeded, renderer.tooLong⟩
  modify fun query => { query with text := query.text ++ bytes }

def appendCstr (text : String) : Render Unit := append renderer limits (ascii text)

def appendIdentifier (name : Bytes) : Render Unit :=
  (renderer.identifier name).forM (append renderer limits)

def appendU64 (value : UInt64) : Render Unit := append renderer limits (numeral value.toNat)

def pushParameter (value : Value) : Render Unit := do
  let query ← get
  reject (query.parameters.length ≥ limits.maxParameters)
    ⟨.limitExceeded, renderer.tooManyParameters⟩
  modify fun query => { query with parameters := query.parameters ++ [value] }
  append renderer limits (renderer.placeholder (query.parameters.length + 1))

def comparison : Compare → String
  | .equal => " = "
  | .notEqual => " != "
  | .less => " < "
  | .lessEqual => " <= "
  | .greater => " > "
  | .greaterEqual => " >= "
  | .like => " like "
  | .notLike => " not like "

/-- A loop that appends a separator before each element but the first. -/
def separated {α : Type} (separator : String) (body : α → Render Unit) : List α → Render Unit
  | [] => pure ()
  | first :: others => do
    body first
    others.forM fun other => do
      appendCstr renderer limits separator
      body other

def renderPredicate (predicate : Predicate) : Render Unit := do
  appendIdentifier renderer limits predicate.column
  if predicate.value = .null then
    match predicate.comparison with
    | .equal => appendCstr renderer limits " is null"
    | .notEqual => appendCstr renderer limits " is not null"
    | _ => throw ⟨.invalidArgument, "only equality comparisons accept a null value"⟩
  else
    appendCstr renderer limits (comparison predicate.comparison)
    pushParameter renderer limits predicate.value

def renderPredicates (plan : Plan) : Render Unit :=
  if plan.predicates = [] then pure () else do
    appendCstr renderer limits " where "
    separated renderer limits " and " (renderPredicate renderer limits) plan.predicates

def renderValue (value : Value) : Render Unit :=
  if value = .null then appendCstr renderer limits "null" else pushParameter renderer limits value

def renderOrdering (plan : Plan) : Render Unit :=
  match plan.ordering with
  | none => pure ()
  | some ordering => do
    appendCstr renderer limits " order by "
    appendIdentifier renderer limits ordering.column
    appendCstr renderer limits (if ordering.descending then " desc" else " asc")

def renderLimit (plan : Plan) : Render Unit :=
  match plan.limit with
  | some limit => do
    appendCstr renderer limits " limit "
    appendU64 renderer limits limit
  | none =>
    match plan.offset, renderer.unlimited with
    | some _, some unlimited => appendCstr renderer limits unlimited
    | _, _ => pure ()

def renderOffset (plan : Plan) : Render Unit :=
  match plan.offset with
  | none => pure ()
  | some offset => do
    appendCstr renderer limits " offset "
    appendU64 renderer limits offset

def renderSelect (plan : Plan) : Render Unit := do
  reject (plan.selectAll = false ∧ plan.columns = []) ⟨.invalidState, renderer.noColumns⟩
  appendCstr renderer limits "select "
  if plan.selectAll then appendCstr renderer limits "*"
  else separated renderer limits ", " (appendIdentifier renderer limits) plan.columns
  appendCstr renderer limits " from "
  appendIdentifier renderer limits plan.table
  renderPredicates renderer limits plan
  renderOrdering renderer limits plan
  renderLimit renderer limits plan
  renderOffset renderer limits plan

def renderInsert (plan : Plan) : Render Unit := do
  reject (plan.assignments = []) ⟨.invalidState, renderer.insertsNothing⟩
  appendCstr renderer limits "insert into "
  appendIdentifier renderer limits plan.table
  appendCstr renderer limits " ("
  separated renderer limits ", "
    (fun assignment => appendIdentifier renderer limits assignment.column) plan.assignments
  appendCstr renderer limits ") values ("
  separated renderer limits ", "
    (fun assignment => renderValue renderer limits assignment.value) plan.assignments
  appendCstr renderer limits ")"

def renderAssignment (assignment : Assignment) : Render Unit := do
  appendIdentifier renderer limits assignment.column
  appendCstr renderer limits " = "
  renderValue renderer limits assignment.value

def renderUpdate (plan : Plan) : Render Unit := do
  reject (plan.assignments = []) ⟨.invalidState, renderer.updatesNothing⟩
  appendCstr renderer limits "update "
  appendIdentifier renderer limits plan.table
  appendCstr renderer limits " set "
  separated renderer limits ", " (renderAssignment renderer limits) plan.assignments
  renderPredicates renderer limits plan

def renderDelete (plan : Plan) : Render Unit := do
  appendCstr renderer limits "delete from "
  appendIdentifier renderer limits plan.table
  renderPredicates renderer limits plan

def rendered (render : Render Unit) : Except Failure SqlQuery :=
  match render ⟨[], []⟩ with
  | .ok _ query => .ok query
  | .error failure _ => .error failure

end Statement

inductive ScanState
  | normal
  | singleQuote (backslashEscapes : Bool)
  | doubleQuote
  | lineComment
  | blockComment (depth : Nat)
  | dollarQuote (delimiter : Bytes)
  deriving DecidableEq

def dollarSign : UInt8 := 36

def questionMark : UInt8 := 63

/-- The size of a delimiter of which `size` bytes are read, or zero. -/
def dollarDelimiter : Nat → Bytes → Nat
  | _, [] => 0
  | size, next :: rest =>
    if next = dollarSign then size + 1
    else if identifierStart next ∨ (size ≠ 1 ∧ isDigit next) then dollarDelimiter (size + 1) rest
    else 0

def identifierCharacter (value : UInt8) : Bool := nameByte value || value = dollarSign

/-- Whether the bytes before a quote, the last one first, make it an escape string. -/
def escapeStringPrefix : Bytes → Bool
  | [] => false
  | [letter] => letter = 101 || letter = 69
  | letter :: earlier :: _ => (letter = 101 || letter = 69) && !identifierCharacter earlier

/-- One round: the next state, the byte that stays, and how many bytes are passed over. -/
def scanStep (before : Bytes) (next : UInt8) (rest : Bytes) : ScanState → ScanState × UInt8 × Nat
  | .normal =>
    let after := rest.headD 0
    if next = 39 then (.singleQuote (escapeStringPrefix before), next, 0)
    else if next = 34 then (.doubleQuote, next, 0)
    else if next = 45 ∧ after = 45 then (.lineComment, next, 1)
    else if next = 47 ∧ after = 42 then (.blockComment 1, next, 1)
    else if next = dollarSign ∧ dollarDelimiter 1 rest ≠ 0 then
      (.dollarQuote (next :: rest.take (dollarDelimiter 1 rest - 1)), next,
        dollarDelimiter 1 rest - 1)
    else if next = questionMark ∧ 49 ≤ after ∧ after ≤ 57 then (.normal, dollarSign, 0)
    else (.normal, next, 0)
  | .singleQuote escapes =>
    let after := rest.headD 0
    if escapes ∧ next = 92 ∧ after ≠ 0 then (.singleQuote escapes, next, 1)
    else if next = 39 ∧ after = 39 then (.singleQuote escapes, next, 1)
    else if next = 39 then (.normal, next, 0)
    else (.singleQuote escapes, next, 0)
  | .doubleQuote =>
    if next = 34 ∧ rest.headD 0 = 34 then (.doubleQuote, next, 1)
    else if next = 34 then (.normal, next, 0)
    else (.doubleQuote, next, 0)
  | .lineComment => if next = 10 ∨ next = 13 then (.normal, next, 0) else (.lineComment, next, 0)
  | .blockComment depth =>
    let after := rest.headD 0
    if next = 47 ∧ after = 42 then (.blockComment (depth + 1), next, 1)
    else if next = 42 ∧ after = 47 then
      (if depth - 1 = 0 then .normal else .blockComment (depth - 1), next, 1)
    else (.blockComment depth, next, 0)
  | .dollarQuote delimiter =>
    if next = dollarSign ∧ (next :: rest).take delimiter.length = delimiter then
      (.normal, next, delimiter.length - 1)
    else (.dollarQuote delimiter, next, 0)

/-- The loop over the text; `before` holds what is behind it, the last byte first. -/
def scanRaw : Nat → ScanState → Bytes → Bytes → Bytes
  | 0, _, before, rest => before.reverse ++ rest
  | _, _, before, [] => before.reverse
  | fuel + 1, state, before, next :: rest =>
    let (state, byte, passed) := scanStep before next rest state
    scanRaw fuel state ((rest.take passed).reverse ++ byte :: before) (rest.drop passed)

inductive SqlDialect
  | sqlite | postgres
  deriving DecidableEq

def normalizeRawPlaceholders (dialect : SqlDialect) (sql : Bytes) : Bytes :=
  match dialect with
  | .sqlite => sql
  | .postgres => scanRaw sql.length .normal [] sql

section Sql

variable (limits : Limits)

def sqlPlaceholder : SqlDialect → Nat → Bytes
  | .postgres, oneBased => dollarSign :: numeral oneBased
  | .sqlite, oneBased => questionMark :: numeral oneBased

def sqlRenderer (dialect : SqlDialect) : Renderer :=
  { tooLong := "SQL query exceeds max_query_bytes"
    tooManyParameters := "append SQL parameter"
    noColumns := "SELECT query has no projected columns"
    insertsNothing := "INSERT query has no assignments"
    updatesNothing := "UPDATE query has no assignments"
    identifier := fun name => [name]
    placeholder := sqlPlaceholder dialect
    unlimited := if dialect = .sqlite then some " limit -1" else none }

def sqlRenderRaw (dialect : SqlDialect) (plan : Plan) : Render Unit := do
  append (sqlRenderer dialect) limits plan.rawSql
  modify fun query => { query with text := normalizeRawPlaceholders dialect query.text }
  plan.rawParameters.forM fun value => do
    let query ← get
    reject (query.parameters.length ≥ limits.maxParameters)
      ⟨.limitExceeded, "append raw SQL parameter"⟩
    modify fun query => { query with parameters := query.parameters ++ [value] }

def ormSqlRender (dialect : SqlDialect) (plan : Plan) : Except Failure SqlQuery :=
  rendered <| match plan.kind with
    | .select => renderSelect (sqlRenderer dialect) limits plan
    | .insert => renderInsert (sqlRenderer dialect) limits plan
    | .update => renderUpdate (sqlRenderer dialect) limits plan
    | .delete => renderDelete (sqlRenderer dialect) limits plan
    | .raw => sqlRenderRaw limits dialect plan

end Sql

section Mysql

variable (limits : Limits)

def backquote : UInt8 := 96

/-- What is appended after the opening quote; `segment` is read but not appended yet. -/
def mysqlSegments (segment : Bytes) : Bytes → List Bytes
  | [] => [segment, [backquote]]
  | next :: rest =>
    if next ≠ dot ∧ next ≠ backquote then mysqlSegments (segment ++ [next]) rest
    else
      segment ::
        (if next = dot then [backquote, dot, backquote] else [backquote, backquote]) ::
        mysqlSegments [] rest

def mysqlIdentifier (name : Bytes) : List Bytes := [backquote] :: mysqlSegments [] name

def mysqlRenderer : Renderer :=
  { tooLong := "MySQL query exceeds max_query_bytes"
    tooManyParameters := "too many MySQL parameters"
    noColumns := "MySQL SELECT has no projected columns"
    insertsNothing := "MySQL INSERT has no assignments"
    updatesNothing := "MySQL UPDATE has no assignments"
    identifier := mysqlIdentifier
    placeholder := fun _ => [questionMark]
    unlimited := some " limit 18446744073709551615" }

def ormMysqlRenderPlan (plan : Plan) : Except Failure SqlQuery :=
  match plan.kind with
  | .raw => .error ⟨.unsupported, "RAW SQL does not use the MySQL structured renderer"⟩
  | .select => rendered (renderSelect mysqlRenderer limits plan)
  | .insert => rendered (renderInsert mysqlRenderer limits plan)
  | .update => rendered (renderUpdate mysqlRenderer limits plan)
  | .delete => rendered (renderDelete mysqlRenderer limits plan)

end Mysql

end TurboDb.Orm
