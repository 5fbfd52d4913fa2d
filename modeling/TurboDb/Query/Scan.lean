import TurboDb.Library.Pull
import TurboDb.Query.Window

/-!
Scans: filter, projection, order, duplicates and page.

A scan without order keys and without DISTINCT passes rows through one by one.
Otherwise it first reads its whole source and keeps, behind the values of each
row that passes the filter, its order keys and for DISTINCT its outputs; these
records are sorted by outputs, compacted in place, and sorted by keys.

The source is a list of rows, and an expression a function of the row. Charges
to the budget, the promotion of integers to reals in unions, and overflow of
positions are left out.
-/

namespace TurboDb.Query

open Effect

structure ScanValue where
  type : SqlType
  eval : Row → Except Failure Value
  typed : ∀ {row value}, eval row = .ok value → validValue value type = true

def ScanValue.column (slot : Nat) (type : SqlType) : ScanValue where
  type := type
  eval row := do
    let _ ← predicateEval ⟨.isNull, type, ⟨.null, true⟩, ⟨.boolean, false⟩, false⟩ (row.at slot) none
    pure (row.at slot)
  typed {row value} h := by
    simp only [bind_eq_ok, pure_eq_ok] at h
    obtain ⟨_, valid, rfl⟩ := h
    exact (predicateEval_isNull.mp valid).1

structure ScanSpec where
  types : List SqlType
  filter : Option (Row → Except Failure Value)
  projection : List ScanValue
  orders : List (ScanValue × Bool)
  distinct : Bool
  offset : Nat
  limit : Nat

structure ScanRun where
  spec : ScanSpec
  source : List Row
  position : Nat
  offsetLeft : Nat
  limitLeft : Nat
  /-- The sorted records that are not given yet. -/
  sorted : Option (List Row)
  state : ScanState

def scanOpen (spec : ScanSpec) (source : List Row) : ScanRun :=
  ⟨spec, source, 0, spec.offset, spec.limit, none, .opened⟩

variable (spec : ScanSpec)

def scanMatches (row : Row) : Except Failure Bool :=
  match spec.filter with
  | none => pure true
  | some filter => do
    let value ← filter row
    pure value.truth

def scanProjectRow (row : Row) : Except Failure Row := spec.projection.mapM (·.eval row)

/-- What is kept behind the values of a row: its keys and with DISTINCT its outputs. -/
def ScanSpec.kept : List ScanValue :=
  spec.orders.map (·.1) ++ if spec.distinct then spec.projection else []

def scanCapture (row : Row) : Except Failure Row := do
  let kept ← spec.kept.mapM (·.eval row)
  pure (row ++ kept)

/-- The order keys are behind the values of a record. -/
def ScanSpec.keyOrders : List ScanOrder :=
  spec.orders.mapIdx fun i order => ⟨spec.types.length + i, order.2⟩

def ScanSpec.outputOrders : List ScanOrder :=
  spec.projection.mapIdx fun i _ => ⟨spec.types.length + spec.orders.length + i, false⟩

def scanDistinct (records : List Row) : List Row :=
  (scanRows spec.outputOrders records).destutter fun a b =>
    scanCompareRows spec.outputOrders a b ≠ .eq

def scanFailure (position : Nat) (cause : Failure) : Failure :=
  ⟨cause.status, "TidesDB SQL scan at row " ++ toString position ++ ": " ++ cause.message⟩

def scanTake (row : Row) : Except Failure (List Row) := do
  let isMatch ← scanMatches spec row
  if isMatch then
    let record ← scanCapture spec row
    pure [record]
  else pure []

def scanCollect : Nat → List Row → Except Failure (List Row)
  | _, [] => pure []
  | position, row :: source => do
    let taken ← (scanTake spec row).mapError (scanFailure position)
    let records ← scanCollect (position + 1) source
    pure (taken ++ records)

def scanPrepareSort (run : ScanRun) : Except Failure (List Row) := do
  let records ← scanCollect run.spec run.position run.source
  let records := if run.spec.distinct then scanDistinct run.spec records else records
  pure ((scanRows run.spec.keyOrders records).drop run.offsetLeft)

def scanFail (failure : Failure) (run : ScanRun) : Except Failure (Option Row) × ScanRun :=
  (.error failure, { run with state := .error failure })

def scanDone (run : ScanRun) : Except Failure (Option Row) × ScanRun :=
  (.ok none, { run with state := .done })

/-- Give the first of the sorted records; when there is none, no row is left to give. -/
def scanSorted (run : ScanRun) : List Row → Except Failure (Option Row) × ScanRun
  | [] => scanDone { run with sorted := some [], limitLeft := 0 }
  | record :: records =>
    let output :=
      if run.spec.distinct then
        pure (record.drop (run.spec.types.length + run.spec.orders.length))
      else scanProjectRow run.spec (record.take run.spec.types.length)
    match output with
    | .error cause => scanFail (scanFailure run.position cause) run
    | .ok output => (.ok (some output), { run with
      sorted := some records, limitLeft := run.limitLeft - 1, state := .row })

def scanStream (run : ScanRun) : List Row → Nat → Nat → Except Failure (Option Row) × ScanRun
  | [], position, offsetLeft => scanDone { run with source := [], position, offsetLeft }
  | row :: source, position, offsetLeft =>
    match scanMatches run.spec row with
    | .error cause => scanFail (scanFailure position cause) run
    | .ok isMatch =>
      if isMatch = false ∨ offsetLeft ≠ 0 then
        scanStream run source (position + 1) (if isMatch then offsetLeft - 1 else offsetLeft)
      else
        match scanProjectRow run.spec row with
        | .error cause => scanFail (scanFailure position cause) run
        | .ok output => (.ok (some output), { run with
          source, position := position + 1, offsetLeft, limitLeft := run.limitLeft - 1
          state := .row })

def scanAdvance (run : ScanRun) : Except Failure (Option Row) × ScanRun :=
  if run.limitLeft = 0 then scanDone run
  else if run.spec.orders ≠ [] ∨ run.spec.distinct then
    match run.sorted with
    | some records => scanSorted run records
    | none =>
      match scanPrepareSort run with
      | .error failure => scanFail failure run
      | .ok records => scanSorted { run with
        source := [], position := run.position + run.source.length, offsetLeft := 0
        sorted := some records } records
  else scanStream run run.source run.position run.offsetLeft

def scanNext (run : ScanRun) : Except Failure (Option Row) × ScanRun :=
  match run.state with
  | .error failure => (.error failure, run)
  | .done | .cancelled => (.ok none, run)
  | .opened | .row => scanAdvance run

def scanCancel (run : ScanRun) : ScanRun :=
  match run.state with
  | .opened | .row => { run with state := .cancelled }
  | _ => run

end TurboDb.Query
