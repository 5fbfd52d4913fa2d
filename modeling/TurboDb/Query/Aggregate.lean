import TurboDb.Query.Window

/-!
Grouping.

The operator sorts its input by the group keys and reads it with one row ahead:
while that has the keys of the group, it is folded into the reductions. Items that
count every tuple once keep their arguments for every row of the group; when it is
complete, these are sorted, and a tuple that equals the one before is passed over.

Charges to the budget and the limit on plan nodes are left out.
-/

namespace TurboDb.Query

open Effect Words

structure AggregateItem where
  kind : AggregateKind
  slot : Nat
  argumentCount : Nat
  distinct : Bool
  deriving DecidableEq

def AggregateItem.arguments (item : AggregateItem) : Nat :=
  if item.argumentCount = 0 then 1 else item.argumentCount

/-- The items that drop duplicates; the extremes are the same with and without. -/
def AggregateItem.dedups (item : AggregateItem) : Bool :=
  item.distinct && item.kind ≠ .min && item.kind ≠ .max

structure AggregateSpec where
  keys : List Nat
  items : List AggregateItem
  deriving DecidableEq

section Validate

variable (types : List SqlType)

def aggregateValidateKey (slot : Nat) : Except Failure Unit := do
  let type ← given types[slot]? ⟨.invalidArgument, "SQL group key outside input"⟩
  reject (keyType type = false) ⟨.unsupported, "SQL grouping requires numeric, BOOL or NULL keys"⟩

def aggregateValidateArgument (slot : Nat) : Except Failure Unit := do
  let type := types.getD slot ⟨.null, true⟩
  reject (keyType type = false)
    ⟨.unsupported, "aggregate DISTINCT requires numeric, BOOL or NULL arguments"⟩
  let _ ← aggregateType .countValue (some type)
  pure ()

def AggregateKind.mayDedup (kind : AggregateKind) : Bool :=
  kind = .countValue || kind = .min || kind = .max || kind = .sum || kind = .avg

def AggregateItem.slots (item : AggregateItem) : List Nat := List.range' item.slot item.arguments

def aggregateValidateItem (item : AggregateItem) : Except Failure Unit := do
  reject (item.arguments > 1 ∧ (item.kind ≠ .countValue ∨ item.distinct = false))
    ⟨.unsupported, "multiple aggregate arguments require DISTINCT COUNT"⟩
  reject (item.distinct = true ∧ item.kind.mayDedup = false)
    ⟨.unsupported, "aggregate DISTINCT is not supported for this function"⟩
  reject (item.kind ≠ .countAll ∧
      (item.slot ≥ types.length ∨ item.arguments > types.length - item.slot))
    ⟨.invalidArgument, "SQL aggregate argument outside input"⟩
  (if item.distinct then item.slots else []).forM (aggregateValidateArgument types)
  let _ ← aggregateType item.kind types[item.slot]?
  pure ()

def aggregateValidate (spec : AggregateSpec) : Except Failure Unit := do
  reject (types = [] ∨ (spec.keys = [] ∧ spec.items = []))
    ⟨.invalidArgument, "invalid SQL aggregate specification"⟩
  spec.keys.forM (aggregateValidateKey types)
  spec.items.forM (aggregateValidateItem types)

end Validate

/-- The columns that are packed for items that drop duplicates. -/
def distinctSlots (items : List AggregateItem) : List Nat :=
  items.flatMap fun item => if item.dedups then item.slots else []

def groupOrders (spec : AggregateSpec) : List ScanOrder := spec.keys.map (⟨·, false⟩)

/-- The group at hand: its keys, one reduction for each item, and the packed arguments. -/
structure Group where
  keys : List Value
  states : List Reduction
  distinctRows : List Row
  deriving DecidableEq

/-- An operator at work; `scan` are the sorted rows that were not read yet. -/
structure AggregateRun where
  spec : AggregateSpec
  scan : List Row
  pending : Option Row
  eof : Bool
  groups : Nat
  state : ScanState
  deriving DecidableEq

def aggregateOpen (types : List SqlType) (spec : AggregateSpec) (input : List Row) :
    Except Failure AggregateRun := do
  aggregateValidate types spec
  pure
    { spec
      scan := scanRows (groupOrders spec) input
      pending := none
      eof := false
      groups := 0
      state := .opened }

section Run

variable (real : RealArithmetic)

def aggregateRead (run : AggregateRun) : AggregateRun :=
  if run.pending.isSome ∨ run.eof then run
  else
    match run.scan with
    | [] => { run with eof := true }
    | row :: scan => { run with pending := some row, scan }

def aggregateBegin (spec : AggregateSpec) (pending : Option Row) : Group :=
  { keys := spec.keys.map ((pending.getD []).at ·)
    states := spec.items.map fun item => reductionBegin item.kind
    distinctRows := [] }

/-- The reduction of an item after one more row; items that drop duplicates wait. -/
def foldItem (row : Row) (item : AggregateItem) (state : Reduction) : Except Failure Reduction :=
  if item.dedups then pure state
  else reductionAdd real item.kind state (reductionInput item.kind (row.at item.slot))

def foldItems (row : Row) : List AggregateItem → List Reduction → Except Failure (List Reduction)
  | item :: items, state :: states => do
    let state ← foldItem real row item state
    let states ← foldItems row items states
    pure (state :: states)
  | _, _ => pure []

def aggregateFold (spec : AggregateSpec) (group : Group) (row : Row) : Except Failure Group := do
  let states ← foldItems real row spec.items group.states
  let slots := distinctSlots spec.items
  pure { group with
    states
    distinctRows := if slots.isEmpty then group.distinctRows
      else group.distinctRows ++ [slots.map (row.at ·)] }

def aggregateSameGroup (spec : AggregateSpec) (group : Group) (row : Row) : Bool :=
  (group.keys.zip spec.keys).all fun (value, slot) => valueOrder value (row.at slot) = .eq

/-- Fold the row ahead and those behind it, as long as they have the keys of the group. -/
def aggregateGroup : Nat → AggregateRun → Group → Except Failure (Group × AggregateRun)
  | 0, run, group => pure (group, run)
  | fuel + 1, run, group =>
    match run.pending with
    | none => pure (group, run)
    | some row => do
      let group ← aggregateFold real run.spec group row
      let run := aggregateRead { run with pending := none }
      match run.pending with
      | none => pure (group, run)
      | some next =>
        if aggregateSameGroup run.spec group next then aggregateGroup fuel run group
        else pure (group, run)

def aggregateDistinctCompare (a b : Row) : Nat → Nat → Ordering
  | _, 0 => .eq
  | slot, count + 1 =>
    match valueOrder (a.at slot) (b.at slot) with
    | .eq => aggregateDistinctCompare a b (slot + 1) count
    | compared => compared

/-- Add every tuple without NULL that is not that of the row added last. -/
def distinctWalk (kind : AggregateKind) (first count : Nat) :
    List Row → Option Row → Reduction → Except Failure Reduction
  | [], _, state => pure state
  | candidate :: rows, previous, state =>
    if (List.range' first count).any (candidate.at · = .null) ∨
        previous.any fun row => aggregateDistinctCompare row candidate first count = .eq then
      distinctWalk kind first count rows previous state
    else do
      let state ← reductionAdd real kind state (some (candidate.at first))
      distinctWalk kind first count rows (some candidate) state

def distinctItem (kind : AggregateKind) (first count : Nat) (rows : List Row) (state : Reduction) :
    Except Failure Reduction := do
  reject (count > (2 ^ 64 - 1 - 1) / 2 ∨ rows.length > (2 ^ 64 - 1) / (2 * count + 1))
    ⟨.limitExceeded, "aggregate DISTINCT comparison steps overflow"⟩
  distinctWalk real kind first count
    (rows.mergeSort fun a b => aggregateDistinctCompare a b first count ≠ .gt) none state

/-- The packed arguments of an item are behind those of the items before it. -/
def distinctItems (rows : List Row) :
    Nat → List AggregateItem → List Reduction → Except Failure (List Reduction)
  | first, item :: items, state :: states =>
    if item.dedups then do
      let state ← distinctItem real item.kind first item.arguments rows state
      let states ← distinctItems rows (first + item.arguments) items states
      pure (state :: states)
    else do
      let states ← distinctItems rows first items states
      pure (state :: states)
  | _, _, _ => pure []

def aggregateDistinctFinish (spec : AggregateSpec) (group : Group) :
    Except Failure (List Reduction) :=
  if (distinctSlots spec.items).isEmpty then pure group.states
  else distinctItems real group.distinctRows 0 spec.items group.states

def aggregateFinish (spec : AggregateSpec) (group : Group) : Except Failure Row := do
  let states ← aggregateDistinctFinish real spec group
  let values ← (spec.items.zip states).mapM fun (item, state) => reductionResult real item.kind state
  pure (group.keys ++ values)

def aggregateNextGroup (run : AggregateRun) : Except Failure (Row × AggregateRun) := do
  let (group, run) ← aggregateGroup real (run.scan.length + 1) run
    (aggregateBegin run.spec run.pending)
  let row ← aggregateFinish real run.spec group
  pure (row, run)

def aggregateNext (run : AggregateRun) : Except Failure (Option Row) × AggregateRun :=
  match run.state with
  | .error failure => (.error failure, run)
  | .done | .cancelled => (.ok none, run)
  | .opened | .row =>
    let run := aggregateRead run
    if run.pending = none ∧ (run.spec.keys ≠ [] ∨ run.groups ≠ 0) then
      (.ok none, { run with state := .done })
    else
      let run := { run with groups := run.groups + 1 }
      match aggregateNextGroup real run with
      | .ok (row, run) => (.ok (some row), { run with state := .row })
      | .error cause =>
        let failure : Failure := ⟨cause.status,
          "TidesDB SQL aggregate at group " ++ toString run.groups ++ ": " ++ cause.message⟩
        (.error failure, { run with state := .error failure, pending := none })

def aggregateDrain : Nat → AggregateRun → Except Failure (List Row)
  | 0, _ => pure []
  | fuel + 1, run =>
    match aggregateNext real run with
    | (.error failure, _) => .error failure
    | (.ok none, _) => pure []
    | (.ok (some row), run) => do
      let rest ← aggregateDrain fuel run
      pure (row :: rest)

end Run

end TurboDb.Query
