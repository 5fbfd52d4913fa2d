import TurboDb.Library.Search
import TurboDb.Query.Reduction

/-!
Window functions.

The operator sorts its input by the partition columns and the window order, cuts
it into partitions and these into groups of peers by comparing rows with the first
of their kind, and computes one more value for every row. The rows of a partition
are the indices from `first` to before `last`, the peers of a row those from
`peer` to before `after`.

Charges to the budget are left out, and so are expressions as keys, which the
operator refuses.
-/

namespace TurboDb.Query

open Effect Words Wire

inductive WindowKind
  | rowNumber | rank | denseRank | percentRank | cumeDist | ntile | lag | lead
  | firstValue | lastValue | nthValue | aggregate (kind : AggregateKind)
  deriving DecidableEq

def WindowKind.offset : WindowKind → Bool
  | .lag | .lead => true
  | _ => false

def WindowKind.framed : WindowKind → Bool
  | .firstValue | .lastValue | .nthValue | .aggregate _ => true
  | _ => false

def WindowKind.valued (kind : WindowKind) : Bool :=
  kind.offset || (kind.framed && kind ≠ .aggregate .countAll)

inductive FrameUnit
  | default | rows | range
  deriving DecidableEq

inductive BoundKind
  | unboundedPreceding | preceding | currentRow | following | unboundedFollowing
  deriving DecidableEq

/-- The place of a boundary in the order that frames are written in. -/
def BoundKind.index : BoundKind → Nat
  | .unboundedPreceding => 0
  | .preceding => 1
  | .currentRow => 2
  | .following => 3
  | .unboundedFollowing => 4

structure FrameBoundary where
  kind : BoundKind
  distance : Value
  deriving DecidableEq

structure WindowFrame where
  unit : FrameUnit
  start : FrameBoundary
  stop : FrameBoundary
  deriving DecidableEq

structure WindowSpec where
  kind : WindowKind
  partitions : List Nat
  orders : List ScanOrder
  buckets : UInt64
  offset : UInt64
  valueSlot : Nat
  defaultSlot : Nat
  hasDefault : Bool
  frame : WindowFrame
  deriving DecidableEq

def windowMaxBuckets : UInt64 := 0x8000000000000000

def windowMaxNth : UInt64 := 0x7FFFFFFFFFFFFFFF

section Validate

variable (types : List SqlType)

def carriedType (type : SqlType) : Bool :=
  keyType type || type.kind = .text || type.kind = .blob

def windowOffsetType (value fallback : SqlType) : Except Failure SqlType := do
  reject (carriedType value = false ∨ carriedType fallback = false)
    ⟨.invalidArgument, "invalid SQL offset window types"⟩
  reject (value.kind ≠ .null ∧ fallback.kind ≠ .null ∧ value.kind ≠ fallback.kind)
    ⟨.unsupported, "LAG/LEAD value and default require the same type or NULL"⟩
  pure ⟨if value.kind = .null then fallback.kind else value.kind,
    value.nullable || fallback.nullable || value.kind = .null || fallback.kind = .null⟩

def frameDistance (unit : FrameUnit) : Value → Bool
  | .int64 value => 0 ≤ value.toInt
  | .uint64 _ => true
  | .double bits => unit = .range && isFinite bits && compareDouble bits 0 ≠ .lt
  | _ => false

def windowValidateBound (spec : WindowSpec) (bound : FrameBoundary) : Except Failure Unit :=
  if bound.kind = .preceding ∨ bound.kind = .following then do
    reject (frameDistance spec.frame.unit bound.distance = false)
      ⟨.invalidArgument, "invalid SQL frame distance"⟩
    reject (spec.frame.unit = .range ∧ (spec.orders.length ≠ 1 ∨ spec.orders.any fun order =>
        (types.getD order.slot ⟨.null, true⟩).kind = .null))
      ⟨.invalidArgument, "RANGE distance requires one numeric order key"⟩
  else pure ()

def windowValidateFrame (spec : WindowSpec) : Except Failure Unit :=
  if spec.frame.unit ≠ .default then do
    let start := spec.frame.start.kind
    let stop := spec.frame.stop.kind
    reject (start = .unboundedFollowing ∨ stop = .unboundedPreceding ∨ start.index > stop.index)
      ⟨.invalidArgument, "invalid SQL frame boundary order"⟩
    windowValidateBound types spec spec.frame.start
    windowValidateBound types spec spec.frame.stop
  else pure ()

def windowValidateKey (slot : Nat) : Except Failure Unit := do
  let type ← given types[slot]? ⟨.invalidArgument, "SQL window key outside input"⟩
  reject (keyType type = false) ⟨.unsupported, "SQL window requires numeric, BOOL or NULL keys"⟩

def windowResultType (spec : WindowSpec) : Except Failure SqlType :=
  match spec.kind with
  | .aggregate kind => aggregateType kind types[spec.valueSlot]?
  | .percentRank | .cumeDist => pure ⟨.double, false⟩
  | .rowNumber | .rank | .denseRank | .ntile => pure ⟨.int64, false⟩
  | _ =>
    windowOffsetType (types.getD spec.valueSlot ⟨.null, true⟩)
      (if spec.hasDefault then types.getD spec.defaultSlot ⟨.null, true⟩ else ⟨.null, true⟩)

def windowValidateSlots (spec : WindowSpec) : Except Failure Unit :=
  if spec.kind.valued then do
    reject ((if spec.kind.offset then spec.offset > windowMaxBuckets
          else if spec.kind = .nthValue then spec.offset = 0 ∨ spec.offset > windowMaxNth
          else spec.offset ≠ 0) ∨
        (spec.kind.framed = true ∧ (spec.hasDefault = true ∨ spec.defaultSlot ≠ 0)) ∨
        spec.valueSlot ≥ types.length ∨ (spec.hasDefault = true ∧ spec.defaultSlot ≥ types.length))
      ⟨.invalidArgument, "invalid SQL window offset or value slot"⟩
    let _ ← windowResultType types spec
    pure ()
  else
    reject (spec.offset ≠ 0 ∨ spec.valueSlot ≠ 0 ∨ spec.defaultSlot ≠ 0 ∨ spec.hasDefault = true)
      ⟨.invalidArgument, "offset slots require LAG or LEAD"⟩

def windowValidate (spec : WindowSpec) : Except Failure Unit := do
  reject (if spec.kind = .ntile then spec.buckets = 0 ∨ spec.buckets > windowMaxBuckets
      else spec.buckets ≠ 0)
    ⟨.invalidArgument, "invalid SQL window bucket count"⟩
  windowValidateSlots types spec
  (spec.partitions ++ spec.orders.map ScanOrder.slot).forM (windowValidateKey types)
  windowValidateFrame types spec

end Validate

/-- An open operator: partition columns and window order are one list of keys, and the frame has a
unit. -/
structure Window where
  kind : WindowKind
  buckets : UInt64
  offset : UInt64
  valueSlot : Nat
  defaultSlot : Nat
  hasDefault : Bool
  frame : WindowFrame
  orders : List ScanOrder
  partitionCount : Nat
  deriving DecidableEq

/-- The frame of a specification; without one it ends with the peers of the current row. -/
def WindowSpec.resolved (spec : WindowSpec) : WindowFrame :=
  if spec.frame.unit = .default then
    ⟨.range, ⟨.unboundedPreceding, spec.frame.start.distance⟩,
      ⟨if spec.orders.isEmpty then .unboundedFollowing else .currentRow, spec.frame.stop.distance⟩⟩
  else spec.frame

def windowOpen (types : List SqlType) (spec : WindowSpec) : Except Failure Window := do
  windowValidate types spec
  pure
    { kind := spec.kind
      buckets := spec.buckets
      offset := spec.offset
      valueSlot := spec.valueSlot
      defaultSlot := spec.defaultSlot
      hasDefault := spec.hasDefault
      frame := spec.resolved
      orders := spec.partitions.map (⟨·, false⟩) ++ spec.orders
      partitionCount := spec.partitions.length }

def Window.partitionKeys (w : Window) : List ScanOrder := w.orders.take w.partitionCount

def Window.orderKeys (w : Window) : List ScanOrder := w.orders.drop w.partitionCount

def rowsAt (rows : List Row) (i : Nat) : Row := rows.getD i []

/-- The bucket of a row, of those that a partition of `count` rows is spread over. -/
def windowBucket (ordinal count buckets : UInt64) : Int64 :=
  if buckets ≥ count then ordinal.toInt64 + 1
  else
    let base := count / buckets
    let remainder := count % buckets
    let cutoff := if remainder ≠ 0 then (base + 1) * remainder else 0
    (if ordinal < cutoff then ordinal / (base + 1) + 1
      else remainder + (ordinal - cutoff) / base + 1).toInt64

section Frame

def windowInteger : Value → UInt64
  | .int64 value => value.toUInt64
  | .uint64 value => value
  | .boolean value => value.toUInt64
  | _ => 0

def windowReal : Value → UInt64
  | .double bits => bits
  | .int64 value => doubleOfInt64 value
  | value => doubleOfUInt64 (windowInteger value)

variable (real : RealArithmetic)

def negateReal (bits : UInt64) : UInt64 := bits ^^^ sign

/-- Where a candidate is, in whole numbers, seen from the reference moved up or down. -/
def rangeInteger (candidate reference distance : Value) (plus : Bool) : Ordering :=
  let comparison := valueOrder candidate reference
  if (plus ∧ comparison ≠ .lt) ∨ (¬plus ∧ comparison ≠ .gt) then
    -- The difference is taken modulo the word, across zero too.
    let apart := if plus then windowInteger candidate - windowInteger reference
      else windowInteger reference - windowInteger candidate
    let order := compareU64 apart (windowInteger distance)
    if plus then order else order.swap
  else comparison

def rangeReal (candidate reference distance : Value) (plus : Bool) : Ordering :=
  let distance := windowReal distance
  compareDouble (windowReal candidate)
    (real.add (windowReal reference) (if plus then distance else negateReal distance))

/-- Where a candidate is seen from the boundary at a distance of the reference. -/
def windowRangeCompare (candidate reference : Value) (bound : FrameBoundary) (descending : Bool) :
    Ordering :=
  if candidate = .null then if descending then .gt else .lt
  else
    let plus : Bool := (bound.kind = .following) != descending
    let comparison :=
      if reference.kind = .double ∨ bound.distance.kind = .double then
        rangeReal real candidate reference bound.distance plus
      else rangeInteger candidate reference bound.distance plus
    if descending then comparison.swap else comparison

def windowRowsBound (bound : FrameBoundary) (first last position : UInt64) (upper : Bool) : UInt64 :=
  let behind : UInt64 := if upper then 1 else 0
  match bound.kind with
  | .unboundedPreceding => first
  | .unboundedFollowing => last
  | .currentRow => position + behind
  | .preceding =>
    let distance := windowInteger bound.distance
    if distance > position - first then first else position - distance + behind
  | .following =>
    let distance := windowInteger bound.distance
    let available := last - position - behind
    if distance ≥ available then last else position + distance + behind

variable (w : Window) (rows : List Row)

def windowRangeBound (bound : FrameBoundary) (first last position peer after : Nat) (upper : Bool) :
    Nat :=
  let edge := if upper then after else peer
  match bound.kind with
  | .unboundedPreceding => first
  | .unboundedFollowing => last
  | .currentRow => edge
  | _ =>
    let order := w.orderKeys.headD ⟨0, false⟩
    let reference := (rowsAt rows position).at order.slot
    if reference = .null then edge
    else
      let compareAt (i : Nat) :=
        windowRangeCompare real ((rowsAt rows i).at order.slot) reference bound order.descending
      Search.halve (fun i => compareAt i = .lt || (upper && compareAt i = .eq)) (last - first)
        first last

def windowBound (bound : FrameBoundary) (first last position peer after : Nat) (upper : Bool) : Nat :=
  if w.frame.unit = .rows then
    (windowRowsBound bound (.ofNat first) (.ofNat last) (.ofNat position) upper).toNat
  else windowRangeBound real w rows bound first last position peer after upper

def windowFrameExtent (first last position peer after : Nat) : Nat × Nat :=
  (windowBound real w rows w.frame.start first last position peer after false,
    windowBound real w rows w.frame.stop first last position peer after true)

def windowFrameValue (first last position peer after : Nat) : Value :=
  let (start, stop) := windowFrameExtent real w rows first last position peer after
  let nth := if w.kind = .nthValue then w.offset.toNat else 1
  if start ≥ stop ∨ nth > stop - start then .null
  else
    let target := if w.kind = .lastValue then stop - 1 else start + (nth - 1)
    (rowsAt rows target).at w.valueSlot

structure ReductionCache where
  state : Reduction
  first : Nat
  last : Nat
  valid : Bool
  deriving DecidableEq

def ReductionCache.empty : ReductionCache := ⟨⟨.null, 0, 0, 0⟩, 0, 0, false⟩

def reduceRows (kind : AggregateKind) (state : Reduction) (start count : Nat) :
    Except Failure Reduction :=
  (List.range' start count).foldlM
    (fun state i => reductionAdd real kind state (some ((rowsAt rows i).at w.valueSlot))) state

/-- The reduction of a frame; the state is reused while its frame grows at the end. -/
def windowFrameReduce (kind : AggregateKind) (bounds : Nat × Nat) (cache : ReductionCache) :
    Except Failure (Value × ReductionCache) :=
  if kind = .countAll then
    pure (.int64 (if bounds.1 < bounds.2 then .ofNat (bounds.2 - bounds.1) else 0), cache)
  else if bounds.1 ≥ bounds.2 then pure ((reductionBegin kind).value, cache)
  else do
    let cache :=
      if cache.valid = false ∨ cache.first ≠ bounds.1 ∨ cache.last > bounds.2 then
        ⟨reductionBegin kind, bounds.1, bounds.1, true⟩
      else cache
    let state ← reduceRows real w rows kind cache.state cache.last (bounds.2 - cache.last)
    let value ← reductionResult real kind state
    pure (value, { cache with state, last := bounds.2 })

end Frame

section Partition

variable (real : RealArithmetic) (w : Window) (rows : List Row)

def windowOffset (first last i : Nat) : Value :=
  let distance := if w.kind = .lag then i - first else last - i - 1
  let offset := w.offset.toNat
  if offset ≤ distance then
    (rowsAt rows (if w.kind = .lag then i - offset else i + offset)).at w.valueSlot
  else if w.hasDefault then (rowsAt rows i).at w.defaultSlot
  else .null

/-- The value of every other function, for a row among its peers. -/
def windowValue (first last peer after dense i : Nat) (cache : ReductionCache) :
    Except Failure (Value × ReductionCache) :=
  match w.kind with
  | .rowNumber => pure (.int64 (.ofNat (i - first + 1)), cache)
  | .rank => pure (.int64 (.ofNat (peer - first + 1)), cache)
  | .denseRank => pure (.int64 (.ofNat dense), cache)
  | .percentRank =>
    pure (.double (if last - first = 1 then 0
      else real.div (doubleOfMagnitude (peer - first)) (doubleOfMagnitude (last - first - 1))),
      cache)
  | .cumeDist =>
    pure (.double (real.div (doubleOfMagnitude (after - first)) (doubleOfMagnitude (last - first))),
      cache)
  | .ntile =>
    pure (.int64 (windowBucket (.ofNat (i - first)) (.ofNat (last - first)) w.buckets), cache)
  | .firstValue | .lastValue | .nthValue =>
    pure (windowFrameValue real w rows first last i peer after, cache)
  | .aggregate kind =>
    windowFrameReduce real w rows kind (windowFrameExtent real w rows first last i peer after) cache
  | .lag | .lead =>
    throw ⟨.invalidState, "offset window reached the rank calculation path"⟩

def windowGroup (first last peer after dense : Nat) :
    List Nat → ReductionCache → Except Failure (List Value × ReductionCache)
  | [], cache => pure ([], cache)
  | i :: indices, cache => do
    let (value, cache) ← windowValue real w rows first last peer after dense i cache
    let (values, cache) ← windowGroup first last peer after dense indices cache
    pure (value :: values, cache)

/-- Where the rows that agree with the row `i` on `keys` end. -/
def runEnd (keys : List ScanOrder) (i last : Nat) : Nat :=
  Search.advance (fun j => sameKeys keys (rowsAt rows i) (rowsAt rows j)) last (last - (i + 1)) (i + 1)

def windowPeers (first last : Nat) : Nat → Nat → Nat → ReductionCache → Except Failure (List Value)
  | 0, _, _, _ => pure []
  | fuel + 1, peer, dense, cache =>
    if peer < last then do
      let after := runEnd rows w.orderKeys peer last
      let (values, cache) ← windowGroup real w rows first last peer after (dense + 1)
        (List.range' peer (after - peer)) cache
      let rest ← windowPeers first last fuel after (dense + 1) cache
      pure (values ++ rest)
    else pure []

def windowPartition (first last : Nat) : Except Failure (List Value) :=
  if w.kind.offset then
    pure ((List.range' first (last - first)).map (windowOffset w rows first last))
  else windowPeers real w rows first last (last - first) first 0 .empty

def windowPartitions (count : Nat) : Nat → Nat → Except Failure (List Value)
  | 0, _ => pure []
  | fuel + 1, first =>
    if first < count then do
      let last := runEnd rows w.partitionKeys first count
      let values ← windowPartition real w rows first last
      let rest ← windowPartitions count fuel last
      pure (values ++ rest)
    else pure []

/-- The rows of the operator, each with its value behind it. -/
def windowPrepare (input : List Row) : Except Failure (List Row) := do
  let rows := scanRows w.orders input
  reject (rows.length > 0x7FFFFFFFFFFFFFFF)
    ⟨.limitExceeded, "SQL window row count exceeds INT64"⟩
  let values ← windowPartitions real w rows rows.length rows.length 0
  pure (List.zipWith (fun row value => row ++ [value]) rows values)

end Partition

inductive ScanState
  | opened | row | done | error (failure : Failure) | cancelled
  deriving DecidableEq

/-- An operator at work; `rows` are its rows once they are computed. -/
structure WindowRun where
  window : Window
  input : List Row
  rows : Option (List Row)
  position : Nat
  state : ScanState
  deriving DecidableEq

def windowStart (w : Window) (input : List Row) : WindowRun := ⟨w, input, none, 0, .opened⟩

def windowDeliver (rows : List Row) (run : WindowRun) :
    Except Failure (Option Row) × WindowRun :=
  let run := { run with rows := some rows }
  if run.position = rows.length then (.ok none, { run with state := .done })
  else
    (.ok (some (rowsAt rows run.position)),
      { run with position := run.position + 1, state := .row })

def windowNext (real : RealArithmetic) (run : WindowRun) :
    Except Failure (Option Row) × WindowRun :=
  match run.state with
  | .error failure => (.error failure, run)
  | .done | .cancelled => (.ok none, run)
  | .opened | .row =>
    match run.rows with
    | some rows => windowDeliver rows run
    | none =>
      match windowPrepare real run.window run.input with
      | .ok rows => windowDeliver rows run
      | .error cause =>
        let failure : Failure := ⟨cause.status,
          "TidesDB SQL window at row " ++ toString run.position ++ ": " ++ cause.message⟩
        (.error failure, { run with state := .error failure })

def windowDrain (real : RealArithmetic) : Nat → WindowRun → Except Failure (List Row)
  | 0, _ => pure []
  | fuel + 1, run =>
    match windowNext real run with
    | (.error failure, _) => .error failure
    | (.ok none, _) => pure []
    | (.ok (some row), run) => do
      let rest ← windowDrain real fuel run
      pure (row :: rest)

end TurboDb.Query
