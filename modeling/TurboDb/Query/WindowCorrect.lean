import TurboDb.Library.Runs
import TurboDb.Query.Frame
import TurboDb.Query.Tile

/-!
What a window function says of a row.

The partition of a row are the rows that agree with it on the partition columns,
its frame those of them in its declared frame, and the value of a function is
defined from these positions alone.
-/

namespace TurboDb.Query

open Effect AggregateKind List

section Declared

variable (w : Window) (rows : List Row)

def Window.partitionKey (i : Nat) : List Line := key w.partitionKeys (rowsAt rows i)

def Window.orderKey (i : Nat) : List Line := key w.orderKeys (rowsAt rows i)

def Window.partitionRows (i : Nat) : List Nat :=
  (range rows.length).filter fun j => w.partitionKey rows j = w.partitionKey rows i

def Window.ordinal (i : Nat) : Nat := (w.partitionRows rows i).countP (· < i)

open Classical in
noncomputable def Window.frameRows (i : Nat) : List Nat :=
  (w.partitionRows rows i).filter (InFrame w rows i ·)

noncomputable def Window.frameValues (i : Nat) : List Value :=
  (w.frameRows rows i).map fun j => (rowsAt rows j).at w.valueSlot

def IsNumber (value : Value) (n : Nat) : Prop := ∃ word, value = .int64 word ∧ word.toInt = n

def Window.valueAt (fallback : Value) (position : Option Nat) : Value :=
  (position.map fun j => (rowsAt rows j).at w.valueSlot).getD fallback

def Window.fallback (i : Nat) : Value :=
  if w.hasDefault then (rowsAt rows i).at w.defaultSlot else .null

open Classical in
def Declared (i : Nat) (value : Value) : Prop :=
  match w.kind with
  | .rowNumber => IsNumber value (w.ordinal rows i + 1)
  | .rank =>
    IsNumber value
      ((w.partitionRows rows i).countP (fun j => w.orderKey rows j < w.orderKey rows i) + 1)
  | .denseRank =>
    IsNumber value ((((w.partitionRows rows i).filter fun j =>
      w.orderKey rows j < w.orderKey rows i).map (w.orderKey rows)).toFinset.card + 1)
  | .ntile =>
    let count := (w.partitionRows rows i).length
    let used := min w.buckets.toNat count
    ∃ bucket, IsNumber value (bucket + 1) ∧ Spread.start count used bucket ≤ w.ordinal rows i ∧
      w.ordinal rows i < Spread.start count used (bucket + 1)
  | .lag =>
    value = w.valueAt rows (w.fallback rows i)
      (if w.offset.toNat ≤ w.ordinal rows i then
        (w.partitionRows rows i)[w.ordinal rows i - w.offset.toNat]? else none)
  | .lead =>
    value = w.valueAt rows (w.fallback rows i)
      (w.partitionRows rows i)[w.ordinal rows i + w.offset.toNat]?
  | .firstValue => value = w.valueAt rows .null (w.frameRows rows i).head?
  | .lastValue => value = w.valueAt rows .null (w.frameRows rows i).getLast?
  | .nthValue => value = w.valueAt rows .null (w.frameRows rows i)[w.offset.toNat - 1]?
  | .aggregate kind => IsAggregate kind (w.frameValues rows i) value
  | .percentRank | .cumeDist => False

def WindowKind.exact : WindowKind → Bool
  | .percentRank | .cumeDist => false
  | .aggregate kind => kind.exact
  | _ => true

structure ExactWindow (types : List SqlType) (w : Window) : Prop where
  kind : w.kind.exact = true
  frame : w.kind.framed = true → WholeFrame types w
  bits : ∀ kind, w.kind = .aggregate kind → kind.bit = true → ∀ type,
    types[w.valueSlot]? = some type → type.kind ≠ .double

end Declared

variable {types : List SqlType} {spec : WindowSpec} {w : Window} {rows : List Row}
  {first last peer after i : Nat} {real : RealArithmetic} {kind : AggregateKind}
  {cache : ReductionCache}

variable {start : Nat} {bounds : Nat × Nat} {state : Reduction} {dense : Nat} {out : List Row}

section Runs

variable {keys : List ScanOrder}

abbrev Window.PartitionRun (w : Window) (rows : List Row) : Nat → Nat → Prop :=
  Runs.Run (w.partitionKey rows) 0 rows.length

abbrev Window.PeerRun (w : Window) (rows : List Row) : Nat → Nat → Nat → Nat → Prop :=
  Runs.Run (w.orderKey rows)

structure Prepared (types : List SqlType) (w : Window) (rows : List Row) : Prop where
  opened : Opened types w
  typed : ∀ row ∈ rows, row.WellTyped types
  small : rows.length < 2 ^ 63
  sorted : ∀ i j, i ≤ j → j < rows.length →
    key w.orders (rowsAt rows i) ≤ key w.orders (rowsAt rows j)

section Prepared

variable (prepared : Prepared types w rows)
include prepared

theorem Prepared.row (inside : i < rows.length) : (rowsAt rows i).WellTyped types := by
  rw [rowsAt, getD_eq_getElem _ _ inside]
  exact prepared.typed _ (getElem_mem inside)

theorem Prepared.key_le {i j : Nat} (le : i ≤ j) (inside : j < rows.length) :
    w.partitionKey rows i < w.partitionKey rows j ∨
      w.partitionKey rows i = w.partitionKey rows j ∧ w.orderKey rows i ≤ w.orderKey rows j := by
  have sorted := prepared.sorted i j le inside
  rw [← take_append_drop w.partitionCount w.orders] at sorted
  exact key_append_le sorted

theorem Prepared.partitions : Runs.Ascends (w.partitionKey rows) 0 rows.length := by
  intro i j _ le inside
  obtain less | ⟨same, -⟩ := prepared.key_le le inside
  · exact less.le
  · exact same.le

theorem Prepared.orders (run : w.PartitionRun rows first last) :
    Runs.Ascends (w.orderKey rows) first last := by
  intro i j low le high
  have inside := lt_of_lt_of_le high run.high
  obtain less | ⟨-, ordered⟩ := prepared.key_le le inside
  · have sameI := run.same i low (lt_of_le_of_lt le high)
    have sameJ := run.same j (low.trans le) high
    exact absurd (sameI.trans sameJ.symm) less.ne
  · exact ordered

theorem Prepared.partition (run : w.PartitionRun rows first last) :
    Partition types w rows first last :=
  ⟨prepared.typed, run.high, prepared.small, prepared.orders run⟩

end Prepared

theorem peers_of_run (run : w.PeerRun rows first last peer after) (low : peer ≤ i)
    (high : i < after) : Peers w rows first last i peer after :=
  ⟨run.low, low, high, run.high, fun _ lowJ highJ => run.mem_iff low high lowJ highJ⟩

section Prepared

variable (prepared : Prepared types w rows)
include prepared

theorem Prepared.runEnd (keyed : Keyed types keys)
    (ascends : Runs.Ascends (fun j => key keys (rowsAt rows j)) first last)
    (within : last ≤ rows.length) (low : first ≤ start) (less : start < last)
    (starts : Runs.Starts (fun j => key keys (rowsAt rows j)) first last start) :
    Runs.Run (fun j => key keys (rowsAt rows j)) first last start
      (runEnd rows keys start last) := by
  refine Runs.run_advance ascends low less starts fun j _ high => ?_
  rw [sameKeys_iff keyed (prepared.row (lt_of_lt_of_le less within))
    (prepared.row (lt_of_lt_of_le high within)), eq_comm]

theorem Prepared.partition_runEnd (less : first < rows.length)
    (starts : Runs.Starts (w.partitionKey rows) 0 rows.length first) :
    w.PartitionRun rows first (Query.runEnd rows w.partitionKeys first rows.length) :=
  prepared.runEnd (fun order isKey => prepared.opened.keyed order (mem_of_mem_take isKey))
    prepared.partitions le_rfl (Nat.zero_le _) less starts

theorem Prepared.peers_runEnd (run : w.PartitionRun rows first last)
    (low : first ≤ peer) (less : peer < last)
    (starts : Runs.Starts (w.orderKey rows) first last peer) :
    w.PeerRun rows first last peer (Query.runEnd rows w.orderKeys peer last) :=
  prepared.runEnd (fun order isKey => prepared.opened.keyed order (mem_of_mem_drop isKey))
    (prepared.orders run) run.high low less starts

end Prepared

theorem partitionRows_eq (run : w.PartitionRun rows first last)
    (low : first ≤ i) (high : i < last) :
    w.partitionRows rows i = range' first (last - first) := by
  rw [Window.partitionRows, range_eq_range']
  refine Runs.filter_range (Nat.zero_le first) run.high fun j lowJ highJ => ?_
  rw [decide_eq_true_eq]
  exact (run.mem_iff low high lowJ highJ).symm

theorem countP_range {p : Nat → Bool} {stop : Nat} (low : first ≤ start) (high : stop ≤ last)
    (is : ∀ j, first ≤ j → j < last → (p j ↔ start ≤ j ∧ j < stop)) :
    (range' first (last - first)).countP p = stop - start := by
  rw [countP_eq_length_filter, Runs.filter_range low high is, length_range']

theorem ordinal_eq (run : w.PartitionRun rows first last)
    (low : first ≤ i) (high : i < last) : w.ordinal rows i = i - first := by
  rw [Window.ordinal, partitionRows_eq run low high]
  refine countP_range le_rfl high.le fun j lowJ _ => ?_
  rw [decide_eq_true_eq]
  exact ⟨fun less => ⟨lowJ, less⟩, fun both => both.2⟩

theorem frameRows_eq (real : RealArithmetic) (prepared : Prepared types w rows)
    (whole : WholeFrame types w) (run : w.PartitionRun rows first last)
    (peers : w.PeerRun rows first last peer after) (low : peer ≤ i) (high : i < after) :
    w.frameRows rows i =
      range' (windowFrameExtent real w rows first last i peer after).1
        ((windowFrameExtent real w rows first last i peer after).2 -
          (windowFrameExtent real w rows first last i peer after).1) := by
  have part := prepared.partition run
  have near := peers_of_run peers low high
  obtain ⟨isFrom, isTo, start, stop, -⟩ :=
    windowFrameExtent_cuts real prepared.opened whole part near
  have inFrame := windowFrameExtent_inFrame real prepared.opened whole part near
  rw [Window.frameRows, partitionRows_eq run (peers.low.trans low) (lt_of_lt_of_le high peers.high)]
  refine Runs.filter_range start.low stop.high fun j lowJ highJ => ?_
  simp only [decide_eq_true_eq, inFrame j]
  exact ⟨fun isIn => ⟨lowJ, highJ, isIn⟩, fun all => all.2.2⟩

end Runs

section Reduce

variable {type : SqlType} {values : List Value}

theorem AggregateKind.counted_le (kind : AggregateKind) (values : List Value) :
    kind.counted values ≤ values.length := by
  rw [counted]
  split_ifs
  · exact le_rfl
  · exact length_filter_le _ _

def reduceValues (real : RealArithmetic) (kind : AggregateKind) (values : List Value) :
    Except Failure Reduction :=
  values.foldlM (fun state value => reductionAdd real kind state (reductionInput kind value))
    (reductionBegin kind)

theorem reduceValues_append (first second : List Value) :
    reduceValues real kind (first ++ second) = reduceValues real kind first >>= fun state =>
      second.foldlM (fun state value => reductionAdd real kind state (reductionInput kind value))
        state :=
  foldlM_append

/-- A reduction of less values than a count can hold succeeds, with what the values say. -/
theorem reduceValues_reduces (real : RealArithmetic) (reducible : Reducible kind type values)
    (few : values.length < 2 ^ 63) :
    ∃ state, reduceValues real kind values = .ok state ∧ Reduces kind values state := by
  induction values using reverseRecOn with
  | nil => exact ⟨_, rfl, reductionBegin_reduces reducible.exact'⟩
  | append_singleton values value ih =>
    rw [length_append, length_singleton] at few
    obtain ⟨state, folded, reduces⟩ := ih reducible.init (by omega)
    have taken : Takes real kind values state value := takes reducible reduces
    obtain ⟨state', added, reduces'⟩ | ⟨-, full, -⟩ := taken
    · refine ⟨state', ?_, reduces'⟩
      rw [reduceValues_append, bind_eq_ok]
      refine ⟨state, folded, ?_⟩
      rw [foldlM_cons, added]
      rfl
    · have bound := kind.counted_le (values ++ [value])
      rw [length_append, length_singleton] at bound
      omega

def Window.valuesFrom (w : Window) (rows : List Row) (start count : Nat) : List Value :=
  (range' start count).map fun j => (rowsAt rows j).at w.valueSlot

theorem valuesFrom_append (w : Window) (rows : List Row) (start first second : Nat) :
    w.valuesFrom rows start (first + second) =
      w.valuesFrom rows start first ++ w.valuesFrom rows (start + first) second := by
  rw [Window.valuesFrom, ← range'_append_1, map_append]
  rfl

theorem reduceRows_eq (other : kind ≠ .countAll) (state : Reduction) (start count : Nat) :
    reduceRows real w rows kind state start count = (w.valuesFrom rows start count).foldlM
      (fun state value => reductionAdd real kind state (reductionInput kind value)) state := by
  simp only [reduceRows, Window.valuesFrom, foldlM_map, reductionInput, if_neg other]

/-- A cached state is that of a fresh reduction of the frame it was last at. -/
structure CacheFresh (real : RealArithmetic) (w : Window) (rows : List Row) (kind : AggregateKind)
    (cache : ReductionCache) : Prop where
  le : cache.valid = true → cache.first ≤ cache.last
  fresh : cache.valid = true →
    reduceValues real kind (w.valuesFrom rows cache.first (cache.last - cache.first)) =
      .ok cache.state

theorem cacheFresh_empty : CacheFresh real w rows kind .empty := ⟨nofun, nofun⟩

/-- Going on from the cached state reduces the frame afresh. -/
theorem CacheFresh.goesOn (cached : CacheFresh real w rows kind cache)
    (other : kind ≠ .countAll) (valid : cache.valid) {stop : Nat} (le : cache.last ≤ stop) :
    reduceRows real w rows kind cache.state cache.last (stop - cache.last) =
      reduceValues real kind (w.valuesFrom rows cache.first (stop - cache.first)) := by
  have behind := cached.le valid
  have whole : stop - cache.first = cache.last - cache.first + (stop - cache.last) := by omega
  rw [reduceRows_eq other, whole, valuesFrom_append, reduceValues_append, cached.fresh valid,
    show cache.first + (cache.last - cache.first) = cache.last by omega]
  rfl

/-- The cache that a frame is reduced with: the one at hand, or a new one. -/
structure CacheAt (real : RealArithmetic) (w : Window) (rows : List Row) (kind : AggregateKind)
    (bounds : Nat × Nat) (cache : ReductionCache) : Prop where
  fresh : CacheFresh real w rows kind cache
  valid : cache.valid = true
  first : cache.first = bounds.1
  last : cache.last ≤ bounds.2

theorem CacheFresh.restarted (cached : CacheFresh real w rows kind cache)
    (some : bounds.1 < bounds.2) :
    CacheAt real w rows kind bounds
      (if cache.valid = false ∨ cache.first ≠ bounds.1 ∨ cache.last > bounds.2 then
        ⟨reductionBegin kind, bounds.1, bounds.1, true⟩ else cache) := by
  split_ifs with stale
  · refine ⟨⟨fun _ => le_rfl, fun _ => ?_⟩, rfl, rfl, some.le⟩
    rw [Nat.sub_self]
    rfl
  · simp only [not_or, not_not, Bool.not_eq_false, not_lt] at stale
    exact ⟨cached, stale.1, stale.2.1, stale.2.2⟩

/-- With the cache, a frame is reduced as it would be without. -/
theorem windowFrameReduce_fresh (cached : CacheFresh real w rows kind cache) (exact' : kind.exact)
    (other : kind ≠ .countAll) (some : bounds.1 < bounds.2)
    (folded : reduceValues real kind (w.valuesFrom rows bounds.1 (bounds.2 - bounds.1)) = .ok state) :
    windowFrameReduce real w rows kind bounds cache =
      .ok (state.value, ⟨state, bounds.1, bounds.2, true⟩) := by
  have used := cached.restarted some
  unfold windowFrameReduce
  rw [if_neg other, if_neg (not_le.mpr some)]
  generalize (if cache.valid = false ∨ cache.first ≠ bounds.1 ∨ cache.last > bounds.2 then
    ⟨reductionBegin kind, bounds.1, bounds.1, true⟩ else cache : ReductionCache) = current at used ⊢
  obtain ⟨fresh, valid, first, last⟩ := used
  have goesOn := fresh.goesOn other valid last
  rw [first, folded] at goesOn
  simp only [bind_eq_ok, pure_eq_ok]
  refine ⟨state, goesOn, state.value, reductionResult_eq exact', ?_⟩
  rw [← first, ← valid]

end Reduce

section Values

variable {value : Value}

structure SlotsChecked (types : List SqlType) (w : Window) : Prop where
  buckets : w.kind = .ntile → 0 < w.buckets
  input : ∀ kind, w.kind = .aggregate kind → kind ≠ .countAll → ∃ type,
    types[w.valueSlot]? = some type ∧ (kind.exact = true → kind.counts = false → keyType type = true)

theorem aggregateType_ok {input : Option SqlType} {output : SqlType}
    (typed : aggregateType kind input = .ok output) (other : kind ≠ .countAll) :
    ∃ type, input = some type ∧ (kind.exact → kind.counts = false → keyType type) := by
  simp only [aggregateType, if_neg other, bind_eq_ok, given_eq_ok] at typed
  obtain ⟨type, isType, -, -, rest⟩ := typed
  cases kind <;>
    simp_all [bit, moment, exact, counts]

theorem windowOpen_slots (isOpen : windowOpen types spec = .ok w) : SlotsChecked types w := by
  simp only [windowOpen, windowValidate, bind_eq_ok, pure_eq_ok, exists_unit, reject_eq_ok] at isOpen
  obtain ⟨⟨buckets, slots, -, -⟩, rfl⟩ := isOpen
  refine ⟨fun tiled => ?_, fun kind isKind other => ?_⟩
  · have tiled' : spec.kind = .ntile := tiled
    rw [if_pos tiled', not_or] at buckets
    exact UInt64.pos_iff_ne_zero.mpr buckets.1
  · have isKind' : spec.kind = .aggregate kind := isKind
    have valued : spec.kind.valued := by
      simp [isKind', WindowKind.valued, WindowKind.offset, WindowKind.framed, other]
    rw [windowValidateSlots, if_pos valued] at slots
    simp only [bind_eq_ok, exists_unit] at slots
    obtain ⟨-, output, typed, -⟩ := slots
    rw [windowResultType, isKind'] at typed
    exact aggregateType_ok typed other

/-- The value of a row is the declared one, and that of a reduction is what a fresh one of its frame
has. -/
structure Valued (real : RealArithmetic) (w : Window) (rows : List Row) (i : Nat) (value : Value) :
    Prop where
  declared : Declared w rows i value
  fresh : ∀ kind, w.kind = .aggregate kind →
    (reduceValues real kind (w.frameValues rows i) >>= reductionResult real kind) = .ok value

theorem isNumber_ofNat {n : Nat} (small : n < 2 ^ 63) : IsNumber (.int64 (.ofNat n)) n :=
  ⟨_, rfl, Int64.toInt_ofNat_of_lt small⟩

theorem windowOffset_declared (offset : w.kind.offset)
    (run : w.PartitionRun rows first last) (low : first ≤ i)
    (high : i < last) : Declared w rows i (windowOffset w rows first last i) := by
  have isOrdinal := ordinal_eq run low high
  have isPartition := partitionRows_eq run low high
  have which : w.kind = .lag ∨ w.kind = .lead := by
    cases isKind : w.kind <;> simp_all [WindowKind.offset]
  have found {j : Nat} (inside : first + j < last) :
      w.valueAt rows (w.fallback rows i) (range' first (last - first))[j]? =
        (rowsAt rows (first + j)).at w.valueSlot := by
    rw [getElem?_range' (by omega), Nat.one_mul]
    rfl
  unfold Declared windowOffset
  obtain isKind | isKind := which
  · simp only [isKind, isOrdinal, isPartition, ↓reduceIte]
    by_cases reaches : w.offset.toNat ≤ i - first
    · rw [if_pos reaches, if_pos reaches, found (by omega),
        show first + (i - first - w.offset.toNat) = i - w.offset.toNat by omega]
    · rw [if_neg reaches, if_neg reaches]
      rfl
  · simp only [isKind, isOrdinal, isPartition, reduceCtorEq, ↓reduceIte]
    by_cases reaches : w.offset.toNat ≤ last - i - 1
    · rw [if_pos reaches, found (by omega),
        show first + (i - first + w.offset.toNat) = i + w.offset.toNat by omega]
    · rw [if_neg reaches, getElem?_eq_none (by rw [length_range']; omega)]
      rfl

def Window.picked (w : Window) (frame : List Nat) : Option Nat :=
  if w.kind = .lastValue then frame.getLast?
  else frame[(if w.kind = .nthValue then w.offset.toNat else 1) - 1]?

theorem windowFrameValue_eq {extent : Nat × Nat}
    (isExtent : windowFrameExtent real w rows first last i peer after = extent) :
    windowFrameValue real w rows first last i peer after =
      w.valueAt rows .null (w.picked (range' extent.1 (extent.2 - extent.1))) := by
  obtain ⟨start, stop⟩ := extent
  unfold windowFrameValue Window.picked
  simp only [isExtent]
  generalize isNth : (if w.kind = .nthValue then w.offset.toNat else 1) = nth
  by_cases some : start < stop
  · by_cases isLast : w.kind = .lastValue
    · obtain rfl : 1 = nth := by simpa [isLast] using isNth
      obtain ⟨more, isMore⟩ : ∃ more, stop - start = more + 1 := ⟨stop - start - 1, by omega⟩
      rw [if_neg (by omega), if_pos isLast, if_pos isLast, isMore, range'_concat,
        getLast?_concat, show stop - 1 = start + 1 * more by omega]
      rfl
    · rw [if_neg isLast, if_neg isLast]
      by_cases reaches : nth > stop - start
      · rw [if_pos (.inr reaches), getElem?_eq_none (by rw [length_range']; omega)]
        rfl
      · rw [if_neg (by omega), getElem?_range' (by omega), Nat.one_mul]
        rfl
  · rw [if_pos (.inl (by omega)), show stop - start = 0 by omega, range'_zero]
    simp [Window.valueAt]

theorem windowFrameValue_declared (prepared : Prepared types w rows) (whole : WholeFrame types w)
    (picks : w.kind = .firstValue ∨ w.kind = .lastValue ∨ w.kind = .nthValue)
    (run : w.PartitionRun rows first last)
    (peers : w.PeerRun rows first last peer after) (low : peer ≤ i) (high : i < after) :
    Declared w rows i (windowFrameValue real w rows first last i peer after) := by
  have isFrame := frameRows_eq real prepared whole run peers low high
  rw [windowFrameValue_eq rfl, ← isFrame]
  unfold Declared Window.picked
  obtain isKind | isKind | isKind := picks
  · simp [isKind, head?_eq_getElem?]
  · simp [isKind]
  · simp [isKind]

theorem reduceValues_countAll (real : RealArithmetic) (values : List Value) (few : values.length < 2 ^ 63) :
    ∃ state, reduceValues real .countAll values = .ok state ∧
      state.value = .int64 (.ofNat values.length) := by
  have blank : Reducible .countAll ⟨.null, true⟩ (values.map fun _ => .null) :=
    ⟨rfl, fun value isValue => by
      obtain ⟨-, -, rfl⟩ := mem_map.mp isValue
      rfl, nofun, nofun⟩
  obtain ⟨state, folded, reduces⟩ := reduceValues_reduces real blank (by simpa using few)
  refine ⟨state, ?_, ?_⟩
  · rw [reduceValues, foldlM_map] at folded
    exact folded
  · simpa [IsAggregate] using reduces.value

/-- The value that a fresh reduction of the frame has is the declared one. -/
theorem valued_of_reduces (exact' : ExactWindow types w) (isKind : w.kind = .aggregate kind)
    (folded : reduceValues real kind (w.frameValues rows i) = .ok state)
    (is : IsAggregate kind (w.frameValues rows i) state.value) :
    Valued real w rows i state.value := by
  refine ⟨?_, fun kind' isKind' => ?_⟩
  · rw [Declared, isKind]
    exact is
  · obtain rfl : kind' = kind := WindowKind.aggregate.inj (isKind'.symm.trans isKind)
    have exactKind := exact'.kind
    rw [isKind] at exactKind
    exact bind_eq_ok.mpr ⟨state, folded, reductionResult_eq exactKind⟩

/-- The bucket of a row is the one whose run of ordinals the row is in. -/
theorem windowBucket_declared {ordinal count : Nat} {buckets : UInt64} (pos : 0 < buckets)
    (inside : ordinal < count) (small : count < 2 ^ 63) :
    ∃ bucket, IsNumber (.int64 (windowBucket (.ofNat ordinal) (.ofNat count) buckets)) (bucket + 1) ∧
      Spread.start count (min buckets.toNat count) bucket ≤ ordinal ∧
      ordinal < Spread.start count (min buckets.toNat count) (bucket + 1) := by
  have isCount := toNat_ofNat_small small
  have isOrdinal := toNat_ofNat_small (inside.trans small)
  have used : 0 < min buckets.toNat count :=
    lt_min (UInt64.lt_iff_toNat_lt.mp pos) (Nat.zero_lt_of_lt inside)
  refine ⟨Spread.part count (min buckets.toNat count) ordinal, ⟨_, rfl, ?_⟩,
    Spread.part_between (Nat.min_le_right _ _) used⟩
  have few : usedBuckets (.ofNat count) buckets < 2 ^ 63 := by
    rw [usedBuckets, isCount]
    exact lt_of_le_of_lt (Nat.min_le_right _ _) small
  have less : UInt64.ofNat ordinal < UInt64.ofNat count := by
    rwa [UInt64.lt_iff_toNat_lt, isCount, isOrdinal]
  rw [windowBucket_eq few pos less, usedBuckets, isCount, isOrdinal]
  rfl

/-- The cache is one that reductions of this window go on from. -/
def CacheReady (real : RealArithmetic) (w : Window) (rows : List Row) (cache : ReductionCache) :
    Prop :=
  ∀ kind, w.kind = .aggregate kind → CacheFresh real w rows kind cache

theorem valued_of_declared (plain : ∀ kind, w.kind ≠ .aggregate kind)
    (declared : Declared w rows i value) : Valued real w rows i value :=
  ⟨declared, fun kind isKind => absurd isKind (plain kind)⟩

variable (prepared : Prepared types w rows) (exact' : ExactWindow types w)
  (checked : SlotsChecked types w)
include prepared exact' checked

theorem frame_reducible {count : Nat} (isKind : w.kind = .aggregate kind) (other : kind ≠ .countAll)
    (inside : start + count ≤ rows.length) :
    ∃ type, Reducible kind type (w.valuesFrom rows start count) := by
  obtain ⟨type, isType, numeric⟩ := checked.input kind isKind other
  have exactKind := exact'.kind
  rw [isKind] at exactKind
  refine ⟨type, exactKind, fun value isValue => ?_, numeric exactKind,
    fun bit => exact'.bits kind isKind bit type isType⟩
  obtain ⟨j, isRow, rfl⟩ := mem_map.mp isValue
  have bound := (mem_range'_1.mp isRow).2
  exact (prepared.row (by omega)).valid isType

/-- A frame is reduced to what it says, and leaves a cache that goes on from there. -/
theorem windowFrameReduce_declared (isKind : w.kind = .aggregate kind)
    (cached : CacheFresh real w rows kind cache)
    (run : w.PartitionRun rows first last)
    (peers : w.PeerRun rows first last peer after) (low : peer ≤ i) (high : i < after) :
    ∃ value cache', windowFrameReduce real w rows kind
        (windowFrameExtent real w rows first last i peer after) cache = .ok (value, cache') ∧
      Valued real w rows i value ∧ CacheFresh real w rows kind cache' := by
  have framed : w.kind.framed := by rw [isKind]; rfl
  have exactKind : kind.exact := by
    have exactKind := exact'.kind
    rwa [isKind] at exactKind
  have whole := exact'.frame framed
  have isFrame := frameRows_eq real prepared whole run peers low high
  have part := prepared.partition run
  obtain ⟨_, _, start, stop, -⟩ :=
    windowFrameExtent_cuts real prepared.opened whole part (peers_of_run peers low high)
  have inside := stop.high.trans run.high
  have small := prepared.small
  have below := start.high.trans run.high
  generalize windowFrameExtent real w rows first last i peer after = bounds at *
  have isValues : w.frameValues rows i = w.valuesFrom rows bounds.1 (bounds.2 - bounds.1) := by
    rw [Window.frameValues, isFrame]
    rfl
  have length : (w.frameValues rows i).length = bounds.2 - bounds.1 := by
    rw [isValues, Window.valuesFrom, length_map, length_range']
  by_cases all : kind = .countAll
  · subst all
    obtain ⟨state, folded, isCount⟩ := reduceValues_countAll real (w.frameValues rows i) (by omega)
    have valued := valued_of_reduces exact' isKind folded isCount
    refine ⟨state.value, cache, ?_, valued, cached⟩
    rw [windowFrameReduce, if_pos rfl, isCount, length]
    split_ifs with some
    · rfl
    · rw [show bounds.2 - bounds.1 = 0 by omega]
      rfl
  · obtain ⟨type, reducible⟩ := frame_reducible prepared exact' checked isKind all
      (show bounds.1 + (bounds.2 - bounds.1) ≤ rows.length by omega)
    rw [← isValues] at reducible
    obtain ⟨state, folded, reduces⟩ := reduceValues_reduces real reducible (by omega)
    have valued := valued_of_reduces exact' isKind folded reduces.value
    rw [isValues] at folded
    by_cases some : bounds.1 < bounds.2
    · refine ⟨_, _, windowFrameReduce_fresh cached exactKind all some folded, valued, ?_⟩
      exact ⟨fun _ => some.le, fun _ => folded⟩
    · rw [show bounds.2 - bounds.1 = 0 by omega] at folded
      obtain rfl : reductionBegin kind = state := Except.ok.inj folded
      refine ⟨_, cache, ?_, valued, cached⟩
      rw [windowFrameReduce, if_neg all, if_pos (not_lt.mp some)]
      rfl

/-- The operator computes the declared value of a row among its peers. -/
theorem windowValue_declared (onward : w.kind.offset = false)
    (cached : CacheReady real w rows cache)
    (run : w.PartitionRun rows first last)
    (peers : w.PeerRun rows first last peer after) (low : peer ≤ i) (high : i < after)
    (isDense : dense = Runs.distinct (w.orderKey rows) first (after - first)) :
    ∃ value cache', windowValue real w rows first last peer after dense i cache = .ok (value, cache') ∧
      Valued real w rows i value ∧ CacheReady real w rows cache' := by
  have lowI : first ≤ i := peers.low.trans low
  have highI : i < last := lt_of_lt_of_le high peers.high
  have bound := run.high
  have small := prepared.small
  have isOrdinal := ordinal_eq run lowI highI
  have isPartition := partitionRows_eq run lowI highI
  -- A row is among its peers, and those before them are the ones with lesser keys.
  have lesser (j : Nat) (lowJ : first ≤ j) (highJ : j < last) :
      w.orderKey rows j < w.orderKey rows i ↔ first ≤ j ∧ j < peer := by
    rw [peers.lt_iff low high lowJ highJ]
    exact ⟨fun less => ⟨lowJ, less⟩, fun both => both.2⟩
  have peerLast : peer ≤ last := low.trans highI.le
  have plain {value : Value} (notReduced : ∀ kind, w.kind ≠ .aggregate kind)
      (computed : windowValue real w rows first last peer after dense i cache = .ok (value, cache))
      (declared : Declared w rows i value) :
      ∃ value cache', windowValue real w rows first last peer after dense i cache =
          .ok (value, cache') ∧ Valued real w rows i value ∧ CacheReady real w rows cache' :=
    ⟨value, cache, computed, valued_of_declared notReduced declared, cached⟩
  cases isKind : w.kind with
  | rowNumber =>
    refine plain (by simp [isKind]) (by rw [windowValue, isKind]; rfl) ?_
    rw [Declared, isKind, isOrdinal]
    exact isNumber_ofNat (by omega)
  | rank =>
    refine plain (by simp [isKind]) (by rw [windowValue, isKind]; rfl) ?_
    rw [Declared, isKind]
    rw [isPartition, countP_range le_rfl peerLast (by simpa using lesser)]
    exact isNumber_ofNat (by omega)
  | denseRank =>
    refine plain (by simp [isKind]) (by rw [windowValue, isKind]; rfl) ?_
    rw [Declared, isKind]
    rw [isPartition, Runs.filter_range le_rfl peerLast (by simpa using lesser), isDense,
      peers.distinct]
    have few := Runs.distinct_le (w.orderKey rows) first (peer - first)
    refine isNumber_ofNat (n := Runs.distinct (w.orderKey rows) first (peer - first) + 1) ?_
    omega
  | percentRank => exact absurd exact'.kind (by rw [isKind]; simp [WindowKind.exact])
  | cumeDist => exact absurd exact'.kind (by rw [isKind]; simp [WindowKind.exact])
  | ntile =>
    refine plain (by simp [isKind]) (by rw [windowValue, isKind]; rfl) ?_
    rw [Declared, isKind]
    rw [isPartition, isOrdinal, length_range']
    exact windowBucket_declared (checked.buckets isKind) (by omega) (by omega)
  | lag => rw [isKind] at onward; cases onward
  | lead => rw [isKind] at onward; cases onward
  | firstValue | lastValue | nthValue =>
    refine plain (by simp [isKind]) (by rw [windowValue, isKind]; rfl) ?_
    have framed : w.kind.framed := by rw [isKind]; rfl
    exact windowFrameValue_declared prepared (exact'.frame framed) (by simp [isKind]) run peers low
      high
  | aggregate kind =>
    obtain ⟨value, cache', computed, valued, fresh⟩ := windowFrameReduce_declared prepared exact'
      checked isKind (cached kind isKind) run peers low high
    refine ⟨value, cache', by rw [windowValue, isKind]; exact computed, valued, ?_⟩
    intro kind' isKind'
    obtain rfl : kind' = kind := WindowKind.aggregate.inj (isKind'.symm.trans isKind)
    exact fresh

end Values

section Partitions

variable (prepared : Prepared types w rows) (exact' : ExactWindow types w)
  (checked : SlotsChecked types w)
include prepared exact' checked

variable {fuel : Nat} {input : List Row}

section Onward

variable (onward : w.kind.offset = false) (cached : CacheReady real w rows cache)
  (run : w.PartitionRun rows first last)
include onward cached run

theorem windowGroup_declared {indices : List Nat}
    (peers : w.PeerRun rows first last peer after)
    (within : ∀ i ∈ indices, peer ≤ i ∧ i < after)
    (isDense : dense = Runs.distinct (w.orderKey rows) first (after - first)) :
    ∃ values cache', windowGroup real w rows first last peer after dense indices cache =
        .ok (values, cache') ∧
      List.Forall₂ (Valued real w rows) indices values ∧ CacheReady real w rows cache' := by
  induction indices generalizing cache with
  | nil => exact ⟨[], cache, rfl, .nil, cached⟩
  | cons i indices ih =>
    obtain ⟨low, high⟩ := within i mem_cons_self
    obtain ⟨value, cache1, computed, valued, cached1⟩ :=
      windowValue_declared prepared exact' checked onward cached run peers low high isDense
    obtain ⟨values, cache2, rest, allValued, cached2⟩ :=
      ih cached1 fun i isIndex => within i (mem_cons_of_mem _ isIndex)
    refine ⟨value :: values, cache2, ?_, .cons valued allValued, cached2⟩
    rw [windowGroup, computed]
    simp only [bind_eq_ok, pure_eq_ok]
    exact ⟨_, rfl, _, rest, rfl⟩

/-- From a row where a group of peers starts, the operator computes the values of the rest of the
partition. -/
theorem windowPeers_declared {fuel : Nat} (low : first ≤ peer) (high : peer ≤ last)
    (enough : last - peer ≤ fuel) (starts : Runs.Starts (w.orderKey rows) first last peer)
    (isDense : dense = Runs.distinct (w.orderKey rows) first (peer - first)) :
    ∃ values, windowPeers real w rows first last fuel peer dense cache = .ok values ∧
      List.Forall₂ (Valued real w rows) (range' peer (last - peer)) values := by
  induction fuel generalizing peer dense cache with
  | zero =>
    refine ⟨[], rfl, ?_⟩
    rw [Nat.le_zero.mp enough]
    exact .nil
  | succ fuel ih =>
    by_cases less : peer < last
    · have peers := prepared.peers_runEnd run low less starts
      have some := peers.some
      have within := peers.high
      generalize isAfter : runEnd rows w.orderKeys peer last = after at *
      have isDense' : dense + 1 = Runs.distinct (w.orderKey rows) first (after - first) := by
        rw [peers.distinct, isDense]
      have indices (i : Nat) (isIndex : i ∈ range' peer (after - peer)) :
          peer ≤ i ∧ i < after := by
        have bounds := mem_range'_1.mp isIndex
        omega
      obtain ⟨values, cache', group, valued, cached'⟩ :=
        windowGroup_declared prepared exact' checked onward cached run peers indices isDense'
      obtain ⟨rest, others, restValued⟩ :=
        ih cached' (by omega) within (by omega) peers.next isDense'
      refine ⟨values ++ rest, ?_, ?_⟩
      · rw [windowPeers, if_pos less]
        simp only [bind_eq_ok, pure_eq_ok, isAfter]
        exact ⟨_, group, _, others, rfl⟩
      · rw [Runs.range_split some.le within]
        exact rel_append valued restValued
    · refine ⟨[], by rw [windowPeers, if_neg less]; rfl, ?_⟩
      rw [show last - peer = 0 by omega]
      exact .nil

end Onward

theorem windowPartition_declared (run : w.PartitionRun rows first last) :
    ∃ values, windowPartition real w rows first last = .ok values ∧
      List.Forall₂ (Valued real w rows) (range' first (last - first)) values := by
  unfold windowPartition
  by_cases offset : w.kind.offset
  · rw [if_pos offset]
    refine ⟨_, rfl, ?_⟩
    rw [forall₂_map_right_iff, forall₂_same]
    intro i isIndex
    have bounds := mem_range'_1.mp isIndex
    refine valued_of_declared (fun kind isKind => ?_)
      (windowOffset_declared offset run bounds.1 (by omega))
    rw [isKind] at offset
    cases offset
  · rw [if_neg offset]
    refine windowPeers_declared prepared exact' checked (by simpa using offset)
      (fun _ _ => cacheFresh_empty) run le_rfl run.some.le le_rfl (Runs.starts_first _ _ _) ?_
    rw [Nat.sub_self]
    rfl

variable (real) in
/-- From a row where a partition starts, the operator computes the values of the rest of the rows. -/
theorem windowPartitions_declared (high : first ≤ rows.length) (enough : rows.length - first ≤ fuel)
    (starts : Runs.Starts (w.partitionKey rows) 0 rows.length first) :
    ∃ values, windowPartitions real w rows rows.length fuel first = .ok values ∧
      List.Forall₂ (Valued real w rows) (range' first (rows.length - first)) values := by
  induction fuel generalizing first with
  | zero =>
    refine ⟨[], rfl, ?_⟩
    rw [Nat.le_zero.mp enough]
    exact .nil
  | succ fuel ih =>
    by_cases less : first < rows.length
    · have run := prepared.partition_runEnd less starts
      have some := run.some
      have within := run.high
      generalize isLast : runEnd rows w.partitionKeys first rows.length = last at *
      obtain ⟨values, part, valued⟩ := windowPartition_declared prepared exact' checked run
      obtain ⟨rest, others, restValued⟩ := ih within (by omega) run.next
      refine ⟨values ++ rest, ?_, ?_⟩
      · rw [windowPartitions, if_pos less]
        simp only [bind_eq_ok, pure_eq_ok, isLast]
        exact ⟨_, part, _, others, rfl⟩
      · rw [Runs.range_split some.le within]
        exact rel_append valued restValued
    · refine ⟨[], by rw [windowPartitions, if_neg less]; rfl, ?_⟩
      rw [show rows.length - first = 0 by omega]
      exact .nil

omit prepared exact' checked

theorem prepared_scanRows (opened : Opened types w)
    (typed : ∀ row ∈ input, row.WellTyped types) (few : input.length < 2 ^ 63) :
    Prepared types w (scanRows w.orders input) := by
  have perm := scanRows_perm w.orders input
  refine ⟨opened, fun row isRow => typed row (perm.mem_iff.mp isRow), perm.length_eq.trans_lt few,
    fun i j le inside => ?_⟩
  obtain rfl | less := le.eq_or_lt
  · exact le_rfl
  · have sorted := pairwise_iff_getElem.mp (scanRows_sorted opened.keyed typed)
    rw [rowsAt, rowsAt, getD_eq_getElem _ _ (less.trans inside),
      getD_eq_getElem _ _ inside]
    exact sorted i j _ _ less

theorem windowPrepare_declared (real : RealArithmetic) (opened : Opened types w)
    (exact' : ExactWindow types w) (checked : SlotsChecked types w)
    (typed : ∀ row ∈ input, row.WellTyped types) (few : input.length < 2 ^ 63) :
    ∃ values, windowPrepare real w input =
        .ok (zipWith (fun row value => row ++ [value]) (scanRows w.orders input) values) ∧
      List.Forall₂ (Valued real w (scanRows w.orders input)) (range input.length) values := by
  have prepared := prepared_scanRows opened typed few
  have length := (scanRows_perm w.orders input).length_eq
  obtain ⟨values, computed, valued⟩ := windowPartitions_declared real prepared exact' checked
    (Nat.zero_le _) le_rfl (Runs.starts_first _ _ _)
  rw [Nat.sub_zero, length, ← range_eq_range'] at valued
  refine ⟨values, ?_, valued⟩
  simp only [windowPrepare, bind_eq_ok, reject_eq_ok, pure_eq_ok, exists_unit]
  exact ⟨by omega, values, computed, rfl⟩

theorem windowDrain_rows {run : WindowRun} (isRows : run.rows = some out) (going : run.state = .row)
    (within : run.position ≤ out.length) (enough : out.length - run.position < fuel) :
    windowDrain real fuel run = .ok (out.drop run.position) := by
  induction fuel generalizing run with
  | zero => omega
  | succ fuel ih =>
    have delivered : windowNext real run = windowDeliver out run := by
      simp only [windowNext, going, isRows]
    rw [windowDrain, delivered, windowDeliver]
    by_cases done : run.position = out.length
    · simp only [if_pos done]
      rw [done, drop_length]
      rfl
    · have inside : run.position < out.length := by omega
      generalize isNext : ({ run with rows := some out, position := run.position + 1
                                      state := .row } : WindowRun) = next
      have position : next.position = run.position + 1 := by rw [← isNext]
      have rest : windowDrain real fuel next = .ok (out.drop next.position) :=
        ih (by rw [← isNext]) (by rw [← isNext]) (by omega) (by omega)
      simp only [if_neg done, rest]
      rw [drop_eq_getElem_cons inside, rowsAt, getD_eq_getElem _ _ inside, position]
      rfl

theorem windowDrain_start {input : List Row} (prepares : windowPrepare real w input = .ok out)
    (enough : out.length < fuel) : windowDrain real fuel (windowStart w input) = .ok out := by
  -- The first call computes the rows, and then does what every other call does.
  have next : windowNext real (windowStart w input) = windowNext real ⟨w, input, some out, 0, .row⟩ := by
    simp only [windowNext, windowStart, prepares]
    rfl
  have rows : windowDrain real fuel ⟨w, input, some out, 0, .row⟩ = .ok out :=
    windowDrain_rows rfl rfl (Nat.zero_le _) enough
  cases fuel with
  | zero => omega
  | succ fuel =>
    rw [windowDrain, next]
    exact rows

theorem windowDrain_refused {cause : Failure}
    (prepares : windowPrepare real w input = .error cause) :
    ∃ failure, windowDrain real (fuel + 1) (windowStart w input) = .error failure ∧
      failure.status = cause.status := by
  refine ⟨⟨cause.status, "TidesDB SQL window at row " ++ toString 0 ++ ": " ++ cause.message⟩, ?_, rfl⟩
  simp only [windowDrain, windowNext, windowStart, prepares]

theorem appended_dropLast {rows : List Row} {values : List Value} (same : rows.length = values.length) :
    (zipWith (fun row value => row ++ [value]) rows values).map dropLast = rows := by
  induction rows generalizing values with
  | nil => rfl
  | cons row rows ih =>
    obtain ⟨value, values, rfl⟩ := exists_cons_of_length_eq_add_one same.symm
    rw [zipWith_cons_cons, map_cons, dropLast_concat, ih (Nat.succ.inj same)]

theorem appended_at {rows : List Row} {values : List Value} {i : Nat} (isRow : i < rows.length)
    (isValue : i < values.length) :
    rowsAt (zipWith (fun row value => row ++ [value]) rows values) i =
      rowsAt rows i ++ [values[i]] := by
  rw [rowsAt, rowsAt, getD_eq_getElem _ _ isRow,
    getD_eq_getElem _ _ (by rw [length_zipWith]; omega), getElem_zipWith]

/-- The operator yields every row of its input once, in the order of its keys, with the declared
value behind it; only more rows than a signed integer can count are refused. -/
theorem windowDrain_declared {input : List Row} {fuel : Nat} (real : RealArithmetic)
    (isOpen : windowOpen types spec = .ok w) (exact' : ExactWindow types w)
    (typed : ∀ row ∈ input, row.WellTyped types) (enough : input.length < fuel) :
    (input.length < 2 ^ 63 → ∃ out, windowDrain real fuel (windowStart w input) = .ok out ∧
      (out.map dropLast).Perm input ∧
      (out.map dropLast).Pairwise (fun a b => key w.orders a ≤ key w.orders b) ∧
      ∀ i, i < input.length → ∃ value,
        rowsAt out i = rowsAt (scanRows w.orders input) i ++ [value] ∧
        Valued real w (scanRows w.orders input) i value) ∧
    (2 ^ 63 ≤ input.length → ∃ failure,
      windowDrain real fuel (windowStart w input) = .error failure ∧
        failure.status = .limitExceeded) := by
  have perm := scanRows_perm w.orders input
  refine ⟨fun few => ?_, fun many => ?_⟩
  · obtain ⟨values, prepares, valued⟩ := windowPrepare_declared real (windowOpen_opened isOpen) exact'
      (windowOpen_slots isOpen) typed few
    have length : (scanRows w.orders input).length = values.length := by
      rw [perm.length_eq, ← valued.length_eq, length_range]
    refine ⟨_, windowDrain_start prepares ?_, ?_, ?_, fun i inside => ?_⟩
    · rw [length_zipWith, ← length, Nat.min_self, perm.length_eq]
      exact enough
    · rwa [appended_dropLast length]
    · rw [appended_dropLast length]
      exact scanRows_sorted (windowOpen_opened isOpen).keyed typed
    · have isValue : i < values.length := by rwa [← length, perm.length_eq]
      have here := forall₂_iff_get.mp valued
      refine ⟨values[i], appended_at (by rwa [perm.length_eq]) isValue, ?_⟩
      have atI := here.2 i (by simpa using inside) isValue
      simpa using atI
  · obtain ⟨fuel, rfl⟩ : ∃ less, fuel = less + 1 := ⟨fuel - 1, by omega⟩
    have refused : windowPrepare real w input =
        .error ⟨.limitExceeded, "SQL window row count exceeds INT64"⟩ := by
      simp only [windowPrepare, bind_eq_error, reject_eq_error]
      exact .inl ⟨by rw [perm.length_eq]; omega, trivial⟩
    exact windowDrain_refused refused

theorem windowDrain_declared_near :
    windowDrain idleReal 4 (windowStart nearWindow nearRows) =
        .ok [[.int64 3, .int64 2], [.int64 2, .int64 2], [.null, .int64 1]] ∧
      Valued idleReal nearWindow (scanRows nearWindow.orders nearRows) 1 (.int64 2) := by
  have exact' : ExactWindow [⟨.int64, true⟩] nearWindow :=
    ⟨rfl, fun _ => nearWindow_whole, fun kind isKind bit => by cases isKind; cases bit⟩
  have sorted : scanRows nearWindow.orders nearRows = nearRows := mergeSort_of_pairwise (by decide)
  have prepares : windowPrepare idleReal nearWindow nearRows =
      .ok [[.int64 3, .int64 2], [.int64 2, .int64 2], [.null, .int64 1]] := by
    rw [windowPrepare, sorted]
    rfl
  have drained := windowDrain_start prepares (Nat.lt_succ_self 3)
  obtain ⟨out, computed, -, -, declared⟩ := (windowDrain_declared idleReal nearWindow_open exact'
    nearRows_partition.typed (Nat.lt_succ_self 3)).1 (by decide)
  obtain rfl := Except.ok.inj (drained.symm.trans computed)
  obtain ⟨value, appended, valued⟩ := declared 1 (by decide)
  obtain rfl : value = .int64 2 := by simpa [rowsAt] using (congrArg getLast? appended).symm
  exact ⟨drained, valued⟩

end Partitions

end TurboDb.Query
