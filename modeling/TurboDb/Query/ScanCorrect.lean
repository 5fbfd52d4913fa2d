import TurboDb.Library.Runs
import TurboDb.Query.Scan

/-!
What a scan yields.

Without DISTINCT these are the rows that pass the filter, in the order of their
keys and otherwise of the source, cut to the page. With DISTINCT one row is picked
for every class of equal outputs. An evaluation that fails ends the scan, and only
those are made that its answer rests on.
-/

namespace TurboDb.Query

open Effect Pull ScanSpec List

def ScanValue.valueOf (value : ScanValue) (row : Row) : Value :=
  (value.eval row).toOption.getD .null

namespace ScanSpec

variable (spec : ScanSpec)

/-- The filter is TRUE on the row. -/
def passes (row : Row) : Bool :=
  match spec.filter with
  | none => true
  | some filter =>
    match filter row with
    | .ok (.boolean value) => value ≠ 0
    | _ => false

def output (row : Row) : Row := spec.projection.map (·.valueOf row)

def sortKey (row : Row) : List Line :=
  spec.orders.map fun order => place order.2 (order.1.valueOf row)

/-- The places of the outputs, which are those of another row when the outputs are equal. -/
def outputKey (row : Row) : List Line :=
  spec.projection.map fun value => place false (value.valueOf row)

def page (rows : List Row) : List Row := ((rows.drop spec.offset).take spec.limit).map spec.output

def Fails (row : Row) : Prop :=
  (∃ e, scanMatches spec row = .error e) ∨ (∃ e, scanCapture spec row = .error e) ∨
    ∃ e, scanProjectRow spec row = .error e

/-- The rows that a scan gives, before the page is cut. -/
def Declared (source rows : List Row) : Prop :=
  if spec.distinct then
    rows ⊆ source.filter spec.passes ∧ rows.Pairwise (spec.sortKey · ≤ spec.sortKey ·) ∧
      rows.Pairwise (spec.outputKey · ≠ spec.outputKey ·) ∧
      ∀ row ∈ source.filter spec.passes, ∃ picked ∈ rows, spec.outputKey picked = spec.outputKey row
  else rows = (source.filter spec.passes).mergeSort (spec.sortKey · ≤ spec.sortKey ·)

def Unfiltered (row : Row) : Prop := ∃ filter e, spec.filter = some filter ∧ filter row = .error e

def Unvalued (values : List ScanValue) (row : Row) : Prop := ∃ value ∈ values, ∃ e, value.eval row = .error e

/-- The rows up to the `n`-th that passes the filter. -/
def upTo : Nat → List Row → List Row
  | 0, _ => []
  | _ + 1, [] => []
  | n + 1, row :: rows => row :: upTo (if spec.passes row then n else n + 1) rows

/-- The rows that have to be read: those up to the end of the page, or all to sort them. -/
def needed (source : List Row) : List Row :=
  if spec.limit = 0 then []
  else if spec.orders ≠ [] ∨ spec.distinct then source
  else spec.upTo (spec.offset + spec.limit) source

/-- An evaluation that the answer rests on fails: the filter on a row that has to be read, a key or
with DISTINCT an output of one that passes, or an output of a row of the page. -/
inductive Stuck (source : List Row) : Prop
  | filter {row : Row} : row ∈ spec.needed source → spec.Unfiltered row → Stuck source
  | key {row : Row} : row ∈ spec.needed source → spec.passes row → Unvalued (spec.orders.map (·.1)) row →
      Stuck source
  | distinct {row : Row} : spec.distinct → row ∈ spec.needed source → spec.passes row →
      Unvalued spec.projection row → Stuck source
  | output {row : Row} {rows : List Row} : spec.Declared source rows →
      row ∈ (rows.drop spec.offset).take spec.limit → Unvalued spec.projection row → Stuck source

/-- Order keys, and with DISTINCT the outputs, are numbers, truth values or NULL. -/
def Ordered : Prop :=
  (∀ order ∈ spec.orders, keyType order.1.type = true) ∧
    (spec.distinct = true → ∀ value ∈ spec.projection, keyType value.type = true)

end ScanSpec

variable {spec : ScanSpec} {source : List Row} {run : ScanRun} {bad : Prop}

theorem scanNext_active (active : run.state = .opened ∨ run.state = .row) :
    scanNext run = scanAdvance run := by
  rw [scanNext]
  rcases active with active | active <;> simp only [active]

theorem scanMatches_spec (spec : ScanSpec) (row : Row) :
    match scanMatches spec row with
    | .ok isMatch => spec.passes row = isMatch
    | .error _ => spec.Unfiltered row := by
  rw [scanMatches, passes]
  cases given : spec.filter with
  | none => exact rfl
  | some filter =>
    dsimp only
    cases evaluated : filter row with
    | error e => exact ⟨filter, e, given, evaluated⟩
    | ok value => cases value <;> exact rfl

theorem mapM_eval {values : List ScanValue} {row outputs : Row}
    (evaluated : values.mapM (·.eval row) = .ok outputs) :
    outputs = values.map (·.valueOf row) ∧ Row.WellTyped (values.map (·.type)) outputs := by
  rw [mapM_eq_ok] at evaluated
  induction evaluated with
  | nil => exact ⟨rfl, .nil⟩
  | @cons value output values outputs here _ ih =>
    refine ⟨?_, .cons (value.typed here) ih.2⟩
    rw [map_cons, ← ih.1, ScanValue.valueOf, here]
    rfl

theorem scanProjectRow_spec (spec : ScanSpec) (row : Row) :
    scanProjectRow spec row = .ok (spec.output row) ∨
      Unvalued spec.projection row ∧ ∃ e, scanProjectRow spec row = .error e := by
  cases projected : scanProjectRow spec row with
  | ok output => exact .inl (congrArg _ (mapM_eval projected).1)
  | error e =>
    obtain ⟨value, isValue, fails⟩ := mapM_eq_error projected
    exact .inr ⟨⟨value, isValue, e, fails⟩, e, rfl⟩

structure Streaming (spec : ScanSpec) (bad : Prop) (run : ScanRun) (outputs : List Row) : Prop where
  same : run.spec = spec
  active : run.state = .opened ∨ run.state = .row
  filters : run.limitLeft ≠ 0 →
    ∀ row ∈ spec.upTo (run.offsetLeft + run.limitLeft) run.source, spec.Unfiltered row → bad
  page : ∀ row ∈ ((run.source.filter spec.passes).drop run.offsetLeft).take run.limitLeft,
    Unvalued spec.projection row → bad
  rest : outputs =
    (((run.source.filter spec.passes).drop run.offsetLeft).take run.limitLeft).map spec.output

theorem scanStream_answers (same : run.spec = spec) {limit : Nat} (left : run.limitLeft = limit + 1)
    (position offsetLeft : Nat)
    (filters : ∀ row ∈ spec.upTo (offsetLeft + limit + 1) source, spec.Unfiltered row → bad)
    (page : ∀ row ∈ ((source.filter spec.passes).drop offsetLeft).take (limit + 1),
      Unvalued spec.projection row → bad) :
    Answers bad (Streaming spec bad) (scanStream run source position offsetLeft)
      ((((source.filter spec.passes).drop offsetLeft).take (limit + 1)).map spec.output) := by
  induction source generalizing position offsetLeft with
  | nil =>
    rw [filter_nil, drop_nil]
    exact .inr rfl
  | cons row source ih =>
    rw [upTo, forall_mem_cons] at filters
    have matching := scanMatches_spec spec row
    rw [scanStream, same]
    cases matched : scanMatches spec row with
    | error cause =>
      rw [matched] at matching
      exact answers_fails (filters.1 matching) rfl
    | ok isMatch =>
      rw [matched] at matching
      dsimp only at matching ⊢
      rw [matching] at filters
      cases isMatch with
      | false =>
        rw [filter_cons_of_neg (by simp [matching])] at page ⊢
        rw [if_pos (.inl rfl)]
        exact ih _ _ filters.2 page
      | true =>
        rw [filter_cons_of_pos matching] at page ⊢
        cases offsetLeft with
        | succ offsetLeft =>
          rw [Nat.succ_add] at filters
          exact ih _ _ filters.2 page
        | zero =>
          rw [drop_zero, take_succ_cons, forall_mem_cons] at page
          obtain projected | ⟨fails, cause, projected⟩ := scanProjectRow_spec spec row
          · rw [projected]
            refine .inr ⟨_, rfl, rfl, .inr rfl, fun _ => ?_, ?_, ?_⟩
            · simpa [left] using filters.2
            · simpa [left] using page.2
            · rw [left]
              rfl
          · rw [projected]
            exact answers_fails (page.1 fails) rfl

variable {outputs : List Row} {value : ScanValue}

theorem Streaming.answers (plain : spec.orders = [] ∧ spec.distinct = false)
    (streaming : Streaming spec bad run outputs) :
    Answers bad (Streaming spec bad) (scanNext run) outputs := by
  obtain ⟨same, active, filters, page, rfl⟩ := streaming
  rw [scanNext_active active, scanAdvance]
  cases left : run.limitLeft with
  | zero =>
    exact .inr rfl
  | succ limit =>
    rw [if_neg (Nat.succ_ne_zero _), same, if_neg (by simp [plain])]
    rw [left] at filters page
    exact scanStream_answers same left _ _ (filters (Nat.succ_ne_zero _)) page

section Sorted

variable {row : Row} {i : Nat}

def ScanSpec.record (spec : ScanSpec) (row : Row) : Row :=
  row ++ spec.kept.map (·.valueOf row)

def ScanSpec.recordTypes (spec : ScanSpec) : List SqlType := spec.types ++ spec.kept.map (·.type)

theorem scanCapture_ok {row record : Row} (typed : row.WellTyped spec.types)
    (captured : scanCapture spec row = .ok record) :
    record = spec.record row ∧ record.WellTyped spec.recordTypes := by
  simp only [scanCapture, bind_eq_ok, pure_eq_ok] at captured
  obtain ⟨kept, evaluated, rfl⟩ := captured
  obtain ⟨rfl, valid⟩ := mapM_eval evaluated
  exact ⟨rfl, rel_append typed valid⟩

theorem record_at (typed : row.WellTyped spec.types) (isKept : spec.kept[i]? = some value) :
    (spec.record row).at (spec.types.length + i) = value.valueOf row := by
  rw [Row.at, record, ← typed.length_eq, getD_append_right _ _ _ _ (by omega)]
  simp [isKept]

theorem kept_order (less : i < spec.orders.length) : spec.kept[i]? = some spec.orders[i].1 := by
  rw [kept, getElem?_append_left (by simpa using less)]
  simp [less]

theorem kept_output (distinct : spec.distinct) (less : i < spec.projection.length) :
    spec.kept[spec.orders.length + i]? = some spec.projection[i] := by
  rw [kept, if_pos distinct, getElem?_append_right (by simp)]
  simp [less]

theorem key_keyOrders (typed : row.WellTyped spec.types) :
    key spec.keyOrders (spec.record row) = spec.sortKey row := by
  refine ext_getElem (by simp [key, keyOrders, sortKey]) fun i _ high => ?_
  have less : i < spec.orders.length := by simpa [sortKey] using high
  simp [key, keyOrders, sortKey, record_at typed (kept_order less)]

theorem key_outputOrders (typed : row.WellTyped spec.types) (distinct : spec.distinct) :
    key spec.outputOrders (spec.record row) = spec.outputKey row := by
  refine ext_getElem (by simp [key, outputOrders, outputKey])
    fun i _ high => ?_
  have less : i < spec.projection.length := by simpa [outputKey] using high
  simp [key, outputOrders, outputKey, Nat.add_assoc,
    record_at typed (kept_output distinct less)]

theorem recordTypes_get (isKept : spec.kept[i]? = some value) :
    spec.recordTypes[spec.types.length + i]? = some value.type := by
  rw [recordTypes, getElem?_append_right (by omega)]
  simp [isKept]

theorem keyed_keyOrders (ordered : spec.Ordered) : Keyed spec.recordTypes spec.keyOrders := by
  intro order isOrder
  obtain ⟨i, less, rfl⟩ := mem_mapIdx.mp isOrder
  exact ⟨_, recordTypes_get (kept_order less), ordered.1 _ (getElem_mem less)⟩

theorem keyed_outputOrders (ordered : spec.Ordered) (distinct : spec.distinct) :
    Keyed spec.recordTypes spec.outputOrders := by
  intro order isOrder
  obtain ⟨i, less, rfl⟩ := mem_mapIdx.mp isOrder
  have isType := recordTypes_get (kept_output distinct less)
  rw [← Nat.add_assoc] at isType
  exact ⟨_, isType, ordered.2 distinct _ (getElem_mem less)⟩

structure Captured (spec : ScanSpec) (source : List Row) (row : Row) : Prop where
  mem : row ∈ source
  passes : spec.passes row = true
  typed : row.WellTyped spec.types
  captured : scanCapture spec row = .ok (spec.record row)

theorem scanCapture_error {row : Row} {e : Failure} (failed : scanCapture spec row = .error e) :
    Unvalued spec.kept row := by
  simp only [scanCapture, bind_eq_error, pure_ne_error, and_false, exists_false, or_false] at failed
  obtain ⟨value, isValue, fails⟩ := mapM_eq_error failed
  exact ⟨value, isValue, e, fails⟩

theorem scanCollect_yields (typed : ∀ row ∈ source, row.WellTyped spec.types)
    (filters : ∀ row ∈ source, spec.Unfiltered row → bad)
    (keeps : ∀ row ∈ source, spec.passes row → Unvalued spec.kept row → bad) (position : Nat) :
    Yields bad (scanCollect spec position source) fun records =>
      records = (source.filter spec.passes).map spec.record ∧
        ∀ row ∈ source, spec.passes row → Captured spec source row := by
  induction source generalizing position with
  | nil => exact .pure ⟨rfl, by simp⟩
  | cons row source ih =>
    rw [forall_mem_cons] at typed filters keeps
    have first : Yields bad ((scanTake spec row).mapError (scanFailure position)) fun taken =>
        taken = ([row].filter spec.passes).map spec.record ∧
          (spec.passes row = true → scanCapture spec row = .ok (spec.record row)) := by
      have matching := scanMatches_spec spec row
      rw [scanTake]
      cases matched : scanMatches spec row with
      | error cause =>
        rw [matched] at matching
        exact .inr ⟨filters.1 matching, _, rfl⟩
      | ok isMatch =>
        rw [matched] at matching
        dsimp only at matching
        rw [ok_bind]
        cases isMatch with
        | false => exact .inl ⟨[], rfl, by simp [matching]⟩
        | true =>
          cases captured : scanCapture spec row with
          | error cause => exact .inr ⟨keeps.1 matching (scanCapture_error captured), _, rfl⟩
          | ok record =>
            obtain ⟨rfl, -⟩ := scanCapture_ok typed.1 captured
            exact .inl ⟨_, rfl, by simp [matching], fun _ => rfl⟩
    refine first.bind fun taken isTaken => (ih typed.2 filters.2 keeps.2
      (position + 1)).bind fun records others => .pure ⟨?_, fun other isOther passes => ?_⟩
    · rw [isTaken.1, others.1, ← map_append, ← filter_append, singleton_append]
    · rcases mem_cons.mp isOther with rfl | isOther
      · exact ⟨mem_cons_self, passes, typed.1, isTaken.2 passes⟩
      · have old := others.2 other isOther passes
        exact ⟨mem_cons_of_mem _ isOther, passes, old.typed, old.captured⟩

theorem captured_output (taken : Captured spec source row) (distinct : spec.distinct) :
    (spec.record row).drop (spec.types.length + spec.orders.length) = spec.output row := by
  have captured := taken.captured
  simp only [scanCapture, kept, if_pos distinct, mapM_append, bind_eq_ok,
    pure_eq_ok] at captured
  obtain ⟨_, ⟨keys, -, outputs, projected, -⟩, -⟩ := captured
  rw [output, record, kept, if_pos distinct, ← taken.typed.length_eq, ← drop_drop, drop_left,
    map_append, drop_left' (by simp)]

/-- A run with sorted records that has these outputs to give. -/
structure Sorting (spec : ScanSpec) (source : List Row) (bad : Prop) (run : ScanRun) (outputs : List Row) :
    Prop where
  same : run.spec = spec
  active : run.state = .opened ∨ run.state = .row
  rest : ∃ rows : List Row, run.sorted = some (rows.map spec.record) ∧
    (∀ row ∈ rows, Captured spec source row) ∧
    (∀ row ∈ rows.take run.limitLeft, Unvalued spec.projection row → bad) ∧
    outputs = (rows.take run.limitLeft).map spec.output

theorem scanSorted_answers {rows : List Row} (same : run.spec = spec) {limit : Nat}
    (left : run.limitLeft = limit + 1) (taken : ∀ row ∈ rows, Captured spec source row)
    (page : ∀ row ∈ rows.take (limit + 1), Unvalued spec.projection row → bad) :
    Answers bad (Sorting spec source bad) (scanSorted run (rows.map spec.record))
      ((rows.take (limit + 1)).map spec.output) := by
  subst same
  cases rows with
  | nil => exact .inr rfl
  | cons row rows =>
    obtain ⟨here, others⟩ := forall_mem_cons.mp taken
    rw [take_succ_cons, forall_mem_cons] at page
    have front : (run.spec.record row).take run.spec.types.length = row := by
      rw [record, ← here.typed.length_eq, take_left]
    have given : Answers (ε := Failure) bad (Sorting run.spec source bad) (.ok (some (run.spec.output row)),
        { run with
          sorted := some (rows.map run.spec.record), limitLeft := run.limitLeft - 1, state := .row })
        (run.spec.output row :: (rows.take limit).map run.spec.output) :=
      .inr ⟨_, rfl, rfl, .inr rfl, rows, rfl, others, by simpa [left] using page.2, by rw [left]; rfl⟩
    rw [map_cons, scanSorted, front]
    by_cases distinct : run.spec.distinct
    · rw [if_pos distinct, captured_output here distinct]
      exact given
    · rw [if_neg distinct]
      obtain projected | ⟨fails, cause, projected⟩ := scanProjectRow_spec run.spec row
      · rw [projected]
        exact given
      · rw [projected]
        exact answers_fails (page.1 fails) rfl

theorem Sorting.answers (sorts : spec.orders ≠ [] ∨ spec.distinct)
    (sorting : Sorting spec source bad run outputs) :
    Answers bad (Sorting spec source bad) (scanNext run) outputs := by
  obtain ⟨same, active, rows, sorted, taken, page, rfl⟩ := sorting
  rw [scanNext_active active, scanAdvance]
  cases left : run.limitLeft with
  | zero =>
    exact .inr rfl
  | succ limit =>
    rw [if_neg (Nat.succ_ne_zero _), same, if_pos sorts, sorted]
    exact scanSorted_answers same left taken (left ▸ page)

variable {rows : List Row}

theorem records_typed (taken : ∀ row ∈ rows, Captured spec source row) :
    ∀ record ∈ rows.map spec.record, record.WellTyped spec.recordTypes :=
  forall_mem_map.mpr fun row isRow =>
    (scanCapture_ok (taken row isRow).typed (taken row isRow).captured).2

/-- Sorting records by keys that are kept in them sorts their rows. -/
theorem scanRows_records {orders : List ScanOrder} {keyOf : Row → List Line}
    (keyed : Keyed spec.recordTypes orders)
    (isKey : ∀ {row : Row}, row.WellTyped spec.types → key orders (spec.record row) = keyOf row)
    (taken : ∀ row ∈ rows, Captured spec source row) :
    scanRows orders (rows.map spec.record) =
      (rows.mergeSort (keyOf · ≤ keyOf ·)).map spec.record := by
  rw [scanRows_eq keyed (records_typed taken)]
  refine (map_mergeSort fun a isA b isB => ?_).symm
  rw [isKey (taken a isA).typed, isKey (taken b isB).typed]

def ScanSpec.compacted (spec : ScanSpec) (rows : List Row) : List Row :=
  (rows.mergeSort (spec.outputKey · ≤ spec.outputKey ·)).destutter
    (spec.outputKey · ≠ spec.outputKey ·)

theorem compacted_subset : spec.compacted rows ⊆ rows := fun _ isOne =>
  (mergeSort_perm _ _).subset ((destutter_sublist _ _).subset isOne)

theorem scanDistinct_records (ordered : spec.Ordered) (distinct : spec.distinct)
    (taken : ∀ row ∈ rows, Captured spec source row) :
    scanDistinct spec (rows.map spec.record) = (spec.compacted rows).map spec.record := by
  have keyed := keyed_outputOrders ordered distinct
  have isKey {row : Row} (typed : row.WellTyped spec.types) := key_outputOrders typed distinct
  rw [scanDistinct, scanRows_records keyed isKey taken]
  refine (map_destutter fun a isA b isB => ?_).symm
  have takenA := taken a ((mergeSort_perm _ _).subset isA)
  have takenB := taken b ((mergeSort_perm _ _).subset isB)
  rw [← isKey takenA.typed, ← isKey takenB.typed]
  exact (scanCompareRows_compares keyed (scanCapture_ok takenA.typed takenA.captured).2
    (scanCapture_ok takenB.typed takenB.captured).2).eq_eq.not.symm

def ScanSpec.chosen (spec : ScanSpec) (source : List Row) : List Row :=
  let rows := source.filter spec.passes
  (if spec.distinct then spec.compacted rows else rows).mergeSort (spec.sortKey · ≤ spec.sortKey ·)

theorem chosen_subset : spec.chosen source ⊆ source.filter spec.passes := by
  intro row isRow
  have isOne := (mergeSort_perm _ _).subset isRow
  split_ifs at isOne
  · exact compacted_subset isOne
  · exact isOne

theorem chosen_length : (spec.chosen source).length ≤ source.length := by
  rw [chosen, length_mergeSort]
  refine le_trans ?_ (length_filter_le spec.passes source)
  split_ifs
  · exact (destutter_sublist _ _).length_le
      |>.trans_eq (length_mergeSort _)
  · exact le_rfl

theorem chosen_declared (spec : ScanSpec) (source : List Row) :
    spec.Declared source (spec.chosen source) := by
  have perm (rows : List Row) := mergeSort_perm rows (spec.sortKey · ≤ spec.sortKey ·)
  rw [ScanSpec.Declared]
  split_ifs with distinct
  · obtain ⟨pairwise, covers⟩ := Runs.destutter_spec (R := (spec.outputKey · ≠ spec.outputKey ·))
      (mergeSort_sorted spec.outputKey (source.filter spec.passes)) fun _ _ _ _ => Iff.rfl
    refine ⟨chosen_subset, mergeSort_sorted _ _, ?_, fun row isRow => ?_⟩
    · rw [chosen, if_pos distinct]
      exact ((perm _).pairwise_iff Ne.symm).mpr (pairwise.imp ne_of_lt)
    · obtain ⟨picked, isPicked, same⟩ := covers row ((mergeSort_perm _ _).mem_iff.mpr isRow)
      rw [chosen, if_pos distinct]
      exact ⟨picked, (perm _).mem_iff.mpr isPicked, same⟩
  · rw [chosen, if_neg distinct]

theorem chosen_plain (plain : spec.orders = [] ∧ spec.distinct = false) :
    spec.chosen source = source.filter spec.passes := by
  rw [chosen, if_neg (by simp [plain.2]), mergeSort_of_pairwise]
  exact pairwise_of_forall fun _ _ => by simp [sortKey, plain.1]

theorem scanPrepareSort_yields (ordered : spec.Ordered) (same : run.spec = spec)
    (typed : ∀ row ∈ run.source, row.WellTyped spec.types)
    (filters : ∀ row ∈ run.source, spec.Unfiltered row → bad)
    (keeps : ∀ row ∈ run.source, spec.passes row → Unvalued spec.kept row → bad) :
    Yields bad (scanPrepareSort run) fun records =>
      records = ((spec.chosen run.source).drop run.offsetLeft).map spec.record ∧
        ∀ row ∈ spec.chosen run.source, Captured spec run.source row := by
  rw [scanPrepareSort, same]
  refine (scanCollect_yields typed filters keeps run.position).bind fun records ⟨collected, each⟩ => ?_
  have taken : ∀ row ∈ run.source.filter spec.passes, Captured spec run.source row := fun row isRow =>
    each row (mem_filter.mp isRow).1 (mem_filter.mp isRow).2
  refine .pure ⟨?_, fun row isRow => taken row (chosen_subset isRow)⟩
  have keyed := keyed_keyOrders ordered
  rw [collected, chosen, map_drop]
  split_ifs with distinct
  · rw [scanDistinct_records ordered distinct taken, scanRows_records keyed key_keyOrders
      fun row isRow => taken row (compacted_subset isRow)]
  · rw [scanRows_records keyed key_keyOrders taken]

/-- The first call sorts, and answers as a call on the sorted records. -/
theorem scanAdvance_answers (ordered : spec.Ordered) (sorts : spec.orders ≠ [] ∨ spec.distinct)
    (typed : ∀ row ∈ source, row.WellTyped spec.types) (isBad : spec.Stuck source → bad) :
    Answers bad (Sorting spec source bad) (scanAdvance (scanOpen spec source))
      (spec.page (spec.chosen source)) := by
  rw [scanAdvance, scanOpen]
  dsimp only
  rw [if_pos sorts, page]
  cases left : spec.limit with
  | zero => exact .inr rfl
  | succ limit =>
    have all : spec.needed source = source := by rw [needed, if_neg (by simp [left]), if_pos sorts]
    have filters : ∀ row ∈ source, spec.Unfiltered row → bad := fun row isRow fails =>
      isBad (.filter (all.symm ▸ isRow) fails)
    have keeps : ∀ row ∈ source, spec.passes row → Unvalued spec.kept row → bad := by
      rintro row isRow passes ⟨value, isKept, fails⟩
      rw [kept, mem_append] at isKept
      rcases isKept with isKey | isOutput
      · exact isBad (.key (all.symm ▸ isRow) passes ⟨value, isKey, fails⟩)
      · split_ifs at isOutput with distinct
        · exact isBad (.distinct distinct (all.symm ▸ isRow) passes ⟨value, isOutput, fails⟩)
        · cases isOutput
    have prepared : Yields bad (scanPrepareSort (scanOpen spec source)) _ :=
      scanPrepareSort_yields ordered rfl typed filters keeps
    rcases prepared with ⟨records, isOk, sorted, taken⟩ | ⟨holds, failure, isError⟩
    · rw [scanOpen, left] at isOk
      rw [if_neg (Nat.succ_ne_zero _), isOk, sorted]
      have page : ∀ row ∈ ((spec.chosen source).drop spec.offset).take (limit + 1),
          Unvalued spec.projection row → bad := fun row isRow fails =>
        isBad (.output (chosen_declared spec source) (left.symm ▸ isRow) fails)
      exact scanSorted_answers (show ScanRun.spec _ = spec from rfl) rfl
        (fun row isRow => taken row (mem_of_mem_drop isRow)) page
    · rw [scanOpen, left] at isError
      rw [if_neg (Nat.succ_ne_zero _), isError]
      exact answers_fails holds rfl

end Sorted

def ScanState.Final : ScanState → Prop
  | .done | .cancelled | .error _ => True
  | .opened | .row => False

/-- The answer is a row, or the state repeats it. -/
def Settled (called : Except Failure (Option Row) × ScanRun) : Prop :=
  (∃ row, called.1 = .ok (some row)) ∨ scanNext called.2 = called

theorem scanStream_settled {position offsetLeft : Nat} :
    Settled (scanStream run source position offsetLeft) := by
  induction source generalizing position offsetLeft with
  | nil => exact .inr rfl
  | cons row source ih =>
    rw [scanStream]
    cases scanMatches run.spec row with
    | error cause => exact .inr rfl
    | ok isMatch =>
      dsimp only
      split_ifs with passed
      · exact ih
      · exact ih
      · cases scanProjectRow run.spec row with
        | error cause => exact .inr rfl
        | ok output => exact .inl ⟨output, rfl⟩

theorem scanSorted_settled {records : List Row} : Settled (scanSorted run records) := by
  cases records with
  | nil => exact .inr rfl
  | cons record records =>
    rw [scanSorted]
    split
    · exact .inr rfl
    · exact .inl ⟨_, rfl⟩

theorem scanAdvance_settled : Settled (scanAdvance run) := by
  rw [scanAdvance]
  split_ifs
  · exact .inr rfl
  · split
    · exact scanSorted_settled
    · split
      · exact .inr rfl
      · exact scanSorted_settled
  · exact scanStream_settled

theorem scanNext_of_final (final : run.state.Final) :
    (scanNext run).2 = run ∧ ∀ row, (scanNext run).1 ≠ .ok (some row) := by
  rw [scanNext]
  cases state : run.state with
  | opened | row =>
    rw [state] at final
    exact final.elim
  | done | cancelled | error => simp

theorem scanNext_settled (run : ScanRun) : Settled (scanNext run) := by
  by_cases final : run.state.Final
  · exact .inr (by rw [(scanNext_of_final final).1])
  · have active : run.state = .opened ∨ run.state = .row := by
      cases state : run.state <;> simp_all [ScanState.Final]
    rw [scanNext_active active]
    exact scanAdvance_settled

theorem scanCancel_final (run : ScanRun) : (scanCancel run).state.Final := by
  rw [scanCancel]
  cases state : run.state <;> simp [state, ScanState.Final]

theorem scan_delivers (ordered : spec.Ordered) (typed : ∀ row ∈ source, row.WellTyped spec.types)
    (isBad : spec.Stuck source → bad) :
    Delivers scanNext bad (scanOpen spec source) (spec.page (spec.chosen source)) := by
  by_cases sorts : spec.orders ≠ [] ∨ spec.distinct
  · have first : Answers bad (Sorting spec source bad) (scanAdvance (scanOpen spec source)) _ :=
      scanAdvance_answers ordered sorts typed isBad
    exact delivers_of_answers (Sorting.answers sorts) first
  · have declared := chosen_declared spec source
    have reads (left : spec.limit ≠ 0) : spec.needed source = spec.upTo (spec.offset + spec.limit) source := by
      rw [needed, if_neg left, if_neg sorts]
    rw [not_or, not_not, Bool.not_eq_true] at sorts
    rw [chosen_plain sorts] at declared ⊢
    refine delivers_of_answers (Streaming.answers sorts) (Streaming.answers sorts
      ⟨rfl, .inl rfl, fun left row isRow fails => isBad (.filter ?_ fails), fun row isRow fails =>
        isBad (.output declared isRow fails), rfl⟩)
    rw [reads left]
    exact isRow

theorem page_length : (spec.page (spec.chosen source)).length ≤ source.length := by
  have : (spec.chosen source).length ≤ source.length := chosen_length
  rw [page, length_map, length_take, length_drop]
  omega

/-- What repeated calls of a scan give, and that its end is final. -/
theorem scan_page (spec : ScanSpec) (ordered : spec.Ordered) (source : List Row)
    (typed : ∀ row ∈ source, row.WellTyped spec.types) {fuel : Nat} (enough : source.length < fuel) :
    Yields (spec.Stuck source) (drain scanNext fuel (scanOpen spec source))
        (fun out => ∃ rows, spec.Declared source rows ∧ out = spec.page rows) ∧
      (∀ run : ScanRun, (∃ row, (scanNext run).1 = .ok (some row)) ∨
        scanNext (scanNext run).2 = scanNext run) ∧
      (∀ run : ScanRun, (scanCancel run).state.Final) ∧
      ∀ run : ScanRun, run.state.Final →
        (scanNext run).2 = run ∧ ∀ row, (scanNext run).1 ≠ .ok (some row) := by
  refine ⟨?_, scanNext_settled, scanCancel_final, fun run => scanNext_of_final⟩
  have delivers : Delivers scanNext (spec.Stuck source) _ _ := scan_delivers ordered typed id
  exact (delivers.drain (page_length.trans_lt enough)).imp fun out same =>
    ⟨_, chosen_declared spec source, same⟩

/-- Rows above 1, where no more than the first four are read: the filter fails on the last one. -/
theorem scan_page_filtered :
    let number : SqlType := ⟨.int64, true⟩
    let filter (row : Row) : Except Failure Value :=
      match row.at 0 with
      | .int64 value => if value = 9 then .error ⟨.invalidArgument, "nine"⟩
        else .ok (.boolean (if 1 < value then 1 else 0))
      | _ => .ok .null
    let spec : ScanSpec := ⟨[number], some filter, [.column 0 number], [], false, 1, 1⟩
    let source : List Row := [[.int64 2], [.int64 1], [.null], [.int64 3], [.int64 9]]
    spec.Unfiltered [.int64 9] ∧ ∃ rows, spec.Declared source rows ∧ spec.page rows = [[.int64 3]] := by
  intro number filter spec source
  have ran : drain scanNext 6 (scanOpen spec source) = .ok [[.int64 3]] := rfl
  refine ⟨⟨filter, _, rfl, rfl⟩, ?_⟩
  obtain ⟨out, drained, rows, declared, page⟩ | ⟨-, e, failed⟩ := (scan_page spec
    ⟨by simp [spec], by simp [spec]⟩ source (by simp [spec, source, number, Row.WellTyped, validValue])
    (show source.length < 6 by decide)).1
  · rw [ran] at drained
    cases drained
    exact ⟨rows, declared, page.symm⟩
  · rw [ran] at failed
    cases failed

theorem unvalued_error {values : List ScanValue} {row : Row} (unvalued : Unvalued values row) :
    ∃ e, values.mapM (·.eval row) = .error e := by
  obtain ⟨value, isValue, e, fails⟩ := unvalued
  cases run : values.mapM (·.eval row) with
  | error e => exact ⟨e, rfl⟩
  | ok outputs =>
    obtain ⟨_, evaluated⟩ := mapM_ok_of_mem run isValue
    cases fails.symm.trans evaluated

theorem upTo_sublist (n : Nat) (rows : List Row) : (spec.upTo n rows).Sublist rows := by
  induction rows generalizing n with
  | nil => cases n <;> exact .slnil
  | cons row rows ih =>
    cases n with
    | zero => exact nil_sublist _
    | succ n => exact (ih _).cons_cons row

theorem needed_subset : spec.needed source ⊆ source := by
  rw [needed]
  split_ifs
  · exact nil_subset source
  · exact Subset.refl source
  · exact (upTo_sublist _ _).subset

theorem stuck_fails (stuck : spec.Stuck source) : ∃ row ∈ source, spec.Fails row := by
  have captured {row : Row} (unvalued : Unvalued spec.kept row) : spec.Fails row := by
    obtain ⟨e, run⟩ := unvalued_error unvalued
    exact .inr (.inl ⟨e, by rw [scanCapture, run]; rfl⟩)
  cases stuck with
  | @filter row isRow fails =>
    obtain ⟨filter, e, given, fails⟩ := fails
    exact ⟨row, needed_subset isRow, .inl ⟨e, by simp only [scanMatches, given, fails]; rfl⟩⟩
  | @key row isRow _ fails =>
    obtain ⟨value, isKey, fails⟩ := fails
    exact ⟨row, needed_subset isRow, captured ⟨value, mem_append_left _ isKey, fails⟩⟩
  | @distinct row distinct isRow _ fails =>
    obtain ⟨value, isOutput, fails⟩ := fails
    exact ⟨row, needed_subset isRow,
      captured ⟨value, mem_append_right _ (by rwa [if_pos distinct]), fails⟩⟩
  | @output row rows declared isRow fails =>
    have picked : rows ⊆ source.filter spec.passes := by
      rw [ScanSpec.Declared] at declared
      split_ifs at declared
      · exact declared.1
      · exact declared ▸ (mergeSort_perm _ _).subset
    exact ⟨row, (mem_filter.mp (picked (mem_of_mem_drop (mem_of_mem_take isRow)))).1,
      .inr (.inr (unvalued_error fails))⟩

theorem drain_scan (spec : ScanSpec) (ordered : spec.Ordered)
    (typed : ∀ row ∈ source, row.WellTyped spec.types) (total : ∀ row ∈ source, ¬spec.Fails row)
    {fuel : Nat} (enough : source.length < fuel) :
    drain scanNext fuel (scanOpen spec source) = .ok (spec.page (spec.chosen source)) := by
  have delivers : Delivers scanNext False _ _ := scan_delivers ordered typed fun stuck =>
    let ⟨row, isRow, fails⟩ := stuck_fails stuck
    total row isRow fails
  obtain ⟨out, drained, rfl⟩ | ⟨⟨⟩, -⟩ := delivers.drain (page_length.trans_lt enough)
  exact drained

/-- Pages of one size, read one after the other, are the rows of one page of their total size. -/
theorem scan_pages (spec : ScanSpec) (ordered : spec.Ordered) (source : List Row)
    (typed : ∀ row ∈ source, row.WellTyped spec.types) (total : ∀ row ∈ source, ¬spec.Fails row)
    {fuel : Nat} (enough : source.length < fuel) (size count : Nat) :
    let scan (offset limit : Nat) := drain scanNext fuel (scanOpen { spec with offset, limit } source)
    flatten <$> (range count).mapM (fun i => scan (i * size) size) = scan 0 (count * size) := by
  intro scan
  have drained (offset limit : Nat) :
      scan offset limit = .ok ((((spec.chosen source).drop offset).take limit).map spec.output) :=
    drain_scan { spec with offset, limit } ordered typed total enough
  have pages : (range count).mapM (fun i => scan (i * size) size) =
      .ok ((range count).map fun i =>
        (((spec.chosen source).drop (i * size)).take size).map spec.output) := by
    rw [mapM_eq_ok]
    exact forall₂_map_right_iff.mpr (forall₂_same.mpr fun i _ => drained _ _)
  rw [pages, drained, drop_zero]
  refine congrArg Except.ok ?_
  clear pages
  induction count with
  | zero => simp
  | succ count ih =>
    rw [range_succ, map_append, flatten_append, ih, Nat.succ_mul, take_add, map_append]
    simp

theorem scan_pages_descending :
    let number : SqlType := ⟨.int64, true⟩
    let spec : ScanSpec := ⟨[number], none, [.column 0 number], [(.column 0 number, true)], true, 0, 5⟩
    let source : List Row := [[.int64 1], [.null], [.int64 2], [.int64 1]]
    let scan (offset limit : Nat) := drain scanNext 9 (scanOpen { spec with offset, limit } source)
    flatten <$> (range 3).mapM (fun i => scan (i * 2) 2) = scan 0 6 := by
  intro number spec source
  refine scan_pages spec ⟨?_, ?_⟩ source ?_ ?_ (by decide) 2 3
  · simp [spec, number, ScanValue.column, keyType]
  · simp [spec, number, ScanValue.column, keyType]
  · simp [spec, source, number, Row.WellTyped, validValue]
  · simp only [source, forall_mem_cons]
    refine ⟨?_, ?_, ?_, ?_, by simp⟩ <;> rintro (⟨e, ⟨⟩⟩ | ⟨e, ⟨⟩⟩ | ⟨e, ⟨⟩⟩)

end TurboDb.Query
