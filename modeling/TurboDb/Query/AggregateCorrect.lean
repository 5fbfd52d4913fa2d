import TurboDb.Query.Aggregate
import TurboDb.Query.WindowCorrect

/-!
What a grouping says of its input.

Rows are in one group when their keys are at the same places, NULL with NULL. Each
group has one row of output, with the keys of one of its rows and the value of
every item over all of them. An item that drops duplicates counts the different
tuples without NULL. Without keys there is one group, also of no rows at all.

Only what cannot be counted is refused: more rows than a signed integer has room
for, or more comparisons of tuples than a word.
-/

namespace TurboDb.Query

open Effect AggregateRun AggregateItem AggregateKind List

def AggregateItem.orders (item : AggregateItem) : List ScanOrder := item.slots.map (⟨·, false⟩)

def AggregateItem.complete (item : AggregateItem) (row : Row) : Bool :=
  item.slots.all (row.at · ≠ .null)

def AggregateItem.tuples (item : AggregateItem) (rows : List Row) : Finset (List Line) :=
  ((rows.filter item.complete).map (key item.orders)).toFinset

def IsItem (rows : List Row) (item : AggregateItem) (value : Value) : Prop :=
  if item.dedups then value = .int64 (.ofNat (item.tuples rows).card)
  else IsAggregate item.kind (rows.map (·.at item.slot)) value

def IsGroup (spec : AggregateSpec) (keys : List Value) (rows : List Row) (output : Row) : Prop :=
  ∃ values, output = keys ++ values ∧ List.Forall₂ (IsItem rows) spec.items values

def groupRows (spec : AggregateSpec) (rows : List Row) (head : Row) : List Row :=
  rows.filter fun row => key (groupOrders spec) row = key (groupOrders spec) head

/-- The output has one row for each group, of which `heads` has one row each. -/
structure Grouped (spec : AggregateSpec) (rows output heads : List Row) : Prop where
  apart : heads.Pairwise fun a b => key (groupOrders spec) a < key (groupOrders spec) b
  covers : ∀ row ∈ rows, ∃ head ∈ heads, key (groupOrders spec) head = key (groupOrders spec) row
  groups : List.Forall₂ (fun head row => head ∈ rows ∧
    IsGroup spec (spec.keys.map (head.at ·)) (groupRows spec rows head) row) heads output

def Countable (spec : AggregateSpec) (rows : Nat) : Prop :=
  rows < 2 ^ 63 ∧ ∀ item ∈ spec.items, item.dedups = true →
    item.arguments < 2 ^ 63 ∧ rows * (2 * item.arguments + 1) < 2 ^ 64

def ExactItems (types : List SqlType) (spec : AggregateSpec) : Prop :=
  ∀ item ∈ spec.items, item.kind.exact = true ∧
    (item.kind.bit = true → ∀ type, types[item.slot]? = some type → type.kind ≠ .double)

variable {real : RealArithmetic} {types : List SqlType} {spec : AggregateSpec} {item : AggregateItem}
  {items : List AggregateItem} {rows : List Row} {row : Row} {state : Reduction}
  {states : List Reduction} {run : AggregateRun} {head : Row} {bad : Prop}

structure ItemChecked (types : List SqlType) (item : AggregateItem) : Prop where
  exact' : item.kind.exact = true
  input : item.kind ≠ .countAll → ∃ type, types[item.slot]? = some type ∧
    (item.kind.counts = false → keyType type = true) ∧
    (item.kind.bit = true → type.kind ≠ .double)
  distinct : item.dedups = true → item.kind = .countValue ∧
    ∀ slot ∈ item.slots, ∃ type, types[slot]? = some type ∧ keyType type = true

structure SpecChecked (types : List SqlType) (spec : AggregateSpec) : Prop where
  keyed : Keyed types (groupOrders spec)
  items : ∀ item ∈ spec.items, ItemChecked types item

theorem aggregateValidateItem_checked (valid : aggregateValidateItem types item = .ok ())
    (exact' : item.kind.exact)
    (bits : item.kind.bit → ∀ type, types[item.slot]? = some type → type.kind ≠ .double) :
    ItemChecked types item := by
  simp only [aggregateValidateItem, bind_eq_ok, reject_eq_ok, exists_unit, forM_eq_ok] at valid
  obtain ⟨-, mayDedup, inside, arguments, output, typed, -⟩ := valid
  refine ⟨exact', fun other => ?_, fun dedups => ?_⟩
  · obtain ⟨type, isType, numeric⟩ := aggregateType_ok typed other
    exact ⟨type, isType, numeric exact', fun bit => bits bit type isType⟩
  · simp only [AggregateItem.dedups, Bool.and_eq_true, decide_eq_true_eq] at dedups
    obtain ⟨⟨distinct, notMin⟩, notMax⟩ := dedups
    have isCount : item.kind = .countValue := by
      cases isKind : item.kind <;> simp_all [AggregateKind.mayDedup, AggregateKind.exact]
    refine ⟨isCount, fun slot isSlot => ?_⟩
    rw [if_pos distinct] at arguments
    have argument := arguments slot isSlot
    simp only [aggregateValidateArgument, bind_eq_ok, reject_eq_ok, exists_unit,
      Bool.not_eq_false] at argument
    have inside' : slot < types.length := by
      have bounds := mem_range'_1.mp isSlot
      have within := not_and.mp inside (by simp [isCount])
      omega
    have isType : types[slot]? = some types[slot] := getElem?_eq_getElem inside'
    refine ⟨types[slot], isType, ?_⟩
    rw [getD_eq_getElem?_getD, isType] at argument
    exact argument.1

theorem aggregateOpen_checked {input : List Row} {run : AggregateRun}
    (isOpen : aggregateOpen types spec input = .ok run) (exact' : ExactItems types spec) :
    SpecChecked types spec := by
  simp only [aggregateOpen, aggregateValidate, bind_eq_ok, pure_eq_ok, exists_unit, forM_eq_ok] at isOpen
  obtain ⟨⟨-, keys, items⟩, -⟩ := isOpen
  refine ⟨fun order isKey => ?_, fun item isItem => ?_⟩
  · obtain ⟨slot, isSlot, rfl⟩ := mem_map.mp isKey
    have key := keys slot isSlot
    simp only [aggregateValidateKey, bind_eq_ok, given_eq_ok, reject_eq_ok, Bool.not_eq_false] at key
    exact key
  · obtain ⟨exactKind, bits⟩ := exact' item isItem
    exact aggregateValidateItem_checked (items item isItem) exactKind bits

def ItemFolded (rows : List Row) (item : AggregateItem) (state : Reduction) : Prop :=
  if item.dedups then state = reductionBegin item.kind
  else Reduces item.kind (rows.map (·.at item.slot)) state

theorem foldItem_yields (checked : ItemChecked types item)
    (typed : ∀ r ∈ rows ++ [row], r.WellTyped types) (full : 2 ^ 63 ≤ rows.length + 1 → bad)
    (folded : ItemFolded rows item state) :
    Yields bad (foldItem real row item state) (ItemFolded (rows ++ [row]) item) := by
  unfold foldItem
  by_cases dedups : item.dedups
  · rw [if_pos dedups]
    refine .pure ?_
    rw [ItemFolded, if_pos dedups] at folded ⊢
    exact folded
  · rw [ItemFolded, if_neg dedups] at folded
    rw [if_neg dedups]
    have taken : Takes real item.kind (rows.map (·.at item.slot)) state (row.at item.slot) := by
      by_cases all : item.kind = .countAll
      · rw [all] at folded ⊢
        exact takes_all folded
      · obtain ⟨type, isType, numeric, bits⟩ := checked.input all
        have valid : ∀ value ∈ (rows ++ [row]).map (·.at item.slot), validValue value type := by
          intro value isValue
          obtain ⟨r, isRow, rfl⟩ := mem_map.mp isValue
          exact (typed r isRow).valid isType
        have reducible : Reducible item.kind type ((rows ++ [row]).map (·.at item.slot)) :=
          ⟨checked.exact', valid, numeric, bits⟩
        rw [map_append] at reducible
        exact takes reducible folded
    obtain ⟨state', added, reduces⟩ | ⟨-, most, failed⟩ := taken
    · refine .inl ⟨state', added, ?_⟩
      rw [ItemFolded, if_neg dedups, map_append]
      exact reduces
    · refine .inr ⟨full ?_, _, failed⟩
      have bound := item.kind.counted_le (rows.map (·.at item.slot) ++ [row.at item.slot])
      rw [length_append, length_map, length_singleton] at bound
      omega

theorem foldItems_yields (checked : ∀ item ∈ items, ItemChecked types item)
    (typed : ∀ r ∈ rows ++ [row], r.WellTyped types) (full : 2 ^ 63 ≤ rows.length + 1 → bad)
    (folded : List.Forall₂ (ItemFolded rows) items states) :
    Yields bad (foldItems real row items states) (List.Forall₂ (ItemFolded (rows ++ [row])) items) := by
  induction folded with
  | nil => exact .pure .nil
  | cons first rest ih =>
    have others := ih fun item isItem => checked item (mem_cons_of_mem _ isItem)
    exact (foldItem_yields (checked _ mem_cons_self) typed full first).bind fun state isState =>
      others.bind fun states areStates => .pure (.cons isState areStates)

def packed (items : List AggregateItem) (row : Row) : Row := (distinctSlots items).map (row.at ·)

structure GroupFolded (spec : AggregateSpec) (rows : List Row) (group : Group) : Prop where
  states : List.Forall₂ (ItemFolded rows) spec.items group.states
  distinct : distinctSlots spec.items ≠ [] → group.distinctRows = rows.map (packed spec.items)

theorem aggregateFold_yields {group : Group} (checked : SpecChecked types spec)
    (typed : ∀ r ∈ rows ++ [row], r.WellTyped types) (full : 2 ^ 63 ≤ rows.length + 1 → bad)
    (folded : GroupFolded spec rows group) :
    Yields bad (aggregateFold real spec group row) fun group' =>
      group'.keys = group.keys ∧ GroupFolded spec (rows ++ [row]) group' := by
  refine (foldItems_yields checked.items typed full folded.states).bind fun states areStates =>
    .pure ⟨rfl, areStates, fun some => ?_⟩
  have some' : (distinctSlots spec.items).isEmpty = false := by simpa using some
  rw [some', if_neg Bool.false_ne_true, folded.distinct some, map_append]
  rfl

theorem itemFolded_begin (exact' : item.kind.exact) :
    ItemFolded [] item (reductionBegin item.kind) := by
  unfold ItemFolded
  split_ifs
  · rfl
  · exact reductionBegin_reduces exact'

theorem aggregateBegin_folded (checked : SpecChecked types spec) (pending : Option Row) :
    GroupFolded spec [] (aggregateBegin spec pending) := by
  refine ⟨?_, fun _ => rfl⟩
  rw [aggregateBegin, forall₂_map_right_iff, forall₂_same]
  exact fun item isItem => itemFolded_begin (checked.items item isItem).exact'

section Group

variable {group : Group}

def AggregateRun.rest (run : AggregateRun) : List Row := run.pending.toList ++ run.scan

/-- The row ahead was read, if there is one. -/
structure Ahead (run : AggregateRun) : Prop where
  ahead : run.pending = none → run.scan = []
  eof : run.eof = true → run.scan = []

theorem aggregateRead_ahead (eof : run.eof → run.scan = []) :
    Ahead (aggregateRead run) ∧ (aggregateRead run).rest = run.rest ∧
      (aggregateRead run).spec = run.spec ∧ (aggregateRead run).state = run.state ∧
      (aggregateRead run).groups = run.groups := by
  unfold aggregateRead
  split_ifs with ready
  · refine ⟨⟨fun none => ?_, eof⟩, rfl, rfl, rfl, rfl⟩
    rw [none] at ready
    exact eof (by simpa using ready)
  · simp only [not_or, Bool.not_eq_true, Option.isSome_eq_false_iff, Option.isNone_iff_eq_none] at ready
    obtain ⟨none, going⟩ := ready
    cases isScan : run.scan with
    | nil =>
      refine ⟨⟨fun _ => rfl, fun _ => rfl⟩, ?_, rfl, rfl, rfl⟩
      rw [rest, rest, isScan]
    | cons row scan =>
      refine ⟨⟨nofun, fun ended => ?_⟩, ?_, rfl, rfl, rfl⟩
      · exact absurd (going.symm.trans ended) Bool.false_ne_true
      · rw [rest, rest, none, isScan]
        rfl

theorem aggregateSameGroup_iff (checked : SpecChecked types spec) (typedHead : head.WellTyped types)
    {row : Row} (typedRow : row.WellTyped types) (isKeys : group.keys = spec.keys.map (head.at ·)) :
    aggregateSameGroup spec group row ↔
      key (groupOrders spec) row = key (groupOrders spec) head := by
  have paired (slots : List Nat) :
      (slots.map (head.at ·)).zip slots = slots.map fun slot => (head.at slot, slot) := by
    induction slots with
    | nil => rfl
    | cons slot slots ih => rw [map_cons, zip_cons_cons, ih, map_cons]
  have same := sameKeys_iff checked.keyed typedHead typedRow
  rw [← eq_comm (a := key (groupOrders spec) head), ← same, sameKeys, aggregateSameGroup, isKeys,
    paired, groupOrders, all_map, all_map]
  rfl

/-- A group has taken the rows `taken` of those that were left, and stopped before another group. -/
structure Taken (spec : AggregateSpec) (head : Row) (rows left taken : List Row) (group : Group)
    (run : AggregateRun) : Prop where
  rest : left = taken ++ run.rest
  nonempty : taken ≠ []
  same : ∀ r ∈ taken, key (groupOrders spec) r = key (groupOrders spec) head
  stops : ∀ next, run.pending = some next → key (groupOrders spec) next ≠ key (groupOrders spec) head
  keys : group.keys = spec.keys.map (head.at ·)
  folded : GroupFolded spec (rows ++ taken) group
  ahead : Ahead run
  spec : run.spec = spec
  counted : run.groups ≠ 0

/-- The operator folds the row ahead and all those behind it that have the keys of the group. -/
theorem aggregateGroup_yields {fuel : Nat} {row : Row} (checked : SpecChecked types spec)
    (isSpec : run.spec = spec) (counted : run.groups ≠ 0)
    (typed : ∀ r ∈ rows ++ run.rest, r.WellTyped types)
    (typedHead : head.WellTyped types) (full : 2 ^ 63 ≤ (rows ++ run.rest).length → bad)
    (isRow : run.pending = some row) (eof : run.eof → run.scan = [])
    (enough : run.scan.length < fuel) (isKeys : group.keys = spec.keys.map (head.at ·))
    (folded : GroupFolded spec rows group)
    (same : key (groupOrders spec) row = key (groupOrders spec) head) :
    Yields bad (aggregateGroup real fuel run group) fun result =>
      ∃ taken, Taken spec head rows run.rest taken result.1 result.2 := by
  induction fuel generalizing run rows row group with
  | zero => omega
  | succ fuel ih =>
    have isRest : run.rest = row :: run.scan := by rw [rest, isRow]; rfl
    rw [isRest, append_cons] at typed full
    have typed' := (forall_mem_append.mp typed).1
    have full' : 2 ^ 63 ≤ rows.length + 1 → bad := fun most =>
      full (by rw [length_append, length_append, length_singleton]; omega)
    have fold : Yields bad (aggregateFold real run.spec group row) fun group' =>
        group'.keys = group.keys ∧ GroupFolded spec (rows ++ [row]) group' := by
      rw [isSpec]
      exact aggregateFold_yields checked typed' full' folded
    rw [aggregateGroup, isRow]
    refine fold.bind fun group' ⟨keys', folded'⟩ => ?_
    obtain ⟨ahead, isScan, isSpec', -, isGroups⟩ :=
      @aggregateRead_ahead { run with pending := none } eof
    generalize aggregateRead { run with pending := none } = next at *
    have isScan : next.rest = run.scan := isScan
    have isSpec' : next.spec = spec := isSpec'.trans isSpec
    have counted' : next.groups ≠ 0 := isGroups.trans_ne counted
    have isKeys' : group'.keys = spec.keys.map (head.at ·) := keys'.trans isKeys
    have stopped (stops : ∀ row', next.pending = some row' →
        key (groupOrders spec) row' ≠ key (groupOrders spec) head) :
        Taken spec head rows run.rest [row] group' next :=
      ⟨by rw [isRest, ← isScan]; rfl, cons_ne_nil _ _,
        fun r isR => by rw [mem_singleton.mp isR, same], stops, isKeys', folded', ahead, isSpec',
        counted'⟩
    cases isPending : next.pending with
    | none =>
      simp only [isPending]
      exact .pure ⟨[row], stopped (by simp [isPending])⟩
    | some row' =>
      have shorter : run.scan = row' :: next.scan := by
        rw [← isScan, rest, isPending]
        rfl
      have sameGroup := aggregateSameGroup_iff checked typedHead
        (typed row' (by rw [shorter]; simp)) isKeys'
      simp only [isPending, isSpec']
      by_cases again : aggregateSameGroup spec group' row'
      · rw [if_pos again]
        rw [← isScan] at typed full
        rw [shorter, length_cons] at enough
        refine (ih isSpec' counted' typed full isPending ahead.eof (by omega) isKeys' folded'
          (sameGroup.mp again)).imp fun result ⟨taken, isTaken⟩ => ⟨row :: taken, ?_⟩
        refine ⟨by rw [isRest, ← isScan, isTaken.rest]; rfl, cons_ne_nil _ _, ?_,
          isTaken.stops, isTaken.keys, ?_, isTaken.ahead, isTaken.spec, isTaken.counted⟩
        · exact forall_mem_cons.mpr ⟨same, isTaken.same⟩
        · rw [append_cons]
          exact isTaken.folded
      · rw [if_neg again]
        refine .pure ⟨[row], stopped fun other isOther equal => ?_⟩
        obtain rfl := Option.some.inj (isPending.symm.trans isOther)
        exact again (sameGroup.mpr equal)

end Group

section Distinct

variable {first count : Nat}

def ascending (first count : Nat) : List ScanOrder := (range' first count).map (⟨·, false⟩)

theorem aggregateDistinctCompare_eq (a b : Row) (first count : Nat) :
    aggregateDistinctCompare a b first count = scanCompareRows (ascending first count) a b := by
  induction count generalizing first with
  | zero => rfl
  | succ count ih =>
    rw [aggregateDistinctCompare, ascending, range'_succ, map_cons, scanCompareRows, ih]
    cases valueOrder (a.at first) (b.at first) <;> rfl

def complete (first count : Nat) (row : Row) : Bool :=
  (range' first count).all (row.at · ≠ .null)

def tuples (first count : Nat) (rows : List Row) : Finset (List Line) :=
  ((rows.filter (complete first count)).map (key (ascending first count))).toFinset

/-- The rows that a walk adds: none has the tuple of the one before. -/
def walked (first count : Nat) (previous : Option Row) (rows : List Row) : List Row :=
  let other (a b : Row) := aggregateDistinctCompare a b first count ≠ .eq
  match previous with
  | none => (rows.filter (complete first count)).destutter other
  | some last => ((rows.filter (complete first count)).destutter' other last).tail

theorem destutter'_head {α : Type} (R : α → α → Prop) [DecidableRel R] (a : α) (l : List α) :
    l.destutter' R a = a :: (l.destutter' R a).tail := by
  induction l with
  | nil => rfl
  | cons b l ih =>
    rw [destutter'_cons]
    split_ifs
    · rfl
    · exact ih

theorem distinctWalk_eq (kind : AggregateKind) (previous : Option Row) :
    distinctWalk real kind first count rows previous state =
      (walked first count previous rows).foldlM
        (fun state row => reductionAdd real kind state (some (row.at first))) state := by
  induction rows generalizing previous state with
  | nil => cases previous <;> rfl
  | cons row rows ih =>
    have null_iff : (range' first count).any (row.at · = .null) = true ↔
        complete first count row = false := by simp [complete]
    simp only [distinctWalk, null_iff]
    by_cases null : complete first count row = false
    · have same : walked first count previous (row :: rows) = walked first count previous rows := by
        simp only [walked, filter_cons_of_neg (Bool.not_eq_true _ ▸ null)]
      rw [if_pos (.inl null), same]
      exact ih previous
    · have kept : (row :: rows).filter (complete first count) =
          row :: rows.filter (complete first count) :=
        filter_cons_of_pos (Bool.eq_true_of_not_eq_false null)
      cases previous with
      | none =>
        have adds : walked first count none (row :: rows) =
            row :: walked first count (some row) rows := by
          rw [walked, kept, destutter_cons', destutter'_head]
          rfl
        rw [if_neg (by simpa using null), adds, foldlM_cons]
        exact bind_congr fun _ => ih _
      | some last =>
        simp only [Option.any_some, decide_eq_true_eq]
        by_cases again : aggregateDistinctCompare last row first count = .eq
        · have passes : walked first count (some last) (row :: rows) =
              walked first count (some last) rows := by
            rw [walked, kept, destutter'_cons_neg _ (not_not.mpr again)]
            rfl
          rw [if_pos (.inr again), passes]
          exact ih _
        · have adds : walked first count (some last) (row :: rows) =
              row :: walked first count (some row) rows := by
            rw [walked, kept, destutter'_cons_pos _ again, tail_cons, destutter'_head]
            rfl
          rw [if_neg (not_or.mpr ⟨null, again⟩), adds, foldlM_cons]
          exact bind_congr fun _ => ih _

theorem countRows_yields {n : Nat} (some : ∀ row ∈ rows, row.at first ≠ .null)
    (isCount : state.value = .int64 (.ofNat n)) (bound : n < 2 ^ 63)
    (full : 2 ^ 63 ≤ n + rows.length → bad) :
    Yields bad (rows.foldlM (fun state row =>
        reductionAdd real .countValue state (Option.some (row.at first))) state)
      fun state' => state'.value = .int64 (.ofNat (n + rows.length)) := by
  induction rows generalizing state n with
  | nil => exact .pure isCount
  | cons row rows ih =>
    have adds : reductionAdd real .countValue state (Option.some (row.at first)) = countAdd state := by
      simp [reductionAdd, some row mem_cons_self, moment, bit]
    rw [length_cons] at full ⊢
    rw [foldlM_cons, adds, countAdd_eq isCount bound, ← Nat.add_assoc, Nat.add_right_comm]
    split_ifs with less
    · exact ih (fun r isRow => some r (mem_cons_of_mem _ isRow)) rfl less fun most =>
        full (by omega)
    · exact .inr ⟨full (by omega), _, rfl⟩

theorem card_tuples (keyed : Keyed types (ascending first count))
    (typed : ∀ row ∈ rows, row.WellTyped types)
    (sorted : rows.Pairwise fun a b =>
      key (ascending first count) a ≤ key (ascending first count) b) :
    (tuples first count rows).card = (walked first count none rows).length := by
  have typed' : ∀ row ∈ rows.filter (complete first count), row.WellTyped types := fun row isRow =>
    typed row (mem_filter.mp isRow).1
  obtain ⟨pairwise, covers⟩ := Runs.destutter_spec (sorted.filter (complete first count))
    (R := fun a b => aggregateDistinctCompare a b first count ≠ .eq) fun a isA b isB => by
      rw [Ne, aggregateDistinctCompare_eq,
        (scanCompareRows_compares keyed (typed' a isA) (typed' b isB)).eq_eq]
  have nodup : ((walked first count none rows).map (key (ascending first count))).Nodup :=
    pairwise_map.mpr (pairwise.imp ne_of_lt)
  rw [← length_map (key (ascending first count)), ← toFinset_card_of_nodup nodup]
  congr 1
  ext tuple
  simp only [tuples, mem_toFinset, mem_map]
  constructor
  · rintro ⟨row, isRow, rfl⟩
    exact covers row isRow
  · rintro ⟨row, isRow, rfl⟩
    exact ⟨row, (destutter_sublist _ _).subset isRow, rfl⟩

theorem distinctOrder_eq (positive : 0 < count) (rows : List Row) :
    rows.mergeSort (fun a b => aggregateDistinctCompare a b first count ≠ .gt) =
      scanRows (ascending first count) rows := by
  have some : (ascending first count).isEmpty = false := by
    simp [ascending, Nat.pos_iff_ne_zero.mp positive]
  simp only [aggregateDistinctCompare_eq, scanRows, some, Bool.false_eq_true, ↓reduceIte]

theorem tuples_perm {others : List Row} (perm : rows.Perm others) :
    tuples first count rows = tuples first count others :=
  toFinset_eq_of_perm _ _ ((perm.filter _).map _)

theorem distinctItem_yields (keyed : Keyed types (ascending first count))
    (typed : ∀ row ∈ rows, row.WellTyped types) (positive : 0 < count)
    (isBegin : state = reductionBegin .countValue) (full : 2 ^ 63 ≤ rows.length → bad)
    (wide : 2 ^ 63 ≤ count → bad) (long : 2 ^ 64 ≤ rows.length * (2 * count + 1) → bad) :
    Yields bad (distinctItem real .countValue first count rows state) fun state' =>
      state'.value = .int64 (.ofNat (tuples first count rows).card) := by
  have perm := scanRows_perm (ascending first count) rows
  have refused : (count > (2 ^ 64 - 1 - 1) / 2 ∨ rows.length > (2 ^ 64 - 1) / (2 * count + 1)) →
      bad := by
    rintro (many | many)
    · exact wide (by omega)
    · rw [gt_iff_lt, Nat.div_lt_iff_lt_mul (by omega)] at many
      exact long (by omega)
  refine (yields_reject refused).bind fun _ _ => ?_
  rw [distinctOrder_eq positive]
  rw [distinctWalk_eq, ← tuples_perm perm,
    card_tuples keyed (fun row isRow => typed row (perm.mem_iff.mp isRow)) (scanRows_sorted keyed typed),
    ← Nat.zero_add (walked ..).length]
  have within : (walked first count none (scanRows (ascending first count) rows)).Sublist
      ((scanRows (ascending first count) rows).filter (complete first count)) :=
    destutter_sublist _ _
  refine countRows_yields (fun row isRow => ?_) (by rw [isBegin]; rfl) (by decide) fun most => full ?_
  · have all := (mem_filter.mp (within.subset isRow)).2
    have each := all_eq_true.mp all first (mem_range'_1.mpr (by omega))
    simpa using each
  · have fewer := (within.trans filter_sublist).length_le
    rw [perm.length_eq] at fewer
    omega

end Distinct

section Finish

variable {before : List AggregateItem}

theorem distinctSlots_append (first second : List AggregateItem) :
    distinctSlots (first ++ second) = distinctSlots first ++ distinctSlots second :=
  flatMap_append

theorem distinctSlots_cons (dedups : item.dedups) (items : List AggregateItem) :
    distinctSlots (item :: items) = item.slots ++ distinctSlots items := by
  rw [distinctSlots, flatMap_cons, if_pos dedups]
  rfl

theorem distinctSlots_skip (keeps : item.dedups = false) (items : List AggregateItem) :
    distinctSlots (item :: items) = distinctSlots items := by
  rw [distinctSlots, flatMap_cons, keeps]
  rfl

section Dedups

variable (dedups : item.dedups)
include dedups

theorem distinctSlots_at {i : Nat} (inside : i < item.arguments) :
    (distinctSlots (before ++ item :: items))[(distinctSlots before).length + i]? =
      some (item.slot + i) := by
  rw [distinctSlots_append, distinctSlots_cons dedups, getElem?_append_right (by omega),
    Nat.add_sub_cancel_left, getElem?_append_left (by simpa [slots] using inside),
    slots, getElem?_range' inside, Nat.one_mul]

theorem packed_at {i : Nat} (inside : i < item.arguments) (row : Row) :
    (packed (before ++ item :: items) row).at ((distinctSlots before).length + i) =
      row.at (item.slot + i) := by
  rw [Row.at, getD_eq_getElem?_getD, packed, getElem?_map, distinctSlots_at dedups inside]
  rfl

theorem key_packed (row : Row) :
    key (ascending (distinctSlots before).length item.arguments) (packed (before ++ item :: items) row) =
      key item.orders row := by
  rw [key, key, ascending, orders, slots, range'_eq_map_range,
    range'_eq_map_range, map_map, map_map, map_map, map_map]
  refine map_congr_left fun i isIndex => ?_
  simp only [Function.comp_apply, packed_at dedups (mem_range.mp isIndex)]

theorem complete_packed (row : Row) :
    complete (distinctSlots before).length item.arguments (packed (before ++ item :: items) row) =
      item.complete row := by
  rw [complete, AggregateItem.complete, AggregateItem.slots, range'_eq_map_range,
    range'_eq_map_range, all_map, all_map, Bool.eq_iff_iff, all_eq_true,
    all_eq_true]
  refine forall₂_congr fun i isIndex => ?_
  simp only [Function.comp_apply, packed_at dedups (mem_range.mp isIndex)]

theorem tuples_packed (rows : List Row) :
    tuples (distinctSlots before).length item.arguments
      (rows.map (packed (before ++ item :: items))) = item.tuples rows := by
  have same : complete (distinctSlots before).length item.arguments ∘
      packed (before ++ item :: items) = item.complete := funext (complete_packed dedups)
  rw [tuples, AggregateItem.tuples, filter_map, same, map_map]
  congr 1
  exact map_congr_left fun row _ => key_packed dedups row

end Dedups

def packedTypes (types : List SqlType) (items : List AggregateItem) : List SqlType :=
  (distinctSlots items).map (types.getD · ⟨.null, true⟩)

theorem mem_distinctSlots {slot : Nat} (isSlot : slot ∈ distinctSlots items) :
    ∃ item ∈ items, item.dedups ∧ slot ∈ item.slots := by
  obtain ⟨item, isItem, isArgument⟩ := mem_flatMap.mp isSlot
  by_cases dedups : item.dedups
  · rw [if_pos dedups] at isArgument
    exact ⟨item, isItem, dedups, isArgument⟩
  · rw [if_neg dedups] at isArgument
    cases isArgument

theorem packed_typed (checked : ∀ item ∈ items, ItemChecked types item) (typed : row.WellTyped types) :
    (packed items row).WellTyped (packedTypes types items) := by
  rw [Row.WellTyped, packed, packedTypes, forall₂_map_left_iff, forall₂_map_right_iff,
    forall₂_same]
  intro slot isSlot
  obtain ⟨item, isItem, dedups, isArgument⟩ := mem_distinctSlots isSlot
  obtain ⟨type, isType, -⟩ := ((checked item isItem).distinct dedups).2 slot isArgument
  rw [getD_eq_getElem?_getD, isType]
  exact typed.valid isType

theorem packed_keyed (before items : List AggregateItem) (checked : ItemChecked types item)
    (dedups : item.dedups) :
    Keyed (packedTypes types (before ++ item :: items))
      (ascending (distinctSlots before).length item.arguments) := by
  intro order isOrder
  obtain ⟨slot, isSlot, rfl⟩ := mem_map.mp isOrder
  obtain ⟨low, high⟩ := mem_range'_1.mp isSlot
  obtain ⟨i, rfl⟩ := Nat.exists_eq_add_of_le low
  have inside : i < item.arguments := by omega
  obtain ⟨type, isType, numeric⟩ := (checked.distinct dedups).2 (item.slot + i)
    (mem_range'_1.mpr (by omega))
  refine ⟨type, ?_, numeric⟩
  rw [packedTypes, getElem?_map, distinctSlots_at dedups inside, Option.map_some,
    getD_eq_getElem?_getD, isType]
  rfl

theorem arguments_pos (item : AggregateItem) : 0 < item.arguments := by
  unfold arguments
  split_ifs <;> omega

/-- The items that drop duplicates are computed from the packed rows, the others stay. -/
theorem distinctItems_yields (checked : ∀ item ∈ before ++ items, ItemChecked types item)
    (typed : ∀ row ∈ rows, row.WellTyped types) (full : 2 ^ 63 ≤ rows.length → bad)
    (wide : ∀ item ∈ items, item.dedups → 2 ^ 63 ≤ item.arguments → bad)
    (long : ∀ item ∈ items, item.dedups →
      2 ^ 64 ≤ rows.length * (2 * item.arguments + 1) → bad)
    (folded : List.Forall₂ (ItemFolded rows) items states) :
    Yields bad (distinctItems real (rows.map (packed (before ++ items)))
      (distinctSlots before).length items states) fun states' =>
        List.Forall₂ (fun item state => IsItem rows item state.value) items states' := by
  induction folded generalizing before with
  | nil => exact .pure .nil
  | @cons item state items states first rest ih =>
    have others := @ih (before ++ [item]) (by simpa using checked)
      (fun other isOther => wide other (mem_cons_of_mem _ isOther))
      (fun other isOther => long other (mem_cons_of_mem _ isOther))
    rw [append_assoc, singleton_append, distinctSlots_append] at others
    have checkedItem : ItemChecked types item := checked item (by simp)
    rw [distinctItems]
    by_cases dedups : item.dedups
    · obtain ⟨isCount, -⟩ := checkedItem.distinct dedups
      rw [ItemFolded, if_pos dedups, isCount] at first
      rw [distinctSlots_cons dedups, length_append, length_append,
        slots, length_range'] at others
      have here : Yields bad (distinctItem real .countValue (distinctSlots before).length
          item.arguments (rows.map (packed (before ++ item :: items))) state) fun state' =>
            state'.value = .int64 (.ofNat (item.tuples rows).card) := by
        rw [← tuples_packed dedups rows]
        refine distinctItem_yields (packed_keyed before items checkedItem dedups)
          (forall_mem_map.mpr fun row isRow => ?_) (arguments_pos item) first ?_
          (wide item mem_cons_self dedups) ?_
        · exact packed_typed checked (typed row isRow)
        · rwa [length_map]
        · rw [length_map]
          exact long item mem_cons_self dedups
      rw [if_pos dedups, isCount]
      refine here.bind fun state' isState => others.bind fun states' areStates =>
        .pure (.cons ?_ areStates)
      rwa [IsItem, if_pos dedups]
    · have keeps : item.dedups = false := by simpa using dedups
      rw [ItemFolded, if_neg dedups] at first
      rw [distinctSlots_skip keeps, length_append] at others
      rw [if_neg dedups]
      refine others.bind fun states' areStates => .pure (.cons ?_ areStates)
      rw [IsItem, if_neg dedups]
      exact first.value

theorem isItem_of_folded (none : distinctSlots items = [])
    (folded : List.Forall₂ (ItemFolded rows) items states) :
    List.Forall₂ (fun item state => IsItem rows item state.value) items states := by
  induction folded with
  | nil => exact .nil
  | @cons item state items states first rest ih =>
    by_cases dedups : item.dedups
    · rw [distinctSlots_cons dedups, append_eq_nil_iff] at none
      have some := arguments_pos item
      have short : item.arguments = 0 := by
        simpa [slots] using none.1
      omega
    · rw [distinctSlots_skip (by simpa using dedups)] at none
      rw [ItemFolded, if_neg dedups] at first
      refine .cons ?_ (ih none)
      rw [IsItem, if_neg dedups]
      exact first.value

theorem reductionResults_eq {R : AggregateItem → Reduction → Prop}
    (exact' : ∀ item ∈ items, item.kind.exact) (states' : List.Forall₂ R items states) :
    ((items.zip states).mapM fun (item, state) => reductionResult real item.kind state) =
      .ok (states.map Reduction.value) := by
  induction states' with
  | nil => rfl
  | cons first rest ih =>
    obtain ⟨exactItem, exactItems⟩ := forall_mem_cons.mp exact'
    rw [zip_cons_cons, mapM_cons, ih exactItems]
    dsimp only
    rw [reductionResult_eq exactItem]
    rfl

theorem aggregateFinish_yields {group : Group} (checked : SpecChecked types spec)
    (typed : ∀ row ∈ rows, row.WellTyped types) (bad_of : ¬Countable spec rows.length → bad)
    (folded : GroupFolded spec rows group) :
    Yields bad (aggregateFinish real spec group) (IsGroup spec group.keys rows) := by
  have full : 2 ^ 63 ≤ rows.length → bad := fun most => bad_of fun few => by
    have := few.1
    omega
  have wide (item : AggregateItem) (isItem : item ∈ spec.items) (dedups : item.dedups = true)
      (most : 2 ^ 63 ≤ item.arguments) : bad := bad_of fun few => by
    have := (few.2 item isItem dedups).1
    omega
  have long (item : AggregateItem) (isItem : item ∈ spec.items) (dedups : item.dedups = true)
      (most : 2 ^ 64 ≤ rows.length * (2 * item.arguments + 1)) : bad := bad_of fun few => by
    have := (few.2 item isItem dedups).2
    omega
  have finished : Yields bad (aggregateDistinctFinish real spec group) fun states =>
      List.Forall₂ (fun item state => IsItem rows item state.value) spec.items states := by
    unfold aggregateDistinctFinish
    by_cases none : (distinctSlots spec.items).isEmpty
    · rw [if_pos none]
      exact .pure (isItem_of_folded (by simpa using none) folded.states)
    · rw [if_neg none, folded.distinct (by simpa using none)]
      exact @distinctItems_yields real types spec.items rows group.states bad [] checked.items typed
        full wide long folded.states
  refine finished.bind fun states areStates => ?_
  have exact' (item : AggregateItem) (isItem : item ∈ spec.items) : item.kind.exact :=
    (checked.items item isItem).exact'
  rw [reductionResults_eq exact' areStates]
  refine .pure ⟨states.map Reduction.value, rfl, ?_⟩
  rwa [forall₂_map_right_iff]

end Finish

section Perm

variable {others : List Row} {output : Row} {keys : List Value} {value : Value}

theorem IsAggregate.perm {kind : AggregateKind} {first second : List Value}
    (is : IsAggregate kind first value) (perm : first.Perm second) :
    IsAggregate kind second value := by
  have filtered : (present first).Perm (present second) := perm.filter _
  have extreme {better : ℤ → ℤ → Prop} (is : IsExtreme better (present first) value) :
      IsExtreme better (present second) value := by
    obtain ⟨none, isNull⟩ | ⟨isOne, best⟩ := is
    · rw [none] at filtered
      exact .inl ⟨filtered.nil_eq.symm, isNull⟩
    · exact .inr ⟨filtered.mem_iff.mp isOne, fun other isOther =>
        best other (filtered.mem_iff.mpr isOther)⟩
  have folded {op : UInt64 → UInt64 → UInt64} {init : UInt64} (comm : ∀ a b, op a b = op b a)
      (assoc : ∀ a b c, op (op a b) c = op a (op b c)) :
      (present first).foldr (fun v w => op (bitsOf v) w) init =
        (present second).foldr (fun v w => op (bitsOf v) w) init := by
    have swaps : LeftCommutative fun (v : Value) (w : UInt64) => op (bitsOf v) w :=
      ⟨fun a b c => by rw [← assoc, comm (bitsOf a), assoc]⟩
    exact filtered.foldr_eq init
  cases kind with
  | countAll =>
    rw [IsAggregate, ← perm.length_eq]
    exact is
  | countValue =>
    rw [IsAggregate, ← filtered.length_eq]
    exact is
  | min => exact extreme is
  | max => exact extreme is
  | bitAnd => exact is.trans (congrArg Value.uint64 (folded UInt64.and_comm UInt64.and_assoc))
  | bitOr => exact is.trans (congrArg Value.uint64 (folded UInt64.or_comm UInt64.or_assoc))
  | bitXor => exact is.trans (congrArg Value.uint64 (folded UInt64.xor_comm UInt64.xor_assoc))
  | sum | avg | varPop | varSamp | stddevPop | stddevSamp => exact is

theorem IsItem.perm (is : IsItem rows item value) (perm : rows.Perm others) :
    IsItem others item value := by
  unfold IsItem at is ⊢
  split_ifs at is ⊢
  · have same : item.tuples rows = item.tuples others :=
      toFinset_eq_of_perm _ _ ((perm.filter _).map _)
    rw [← same]
    exact is
  · exact is.perm (perm.map _)

theorem IsGroup.perm (is : IsGroup spec keys rows output) (perm : rows.Perm others) :
    IsGroup spec keys others output := by
  obtain ⟨values, isOutput, items⟩ := is
  exact ⟨values, isOutput, items.imp fun item value isItem => isItem.perm perm⟩

theorem Grouped.perm {outputs heads : List Row} (grouped : Grouped spec rows outputs heads)
    (perm : rows.Perm others) : Grouped spec others outputs heads :=
  ⟨grouped.apart, fun row isRow => grouped.covers row (perm.mem_iff.mpr isRow),
    grouped.groups.imp fun _ _ ⟨isRow, isGroup⟩ =>
      ⟨perm.mem_iff.mp isRow, isGroup.perm (perm.filter _)⟩⟩

end Perm

section Drain

variable {fuel : Nat}

theorem Countable.mono {few many : Nat} (countable : Countable spec many) (le : few ≤ many) :
    Countable spec few := by
  refine ⟨le.trans_lt countable.1, fun item isItem dedups => ?_⟩
  obtain ⟨wide, long⟩ := countable.2 item isItem dedups
  exact ⟨wide, lt_of_le_of_lt (Nat.mul_le_mul_right _ le) long⟩

/-- The group of the row ahead is computed from it and from those of its rows behind it. -/
theorem aggregateNextGroup_yields (checked : SpecChecked types spec) (isSpec : run.spec = spec)
    (counted : run.groups ≠ 0) (typed : ∀ r ∈ run.rest, r.WellTyped types)
    (bad_of : ¬Countable spec run.rest.length → bad) (isHead : run.pending = some head)
    (eof : run.eof → run.scan = []) :
    Yields bad (aggregateNextGroup real run) fun result => ∃ taken group,
      Taken spec head [] run.rest taken group result.2 ∧
        IsGroup spec (spec.keys.map (head.at ·)) taken result.1 := by
  have isRest : run.rest = head :: run.scan := by rw [rest, isHead]; rfl
  have typedHead : head.WellTyped types := typed head (by rw [isRest]; exact mem_cons_self)
  have isKeys : (aggregateBegin spec (some head)).keys = spec.keys.map (head.at ·) := rfl
  have full : 2 ^ 63 ≤ ([] ++ run.rest).length → bad := fun most => bad_of fun few => by
    have := few.1
    rw [nil_append] at most
    omega
  have grouped : Yields bad (aggregateGroup real (run.scan.length + 1) run
      (aggregateBegin run.spec run.pending)) fun result =>
        ∃ taken, Taken spec head [] run.rest taken result.1 result.2 := by
    rw [isSpec, isHead]
    exact aggregateGroup_yields checked isSpec counted typed typedHead full isHead eof (Nat.lt_succ_self _)
      isKeys (aggregateBegin_folded checked _) rfl
  refine grouped.bind fun result ⟨taken, isTaken⟩ => ?_
  have within : taken.length ≤ run.rest.length := by
    rw [isTaken.rest, length_append]
    omega
  have typed' (r : Row) (isR : r ∈ taken) : r.WellTyped types :=
    typed r (by rw [isTaken.rest]; exact mem_append_left _ isR)
  have finish : Yields bad (aggregateFinish real result.2.spec result.1)
      (IsGroup spec result.1.keys taken) := by
    rw [isTaken.spec]
    exact aggregateFinish_yields checked typed'
      (fun many => bad_of fun few => many (few.mono within)) isTaken.folded
  refine finish.bind fun row isGroup => .pure ⟨taken, result.1, isTaken, ?_⟩
  rwa [← isTaken.keys]

theorem aggregateNextGroup_empty (checked : SpecChecked types spec) (isSpec : run.spec = spec)
    (noKeys : spec.keys = []) (isPending : run.pending = none) (bad_of : ¬Countable spec 0 → bad) :
    Yields bad (aggregateNextGroup real run) fun result =>
      IsGroup spec [] [] result.1 ∧ result.2 = run := by
  have begun : aggregateGroup real (run.scan.length + 1) run (aggregateBegin run.spec run.pending) =
      .ok (aggregateBegin spec none, run) := by
    rw [aggregateGroup, isPending, isSpec]
    rfl
  have keys : (aggregateBegin spec none).keys = [] := by rw [aggregateBegin, noKeys, map_nil]
  have finish : Yields bad (aggregateFinish real run.spec (aggregateBegin spec none))
      (IsGroup spec [] []) := by
    have typed (row : Row) (isRow : row ∈ []) : row.WellTyped types := nomatch isRow
    rw [isSpec, ← keys]
    exact aggregateFinish_yields checked typed bad_of (aggregateBegin_folded checked _)
  rw [aggregateNextGroup, begun]
  exact finish.bind fun row isGroup => .pure ⟨isGroup, rfl⟩

def AggregateRun.going (run : AggregateRun) : Prop := run.state = .opened ∨ run.state = .row

theorem aggregateDrain_done (going : run.going) (none : (aggregateRead run).pending = none)
    (isDone : (aggregateRead run).spec.keys ≠ [] ∨ (aggregateRead run).groups ≠ 0) :
    aggregateDrain real (fuel + 1) run = .ok [] := by
  rw [aggregateDrain, aggregateNext]
  obtain state | state := going <;>
    · rw [state]
      simp only [none, isDone, and_self, ↓reduceIte]
      rfl

theorem aggregateDrain_next {P : Row × AggregateRun → Prop} {Q : List Row → Prop}
    (going : run.going) (more : ¬((aggregateRead run).pending = none ∧
      ((aggregateRead run).spec.keys ≠ [] ∨ (aggregateRead run).groups ≠ 0)))
    (group : Yields bad (aggregateNextGroup real
      { aggregateRead run with groups := (aggregateRead run).groups + 1 }) P)
    (rest : ∀ result, P result → Yields bad
      (aggregateDrain real fuel { result.2 with state := .row }) fun out => Q (result.1 :: out)) :
    Yields bad (aggregateDrain real (fuel + 1) run) Q := by
  rw [aggregateDrain, aggregateNext]
  obtain ⟨result, computed, holds⟩ | ⟨isBad, cause, failed⟩ := group
  · have others := rest result holds
    obtain state | state := going <;>
      · rw [state]
        simp only [more, ↓reduceIte, computed]
        exact others.bind fun out isOut => .pure isOut
  · obtain state | state := going <;>
      · rw [state]
        simp only [more, ↓reduceIte, failed]
        exact .inr ⟨isBad, _, rfl⟩

theorem Taken.greater {taken left : List Row} {group : Group}
    (isTaken : Taken spec head [] left taken group run) (isHead : head ∈ taken)
    (sorted : left.Pairwise fun a b => key (groupOrders spec) a ≤ key (groupOrders spec) b)
    {row : Row} (isRow : row ∈ run.rest) : key (groupOrders spec) head < key (groupOrders spec) row := by
  rw [isTaken.rest] at sorted
  obtain ⟨-, sortedRest, cross⟩ := pairwise_append.mp sorted
  cases isNext : run.pending with
  | none =>
    rw [AggregateRun.rest, isNext, isTaken.ahead.ahead isNext] at isRow
    cases isRow
  | some next =>
    have isRest : run.rest = next :: run.scan := by rw [AggregateRun.rest, isNext]; rfl
    rw [isRest] at cross sortedRest isRow
    have least := lt_of_le_of_ne (cross head isHead next mem_cons_self)
      (isTaken.stops next isNext).symm
    obtain rfl | isBehind := mem_cons.mp isRow
    · exact least
    · exact least.trans_le ((pairwise_cons.mp sortedRest).1 row isBehind)

theorem Grouped.cons {taken rest output heads : List Row} {row : Row} (isHead : head ∈ taken)
    (same : ∀ r ∈ taken, key (groupOrders spec) r = key (groupOrders spec) head)
    (greater : ∀ r ∈ rest, key (groupOrders spec) head < key (groupOrders spec) r)
    (isGroup : IsGroup spec (spec.keys.map (head.at ·)) taken row)
    (grouped : Grouped spec rest output heads) :
    Grouped spec (taken ++ rest) (row :: output) (head :: heads) := by
  have members := ((forall₂_and_left _ _).mp grouped.groups).1
  have own : groupRows spec (taken ++ rest) head = taken := by
    have front : taken.filter (fun r =>
        key (groupOrders spec) r = key (groupOrders spec) head) = taken :=
      filter_eq_self.mpr fun r isR => decide_eq_true (same r isR)
    have back : rest.filter (fun r =>
        key (groupOrders spec) r = key (groupOrders spec) head) = [] :=
      filter_eq_nil_iff.mpr fun r isR => by simpa using (greater r isR).ne'
    rw [groupRows, filter_append, front, back, append_nil]
  have other (h : Row) (isRow : h ∈ rest) :
      groupRows spec (taken ++ rest) h = groupRows spec rest h := by
    have front : taken.filter (fun r =>
        key (groupOrders spec) r = key (groupOrders spec) h) = [] :=
      filter_eq_nil_iff.mpr fun r isR => by
        rw [same r isR]
        simpa using (greater h isRow).ne
    rw [groupRows, filter_append, front, nil_append, groupRows]
  refine ⟨pairwise_cons.mpr ⟨fun h isHead => greater h (members h isHead), grouped.apart⟩,
    fun r isR => ?_, .cons ⟨mem_append_left _ isHead, by rwa [own]⟩ ?_⟩
  · obtain isTaken | isRest := mem_append.mp isR
    · exact ⟨head, mem_cons_self, (same r isTaken).symm⟩
    · obtain ⟨h, isHead, equal⟩ := grouped.covers r isRest
      exact ⟨h, mem_cons_of_mem _ isHead, equal⟩
  · refine grouped.groups.imp fun h _ ⟨isRow, isGroup⟩ => ⟨mem_append_right _ isRow, ?_⟩
    rwa [other h isRow]

theorem Taken.head_mem {taken scan : List Row} {group : Group}
    (isTaken : Taken spec head [] (head :: scan) taken group run) : head ∈ taken := by
  cases isList : taken with
  | nil => exact absurd isList isTaken.nonempty
  | cons first others =>
    have split := isTaken.rest
    rw [isList, cons_append] at split
    rw [(cons.inj split).1]
    exact mem_cons_self

/-- With keys, the operator yields one row for each group of the rows that are left. -/
theorem aggregateDrain_grouped (checked : SpecChecked types spec)
    (isSpec : run.spec = spec) (some : spec.keys ≠ []) (going : run.going)
    (typed : ∀ r ∈ run.rest, r.WellTyped types) (bad_of : ¬Countable spec run.rest.length → bad)
    (eof : run.eof → run.scan = [])
    (sorted : run.rest.Pairwise fun a b => key (groupOrders spec) a ≤ key (groupOrders spec) b)
    (enough : run.rest.length < fuel) :
    Yields bad (aggregateDrain real fuel run) fun out => ∃ heads, Grouped spec run.rest out heads := by
  induction fuel generalizing run with
  | zero => omega
  | succ fuel ih =>
    obtain ⟨ahead, isRest, isSpec', -, -⟩ := aggregateRead_ahead eof
    have isSpec' : (aggregateRead run).spec = spec := isSpec'.trans isSpec
    cases isPending : (aggregateRead run).pending with
    | none =>
      have empty : run.rest = [] := by
        rw [← isRest, rest, isPending, ahead.ahead isPending]
        rfl
      rw [aggregateDrain_done going isPending (.inl (by rwa [isSpec']))]
      refine .inl ⟨[], rfl, [], ?_⟩
      rw [empty]
      exact ⟨.nil, nofun, .nil⟩
    | some head =>
      have isHead : run.rest = head :: (aggregateRead run).scan := by
        rw [← isRest, rest, isPending]
        rfl
      rw [← isRest] at typed bad_of
      refine aggregateDrain_next going (by simp [isPending])
        (aggregateNextGroup_yields checked isSpec' (Nat.succ_ne_zero _) typed bad_of isPending ahead.eof)
        fun result ⟨taken, group, isTaken, isGroup⟩ => ?_
      have isTaken : Taken spec head [] run.rest taken group result.2 := isRest ▸ isTaken
      have split := isTaken.rest
      have isHead' : head ∈ taken := by
        rw [isHead] at isTaken
        exact isTaken.head_mem
      have shorter : result.2.rest.length < run.rest.length := by
        have some := length_pos_iff.mpr isTaken.nonempty
        rw [split, length_append]
        omega
      have greater (r : Row) (isR : r ∈ result.2.rest) := isTaken.greater isHead' sorted isR
      rw [split] at sorted
      rw [isRest] at typed bad_of
      have rest := @ih { result.2 with state := .row } isTaken.spec (.inr rfl)
        (fun r isR => typed r (by rw [split]; exact mem_append_right _ isR))
        (fun many => bad_of fun few => many (few.mono shorter.le)) isTaken.ahead.eof
        (pairwise_append.mp sorted).2.1 (shorter.trans_le (Nat.lt_succ_iff.mp enough))
      refine rest.imp fun out ⟨heads, grouped⟩ => ⟨head :: heads, ?_⟩
      rw [split]
      exact .cons isHead' isTaken.same greater isGroup grouped

theorem aggregateDrain_empty (going : run.going) (empty : run.rest = [])
    (counted : run.groups ≠ 0) (eof : run.eof → run.scan = []) :
    aggregateDrain real (fuel + 1) run = .ok [] := by
  obtain ⟨-, isRest, -, -, isGroups⟩ := aggregateRead_ahead eof
  rw [empty, rest, append_eq_nil_iff, Option.toList_eq_nil_iff] at isRest
  exact aggregateDrain_done going isRest.1 (.inr (isGroups.trans_ne counted))

/-- Without keys, the operator yields one row for all rows that are left. -/
theorem aggregateDrain_single (checked : SpecChecked types spec)
    (isSpec : run.spec = spec) (none : spec.keys = []) (going : run.going) (first : run.groups = 0)
    (typed : ∀ r ∈ run.rest, r.WellTyped types) (bad_of : ¬Countable spec run.rest.length → bad)
    (eof : run.eof → run.scan = []) :
    Yields bad (aggregateDrain real (fuel + 2) run) fun out =>
      ∃ row, out = [row] ∧ IsGroup spec [] run.rest row := by
  obtain ⟨ahead, isRest, isSpec', -, isGroups⟩ := aggregateRead_ahead eof
  have isSpec' : (aggregateRead run).spec = spec := isSpec'.trans isSpec
  have noKeys (row : Row) : spec.keys.map (row.at ·) = [] := by rw [none, map_nil]
  refine aggregateDrain_next (P := fun result => IsGroup spec [] run.rest result.1 ∧
    result.2.rest = [] ∧ result.2.groups ≠ 0 ∧ (result.2.eof = true → result.2.scan = [])) going
    (by simp [isSpec', none, isGroups, first]) ?_ fun result ⟨isGroup, empty, counted, eof⟩ => ?_
  · cases isPending : (aggregateRead run).pending with
    | none =>
      have empty : (aggregateRead run).rest = [] := by
        rw [rest, isPending, ahead.ahead isPending]
        rfl
      rw [← isRest, empty] at bad_of ⊢
      refine (@aggregateNextGroup_empty real types spec
        { aggregateRead run with groups := (aggregateRead run).groups + 1 } bad checked isSpec' none
        isPending bad_of).imp fun result ⟨isGroup, same⟩ => ?_
      rw [same]
      exact ⟨isGroup, empty, Nat.succ_ne_zero _, ahead.eof⟩
    | some head =>
      rw [← isRest] at typed bad_of ⊢
      refine (@aggregateNextGroup_yields real types spec
        { aggregateRead run with groups := (aggregateRead run).groups + 1 } head bad checked isSpec'
        (Nat.succ_ne_zero _) typed bad_of isPending ahead.eof).imp
        fun result ⟨taken, group, isTaken, isGroup⟩ => ?_
      have ended : result.2.pending = Option.none := by
        cases isNext : result.2.pending with
        | none => rfl
        | some next =>
          refine absurd ?_ (isTaken.stops next isNext)
          rw [groupOrders, none]
          rfl
      have empty : result.2.rest = [] := by
        rw [rest, ended, isTaken.ahead.ahead ended]
        rfl
      have all : (aggregateRead run).rest = taken := by
        have split := isTaken.rest
        rwa [empty, append_nil] at split
      rw [noKeys] at isGroup
      exact ⟨all ▸ isGroup, empty, isTaken.counted, isTaken.ahead.eof⟩
  · rw [@aggregateDrain_empty real { result.2 with state := .row } fuel (.inr rfl) empty counted eof]
    exact .inl ⟨[], rfl, result.1, rfl, isGroup⟩

/-- The operator yields one row for each group of its input, or one row if there are no keys, with
what the items say of the rows of the group; it only fails for what cannot be counted. -/
theorem aggregateDrain_declared {input : List Row} {fuel : Nat} (real : RealArithmetic)
    (isOpen : aggregateOpen types spec input = .ok run) (exact' : ExactItems types spec)
    (typed : ∀ row ∈ input, row.WellTyped types) (enough : input.length + 1 < fuel) :
    (Countable spec input.length → ∃ output, aggregateDrain real fuel run = .ok output) ∧
    ∀ output, aggregateDrain real fuel run = .ok output →
      (spec.keys = [] → ∃ row, output = [row] ∧ IsGroup spec [] input row) ∧
      (spec.keys ≠ [] → ∃ heads, Grouped spec input output heads) := by
  have checked := aggregateOpen_checked isOpen exact'
  simp only [aggregateOpen, bind_eq_ok, pure_eq_ok, exists_unit] at isOpen
  obtain ⟨-, rfl⟩ := isOpen
  have perm := scanRows_perm (groupOrders spec) input
  generalize isRun : ({ spec, scan := scanRows (groupOrders spec) input, pending := none, eof := false
                        groups := 0, state := .opened } : AggregateRun) = run
  have isRest : run.rest = scanRows (groupOrders spec) input := by rw [← isRun]; rfl
  have isSpec : run.spec = spec := by rw [← isRun]
  have going : run.going := .inl (by rw [← isRun])
  have eof : run.eof = true → run.scan = [] := by simp [← isRun]
  have typedRest (row : Row) (isRow : row ∈ run.rest) : row.WellTyped types := by
    rw [isRest] at isRow
    exact typed row (perm.mem_iff.mp isRow)
  have bad_of : ¬Countable spec run.rest.length → ¬Countable spec input.length := by
    rw [isRest, perm.length_eq]
    exact id
  have yields : Yields (¬Countable spec input.length) (aggregateDrain real fuel run) fun output =>
      (spec.keys = [] → ∃ row, output = [row] ∧ IsGroup spec [] input row) ∧
      (spec.keys ≠ [] → ∃ heads, Grouped spec input output heads) := by
    by_cases noKeys : spec.keys = []
    · obtain ⟨fuel, rfl⟩ : ∃ less, fuel = less + 2 := ⟨fuel - 2, by omega⟩
      have first : run.groups = 0 := by rw [← isRun]
      refine (aggregateDrain_single checked isSpec noKeys going first typedRest bad_of eof).imp ?_
      rintro output ⟨row, isOutput, isGroup⟩
      rw [isRest] at isGroup
      exact ⟨fun _ => ⟨row, isOutput, isGroup.perm perm⟩, absurd noKeys⟩
    · have sorted := scanRows_sorted checked.keyed typed
      rw [← isRest] at sorted
      refine (aggregateDrain_grouped checked isSpec noKeys going typedRest bad_of eof sorted ?_).imp ?_
      · rw [isRest, perm.length_eq]
        omega
      · rintro output ⟨heads, grouped⟩
        rw [isRest] at grouped
        exact ⟨fun none => absurd none noKeys, fun _ => ⟨heads, grouped.perm perm⟩⟩
  obtain ⟨output, drained, is⟩ | ⟨uncountable, failure, failed⟩ := yields
  · refine ⟨fun _ => ⟨output, drained⟩, fun output' drained' => ?_⟩
    obtain rfl := Except.ok.inj (drained.symm.trans drained')
    exact is
  · refine ⟨fun countable => absurd countable uncountable, fun output drained => ?_⟩
    rw [failed] at drained
    cases drained

def tallySpec : AggregateSpec :=
  { keys := [0], items := [⟨.countAll, 0, 0, false⟩, ⟨.countValue, 1, 0, true⟩] }

def tallyRows : List Row := [[.int64 1, .int64 5], [.null, .int64 5], [.int64 1, .int64 5]]

theorem aggregateDrain_declared_tally :
    ∃ run output, aggregateOpen [⟨.int64, true⟩, ⟨.int64, true⟩] tallySpec tallyRows = .ok run ∧
      aggregateDrain idleReal 5 run = .ok output ∧ ∃ heads, Grouped tallySpec tallyRows output heads := by
  have exact' : ExactItems [⟨.int64, true⟩, ⟨.int64, true⟩] tallySpec := by
    simp [ExactItems, tallySpec, exact, bit]
  have typed : ∀ row ∈ tallyRows, row.WellTyped [⟨.int64, true⟩, ⟨.int64, true⟩] := by
    simp [tallyRows, Row.WellTyped, validValue]
  have countable : Countable tallySpec tallyRows.length := by
    refine ⟨by decide, fun item isItem => ?_⟩
    simp only [tallySpec, mem_cons, not_mem_nil, or_false] at isItem
    obtain rfl | rfl := isItem <;> decide
  have isOpen : aggregateOpen [⟨.int64, true⟩, ⟨.int64, true⟩] tallySpec tallyRows =
      .ok ⟨tallySpec, scanRows (groupOrders tallySpec) tallyRows, none, false, 0, .opened⟩ := by
    rfl
  obtain ⟨succeeds, is⟩ := aggregateDrain_declared idleReal isOpen exact' typed (Nat.lt_succ_self 4)
  obtain ⟨output, drained⟩ := succeeds countable
  exact ⟨_, output, isOpen, drained, (is output drained).2 (by decide)⟩

end Drain

end TurboDb.Query
