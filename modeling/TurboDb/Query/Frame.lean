import TurboDb.Query.Window

/-!
What a window frame is.

A frame is declared by two boundaries. Counted in rows, a boundary is a position
at a distance of the current one. Counted in keys, it is a place on the line of
the order key; a current key of NULL has the boundary of its peers. Distances
are added as numbers, however large.

The operator finds a boundary by arithmetic of machine words, or by halving with
a comparison that subtracts modulo the word.
-/

namespace TurboDb.Query

open Effect Words Wire List

section Declared

/-- How far a boundary is from the current row, in the direction of the window order. -/
def frameShift (bound : FrameBoundary) : ℤ :=
  if bound.kind = .preceding then -amount bound.distance else amount bound.distance

def RowsFrom (bound : FrameBoundary) (position j : Nat) : Prop :=
  match bound.kind with
  | .unboundedPreceding => True
  | .unboundedFollowing => False
  | .currentRow => position ≤ j
  | _ => (position : ℤ) + frameShift bound ≤ j

def RowsTo (bound : FrameBoundary) (position j : Nat) : Prop :=
  match bound.kind with
  | .unboundedPreceding => False
  | .unboundedFollowing => True
  | .currentRow => j ≤ position
  | _ => (j : ℤ) ≤ (position : ℤ) + frameShift bound

variable (w : Window)

/-- The one key that distances are measured on. -/
def Window.rangeKey : ScanOrder := w.orderKeys.headD ⟨0, false⟩

/-- The number that a key is at, counted in the direction of its column. -/
def ScanOrder.number (order : ScanOrder) (row : Row) : ℤ :=
  if order.descending then -amount (row.at order.slot) else amount (row.at order.slot)

def ScanOrder.place (order : ScanOrder) (row : Row) : Line :=
  TurboDb.Query.place order.descending (row.at order.slot)

def RangeFrom (bound : FrameBoundary) (current row : Row) : Prop :=
  match bound.kind with
  | .unboundedPreceding => True
  | .unboundedFollowing => False
  | .currentRow => key w.orderKeys current ≤ key w.orderKeys row
  | _ =>
    if current.at w.rangeKey.slot = .null then key w.orderKeys current ≤ key w.orderKeys row
    else ((w.rangeKey.number current + frameShift bound : ℤ) : Line) ≤ w.rangeKey.place row

def RangeTo (bound : FrameBoundary) (current row : Row) : Prop :=
  match bound.kind with
  | .unboundedPreceding => False
  | .unboundedFollowing => True
  | .currentRow => key w.orderKeys row ≤ key w.orderKeys current
  | _ =>
    if current.at w.rangeKey.slot = .null then key w.orderKeys row ≤ key w.orderKeys current
    else w.rangeKey.place row ≤ ((w.rangeKey.number current + frameShift bound : ℤ) : Line)

variable (rows : List Row)

/-- The row at `j` of a partition is in the declared frame of the row at `position`. -/
def InFrame (position j : Nat) : Prop :=
  if w.frame.unit = .rows then RowsFrom w.frame.start position j ∧ RowsTo w.frame.stop position j
  else
    RangeFrom w w.frame.start (rowsAt rows position) (rowsAt rows j) ∧
      RangeTo w w.frame.stop (rowsAt rows position) (rowsAt rows j)

end Declared

variable {type : SqlType} {bound : FrameBoundary} {types : List SqlType} {spec : WindowSpec}
  {w : Window} {rows : List Row} {first last position peer after : Nat}

section Compare

variable {a b candidate reference : Value}

def integralType (type : SqlType) : Bool :=
  type.kind = .int64 || type.kind = .uint64 || type.kind = .boolean

theorem toInt_eq (value : Int64) : value.toInt = if 2 * value.toUInt64.toNat < 2 ^ 64 then
    (value.toUInt64.toNat : ℤ) else value.toUInt64.toNat - (2 ^ 64 : Nat) :=
  BitVec.toInt_eq_toNat_cond value.toBitVec

theorem windowInteger_sub (integral : integralType type) (validA : validValue a type)
    (validB : validValue b type) (someA : a ≠ .null) (someB : b ≠ .null)
    (le : amount b ≤ amount a) :
    ((windowInteger a - windowInteger b).toNat : ℤ) = amount a - amount b := by
  cases a <;> cases b <;> simp_all [validValue, integralType]
  case int64.int64 a b =>
      have wordA := a.toUInt64.toNat_lt
      have wordB := b.toUInt64.toNat_lt
      have intA := toInt_eq a
      have intB := toInt_eq b
      simp only [amount, windowInteger, UInt64.toNat_sub] at le ⊢
      rw [intA, intB] at le ⊢
      split_ifs at le ⊢ <;> omega
  case uint64.uint64 a b =>
      have wordA := a.toNat_lt
      simp only [amount, windowInteger, UInt64.toNat_sub] at le ⊢
      omega
  case boolean.boolean a b =>
      have wordA := a.toNat_lt
      simp only [amount, windowInteger, UInt64.toNat_sub, UInt8.toNat_toUInt64] at le ⊢
      omega

structure WholeDistance (bound : FrameBoundary) : Prop where
  whole : bound.distance.kind ≠ .double
  amount : ((windowInteger bound.distance).toNat : ℤ) = amount bound.distance

theorem wholeDistance {unit : FrameUnit} (distance : frameDistance unit bound.distance)
    (whole : bound.distance.kind ≠ .double) : WholeDistance bound := by
  refine ⟨whole, ?_⟩
  cases value : bound.distance <;> rw [value] at distance whole <;> simp [frameDistance] at distance
  case int64 v =>
      have word := v.toUInt64.toNat_lt
      have int := toInt_eq v
      simp only [windowInteger, Query.amount]
      rw [int] at distance ⊢
      split_ifs at distance ⊢ <;> omega
  case uint64 v => rfl
  case double bits => exact absurd rfl whole

variable (real : RealArithmetic)

section Integral

variable (integral : integralType type) (validA : validValue candidate type)
  (validB : validValue reference type)
include integral validA validB

/-- Before the column's direction is taken into account, a candidate is compared with the reference
moved by the distance. -/
theorem rangeInteger_compares (someA : candidate ≠ .null) (someB : reference ≠ .null)
    (whole : WholeDistance bound) (plus : Bool) :
    (rangeInteger candidate reference bound.distance plus).Compares (amount candidate)
      (amount reference + if plus then amount bound.distance else -amount bound.distance) := by
  unfold rangeInteger
  have order := valueOrder_amount validA validB someA someB
  have nonneg : 0 ≤ amount bound.distance := by
    rw [← whole.amount]
    exact Int.natCast_nonneg _
  have words (x y : UInt64) : (compareU64 x y).Compares (x.toNat : ℤ) (y.toNat : ℤ) := by
    rw [compareU64, ← cmp_eq_compare, ← Nat.strictMono_cast.cmp_map_eq (β := ℤ)]
    exact cmp_compares _ _
  cases plus with
  | true =>
    by_cases less : valueOrder candidate reference = .lt
    · have below := order.eq_lt.mp less
      simp only [less, ne_eq, not_true_eq_false, and_false, false_and, or_self, ↓reduceIte,
        Ordering.Compares]
      omega
    · have above : amount reference ≤ amount candidate := not_lt.mp fun h => less (order.eq_lt.mpr h)
      have apart := windowInteger_sub integral validA validB someA someB above
      have compared := words (windowInteger candidate - windowInteger reference)
        (windowInteger bound.distance)
      rw [apart, whole.amount] at compared
      simp only [less, ne_eq, not_false_eq_true, and_self, true_or, ↓reduceIte]
      cases h : compareU64 (windowInteger candidate - windowInteger reference)
          (windowInteger bound.distance) <;>
        · rw [h] at compared
          simp only [Ordering.Compares] at compared ⊢
          omega
  | false =>
    by_cases more : valueOrder candidate reference = .gt
    · have above := order.eq_gt.mp more
      simp only [more, Bool.false_eq_true, ne_eq, not_true_eq_false, and_false, false_and,
        not_false_eq_true, or_self, ↓reduceIte, Ordering.Compares]
      omega
    · have below : amount candidate ≤ amount reference := not_lt.mp fun h => more (order.eq_gt.mpr h)
      have apart := windowInteger_sub integral validB validA someB someA below
      have compared := words (windowInteger reference - windowInteger candidate)
        (windowInteger bound.distance)
      rw [apart, whole.amount] at compared
      simp only [more, Bool.false_eq_true, ne_eq, not_false_eq_true, and_self, false_and, or_true,
        ↓reduceIte]
      cases h : compareU64 (windowInteger reference - windowInteger candidate)
          (windowInteger bound.distance) <;>
        · rw [h] at compared
          simp only [Ordering.Compares, Ordering.swap] at compared ⊢
          omega

/-- The comparison of the halving loop is that of places on the line. -/
theorem windowRangeCompare_compares (some : reference ≠ .null) (whole : WholeDistance bound)
    (moved : bound.kind = .preceding ∨ bound.kind = .following) (descending : Bool) :
    (windowRangeCompare real candidate reference bound descending).Compares
      (place descending candidate)
      (((if descending then -amount reference else amount reference) + frameShift bound : ℤ) :
        Line) := by
  by_cases null : candidate = .null
  · rw [windowRangeCompare, if_pos null, null, place_null]
    cases descending
    · exact WithBot.bot_lt_coe _
    · exact WithBot.coe_lt_coe.mpr (WithTop.coe_lt_top _)
  · have noReal : ¬(reference.kind = .double ∨ bound.distance.kind = .double) := by
      rintro (isReal | isReal)
      · cases reference <;> simp_all [validValue, integralType, Value.kind]
      · exact whole.whole isReal
    rw [windowRangeCompare, if_neg null, place_some null]
    simp only [if_neg noReal]
    have compared := rangeInteger_compares integral validA validB null some whole
      ((bound.kind = .following) != descending)
    have shift : frameShift bound =
        if bound.kind = .following then amount bound.distance else -amount bound.distance := by
      rcases moved with kind | kind <;> simp [frameShift, kind]
    rw [shift]
    cases descending with
    | false =>
      simp only [Bool.bne_false, decide_eq_true_eq, Bool.false_eq_true, ↓reduceIte] at compared ⊢
      exact compares_coe compared
    | true =>
      have turned := compares_coe (compares_neg compared)
      rw [neg_add] at turned
      by_cases following : bound.kind = .following
      · simp only [following, decide_true, bne_self_eq_false, Bool.false_eq_true, ↓reduceIte,
          neg_neg] at turned ⊢
        exact turned
      · simp only [following, decide_false, Bool.bne_true, Bool.not_false, ↓reduceIte] at turned ⊢
        exact turned

end Integral

end Compare

def FrameBoundary.moved (bound : FrameBoundary) : Prop :=
  bound.kind = .preceding ∨ bound.kind = .following

/-- What validation leaves of a boundary at a distance. -/
structure BoundChecked (types : List SqlType) (w : Window) (bound : FrameBoundary) : Prop where
  distance : frameDistance w.frame.unit bound.distance = true
  oneKey : w.frame.unit = .range → ∃ order type, w.orderKeys = [order] ∧
    types[order.slot]? = some type ∧ type.kind ≠ .null

structure Opened (types : List SqlType) (w : Window) : Prop where
  keyed : Keyed types w.orders
  unit : w.frame.unit ≠ .default
  start : w.frame.start.moved → BoundChecked types w w.frame.start
  stop : w.frame.stop.moved → BoundChecked types w w.frame.stop

theorem windowValidateBound_ok {bound : FrameBoundary}
    (checked : windowValidateBound types spec bound = .ok ()) (moved : bound.moved) :
    frameDistance spec.frame.unit bound.distance ∧
      (spec.frame.unit = .range → ∃ order, spec.orders = [order] ∧
        (types.getD order.slot ⟨.null, true⟩).kind ≠ .null) := by
  have moved' : bound.kind = .preceding ∨ bound.kind = .following := moved
  rw [windowValidateBound, if_pos moved'] at checked
  simp only [bind_eq_ok, reject_eq_ok, Bool.not_eq_false, exists_unit, not_and, not_or,
    not_not] at checked
  refine ⟨checked.1, fun range => ?_⟩
  obtain ⟨one, numeric⟩ := checked.2 range
  obtain ⟨order, isOrder⟩ := length_eq_one_iff.mp one
  simpa [isOrder] using numeric

theorem windowOpen_opened (opened : windowOpen types spec = .ok w) : Opened types w := by
  simp only [windowOpen, windowValidate, bind_eq_ok, pure_eq_ok, exists_unit] at opened
  obtain ⟨⟨-, -, keys, frame⟩, rfl⟩ := opened
  rw [forM_eq_ok] at keys
  have typed (slot : Nat) (isKey : slot ∈ spec.partitions ++ spec.orders.map ScanOrder.slot) :
      ∃ type, types[slot]? = some type ∧ keyType type = true := by
    have key := keys slot isKey
    simp only [windowValidateKey, bind_eq_ok, given_eq_ok, reject_eq_ok, Bool.not_eq_false] at key
    exact key
  have orderKeys : drop spec.partitions.length
      (spec.partitions.map (⟨·, false⟩) ++ spec.orders) = spec.orders := by
    rw [drop_left' (length_map _)]
  have keyed : Keyed types (spec.partitions.map (⟨·, false⟩) ++ spec.orders) := by
    intro order isOrder
    refine typed order.slot ?_
    obtain isPartition | isOrder := mem_append.mp isOrder
    · obtain ⟨slot, isSlot, rfl⟩ := mem_map.mp isPartition
      exact mem_append_left _ isSlot
    · exact mem_append_right _ (mem_map_of_mem isOrder)
  by_cases unset : spec.frame.unit = .default
  · have isFrame : spec.resolved = ⟨.range, ⟨.unboundedPreceding, spec.frame.start.distance⟩,
        ⟨if spec.orders.isEmpty then .unboundedFollowing else .currentRow,
          spec.frame.stop.distance⟩⟩ := if_pos unset
    refine ⟨keyed, ?_, fun moved => ?_, fun moved => ?_⟩ <;> dsimp only at * <;> rw [isFrame] at *
    · simp
    · rcases moved with kind | kind <;> cases kind
    · split_ifs at moved <;> rcases moved with kind | kind <;> cases kind
  · have isFrame : spec.resolved = spec.frame := if_neg unset
    rw [windowValidateFrame, if_pos unset] at frame
    simp only [bind_eq_ok, exists_unit] at frame
    obtain ⟨-, start, stop⟩ := frame
    have checked {bound : FrameBoundary} (valid : windowValidateBound types spec bound = .ok ())
        (moved : bound.moved) :
        frameDistance spec.frame.unit bound.distance = true ∧
          (spec.frame.unit = .range → ∃ order type, spec.orders = [order] ∧
            types[order.slot]? = some type ∧ type.kind ≠ .null) := by
      obtain ⟨distance, oneKey⟩ := windowValidateBound_ok valid moved
      refine ⟨distance, fun range => ?_⟩
      obtain ⟨order, isOrder, numeric⟩ := oneKey range
      obtain ⟨type, isType, -⟩ := typed order.slot (by simp [isOrder])
      rw [getD_eq_getElem?_getD, isType] at numeric
      exact ⟨order, type, isOrder, isType, numeric⟩
    rw [isFrame]
    refine ⟨keyed, unset, fun moved => ?_, fun moved => ?_⟩
    · obtain ⟨distance, oneKey⟩ := checked start moved
      exact ⟨distance, by rwa [Window.orderKeys, orderKeys]⟩
    · obtain ⟨distance, oneKey⟩ := checked stop moved
      exact ⟨distance, by rwa [Window.orderKeys, orderKeys]⟩

section Bounds

variable {real : RealArithmetic}
variable {upper : Bool}

/-- A cut of a partition has before it the rows of which `isBefore` holds. -/
structure Cut (first last cut : Nat) (isBefore : Nat → Prop) : Prop where
  low : first ≤ cut
  high : cut ≤ last
  before_iff : ∀ j, first ≤ j → j < last → (j < cut ↔ isBefore j)

theorem cut_first (le : first ≤ last) : Cut first last first fun _ => False :=
  ⟨le_rfl, le, fun _ low _ => iff_of_false (not_lt.mpr low) id⟩

theorem cut_last (le : first ≤ last) : Cut first last last fun _ => True :=
  ⟨le, le_rfl, fun _ _ high => iff_of_true high trivial⟩

theorem halve_cut {before : Nat → Bool} {isBefore : Nat → Prop} (le : first ≤ last)
    (before_iff : ∀ j, j < last → (before j ↔ isBefore j))
    (mono : ∀ i j, first ≤ i → i ≤ j → j < last → isBefore j → isBefore i) :
    Cut first last (Search.halve before (last - first) first last) isBefore := by
  have closed : Search.MonotoneFrom before first last := by
    intro i j lowI leJ highJ holds
    rw [before_iff j highJ] at holds
    rw [before_iff i (by omega)]
    exact mono i j lowI leJ highJ holds
  obtain ⟨low, high, below, above⟩ := Search.halve_spec closed le le_rfl
  refine ⟨low, high, fun j lowJ highJ => ⟨fun ahead => ?_, fun holds => ?_⟩⟩
  · exact (before_iff j highJ).mp (below j lowJ ahead)
  · by_contra behind
    rw [← before_iff j highJ, above j (not_lt.mp behind) highJ] at holds
    cases holds

/-- What a boundary has before it: an upper one the rows up to it, a lower one those not from it. -/
def RowsBefore (bound : FrameBoundary) (position : Nat) (upper : Bool) (j : Nat) : Prop :=
  if upper then RowsTo bound position j else ¬RowsFrom bound position j

theorem rowsBefore_iff {j : Nat} : RowsBefore bound position upper j ↔ match bound.kind with
    | .unboundedPreceding => False
    | .unboundedFollowing => True
    | .currentRow => j < position + upper.toNat
    | _ => (j : ℤ) < position + frameShift bound + upper.toNat := by
  unfold RowsBefore RowsTo RowsFrom
  cases upper <;> cases bound.kind <;> simp

theorem toNat_ofNat_small {n : Nat} (small : n < 2 ^ 63) : (UInt64.ofNat n).toNat = n := by
  rw [UInt64.toNat_ofNat', Nat.mod_eq_of_lt (by omega)]

theorem windowRowsBound_cut (whole : bound.moved → WholeDistance bound) (low : first ≤ position)
    (high : position < last) (small : last < 2 ^ 63) (upper : Bool) :
    Cut first last
      (windowRowsBound bound (.ofNat first) (.ofNat last) (.ofNat position) upper).toNat
      (RowsBefore bound position upper) := by
  have isFirst := toNat_ofNat_small (show first < 2 ^ 63 by omega)
  have isLast := toNat_ofNat_small small
  have isPosition := toNat_ofNat_small (show position < 2 ^ 63 by omega)
  have behind : (if upper then 1 else 0 : UInt64).toNat = upper.toNat := by cases upper <;> rfl
  have one := upper.toNat_le
  have same := funext fun j => propext (@rowsBefore_iff bound position upper j)
  rw [same]
  unfold windowRowsBound
  generalize (if upper then 1 else 0 : UInt64) = extra at behind
  cases kind : bound.kind with
  | unboundedPreceding =>
    simp only [isFirst]
    exact cut_first (by omega)
  | unboundedFollowing =>
    simp only [isLast]
    exact cut_last (by omega)
  | currentRow =>
    simp only [UInt64.toNat_add, isPosition, behind]
    exact ⟨by omega, by omega, fun j _ _ => by omega⟩
  | preceding =>
    have amount := (whole (.inl kind)).amount
    have shift : frameShift bound = -Query.amount bound.distance := if_pos kind
    simp only [shift, ← amount, gt_iff_lt, UInt64.lt_iff_toNat_lt, UInt64.toNat_sub, isFirst,
      isPosition]
    split_ifs with far
    · rw [isFirst]
      exact ⟨le_rfl, by omega, fun j lowJ highJ => iff_of_false (by omega) (by omega)⟩
    · rw [UInt64.toNat_add, UInt64.toNat_sub, isPosition, behind]
      exact ⟨by omega, by omega, fun j lowJ highJ => by omega⟩
  | following =>
    have amount := (whole (.inr kind)).amount
    have shift : frameShift bound = Query.amount bound.distance := if_neg (by simp [kind])
    simp only [shift, ← amount, ge_iff_le, UInt64.le_iff_toNat_le, UInt64.toNat_sub, isLast,
      isPosition, behind]
    split_ifs with far
    · rw [isLast]
      exact ⟨by omega, le_rfl, fun j lowJ highJ => iff_of_true (by omega) (by omega)⟩
    · rw [UInt64.toNat_add, UInt64.toNat_add, isPosition, behind]
      exact ⟨by omega, by omega, fun j lowJ highJ => by omega⟩

/-- The rows from `first` to before `last` are rows of one partition, in the window order. -/
structure Partition (types : List SqlType) (w : Window) (rows : List Row) (first last : Nat) :
    Prop where
  typed : ∀ row ∈ rows, row.WellTyped types
  within : last ≤ rows.length
  small : rows.length < 2 ^ 63
  sorted : ∀ i j, first ≤ i → i ≤ j → j < last →
    key w.orderKeys (rowsAt rows i) ≤ key w.orderKeys (rowsAt rows j)

/-- The rows from `peer` to before `after` are those with the keys of the row at `position`. -/
structure Peers (w : Window) (rows : List Row) (first last position peer after : Nat) : Prop where
  low : first ≤ peer
  before : peer ≤ position
  behind : position < after
  high : after ≤ last
  same : ∀ j, first ≤ j → j < last → (peer ≤ j ∧ j < after ↔
    key w.orderKeys (rowsAt rows j) = key w.orderKeys (rowsAt rows position))

theorem Partition.valid (part : Partition types w rows first last) {j : Nat} (inside : j < last)
    {slot : Nat} (isType : types[slot]? = some type) :
    validValue ((rowsAt rows j).at slot) type := by
  have isRow : j < rows.length := inside.trans_le part.within
  refine (part.typed _ ?_).valid isType
  rw [rowsAt, getD_eq_getElem _ _ isRow]
  exact getElem_mem isRow

/-- At most, for an upper boundary, or else less. -/
def Below {α : Type} [LinearOrder α] (upper : Bool) (a b : α) : Prop := if upper then a ≤ b else a < b

theorem Below.mono {α : Type} [LinearOrder α] {a b c : α} (below : Below upper b c)
    (le : a ≤ b) : Below upper a c := by
  cases upper with
  | true => exact le.trans below
  | false => exact le.trans_lt below

theorem Peers.cut (peers : Peers w rows first last position peer after)
    (part : Partition types w rows first last) (upper : Bool) :
    Cut first last (if upper then after else peer) fun j =>
      Below upper (key w.orderKeys (rowsAt rows j)) (key w.orderKeys (rowsAt rows position)) := by
  have low := peers.low
  have before := peers.before
  have behind := peers.behind
  have high := peers.high
  have earlier (j : Nat) (lowJ : first ≤ j) (ahead : j < peer) :
      key w.orderKeys (rowsAt rows j) < key w.orderKeys (rowsAt rows position) := by
    refine lt_of_le_of_ne (part.sorted j position lowJ (by omega) (by omega)) fun same => ?_
    have := ((peers.same j lowJ (by omega)).mpr same).1
    omega
  have later (j : Nat) (back : after ≤ j) (highJ : j < last) :
      key w.orderKeys (rowsAt rows position) < key w.orderKeys (rowsAt rows j) := by
    refine lt_of_le_of_ne (part.sorted position j (by omega) (by omega) highJ) fun same => ?_
    have := ((peers.same j (by omega) highJ).mpr same.symm).2
    omega
  have inside (j : Nat) (lowJ : peer ≤ j) (highJ : j < after) :=
    (peers.same j (by omega) (by omega)).mp ⟨lowJ, highJ⟩
  cases upper with
  | true =>
    refine ⟨by simp only [if_true]; omega, high, fun j lowJ highJ => ⟨fun ahead => ?_, fun le => ?_⟩⟩
    · by_cases inside' : peer ≤ j
      · exact (inside j inside' ahead).le
      · exact (earlier j lowJ (not_le.mp inside')).le
    · exact not_le.mp fun back => (later j back highJ).not_ge le
  | false =>
    refine ⟨low, by simp only [Bool.false_eq_true, if_false]; omega, fun j lowJ highJ =>
      ⟨earlier j lowJ, fun less => not_le.mp fun back => ?_⟩⟩
    by_cases inside' : j < after
    · exact less.ne (inside j back inside')
    · exact (later j (not_lt.mp inside') highJ).not_gt less

theorem singleton_le {α : Type} [LinearOrder α] {a b : α} : [a] ≤ [b] ↔ a ≤ b := by
  rw [← not_lt, cons_lt_cons_iff]
  simp

/-- A boundary at a distance has no binary64, in the distance or in the key it is measured on. -/
structure WholeBound (types : List SqlType) (w : Window) (bound : FrameBoundary) : Prop where
  distance : bound.distance.kind ≠ .double
  key : w.frame.unit = .range → ∀ type, types[w.rangeKey.slot]? = some type → type.kind ≠ .double

/-- The one key of a window whose boundaries are at a distance. -/
structure WholeKey (types : List SqlType) (w : Window) (type : SqlType) : Prop where
  single : w.orderKeys = [w.rangeKey]
  isType : types[w.rangeKey.slot]? = some type
  integral : integralType type = true

theorem wholeKey (keyed : Keyed types w.orders) (checked : BoundChecked types w bound)
    (whole : WholeBound types w bound) (range : w.frame.unit = .range) :
    ∃ type, WholeKey types w type := by
  obtain ⟨order, type, single, isType, notNull⟩ := checked.oneKey range
  have isKey : w.rangeKey = order := by rw [Window.rangeKey, single, headD_cons]
  have member : order ∈ w.orders := by
    refine mem_of_mem_drop (i := w.partitionCount) ?_
    rw [← Window.orderKeys, single]
    exact mem_singleton.mpr rfl
  obtain ⟨type', isType', numeric⟩ := keyed order member
  obtain rfl := Option.some.inj (isType.symm.trans isType')
  have notReal := whole.key range type (by rwa [isKey])
  refine ⟨type, by rw [isKey, single], by rwa [isKey], ?_⟩
  simp only [keyType, notNull, notReal, decide_false, Bool.false_or, Bool.or_false] at numeric
  simpa [integralType] using numeric

theorem WholeKey.le_iff (one : WholeKey types w type) (a b : Row) :
    key w.orderKeys a ≤ key w.orderKeys b ↔ w.rangeKey.place a ≤ w.rangeKey.place b := by
  rw [one.single]
  exact singleton_le

/-- The place of a boundary at a distance of the current row. -/
def Window.target (w : Window) (bound : FrameBoundary) (current : Row) : Line :=
  ((w.rangeKey.number current + frameShift bound : ℤ) : Line)

/-- What the halving loop compares rows with is the place of the boundary. -/
theorem windowRangeCompare_target (real : RealArithmetic) (one : WholeKey types w type)
    (part : Partition types w rows first last) (whole : WholeDistance bound) (moved : bound.moved)
    (some : (rowsAt rows position).at w.rangeKey.slot ≠ .null) (inside : position < last) {j : Nat}
    (highJ : j < last) :
    (windowRangeCompare real ((rowsAt rows j).at w.rangeKey.slot)
      ((rowsAt rows position).at w.rangeKey.slot) bound w.rangeKey.descending).Compares
      (w.rangeKey.place (rowsAt rows j)) (w.target bound (rowsAt rows position)) :=
  windowRangeCompare_compares real one.integral (part.valid highJ one.isType)
    (part.valid inside one.isType) some whole moved w.rangeKey.descending

theorem WholeKey.sorted (one : WholeKey types w type)
    (part : Partition types w rows first last) {i j : Nat} (lowI : first ≤ i) (le : i ≤ j)
    (highJ : j < last) : w.rangeKey.place (rowsAt rows i) ≤ w.rangeKey.place (rowsAt rows j) :=
  (one.le_iff _ _).mp (part.sorted i j lowI le highJ)

theorem windowRangeBound_moved (moved : bound.moved) (upper : Bool) :
    windowRangeBound real w rows bound first last position peer after upper =
      if (rowsAt rows position).at w.rangeKey.slot = .null then if upper then after else peer
      else
        Search.halve (fun i =>
          let compared := windowRangeCompare real ((rowsAt rows i).at w.rangeKey.slot)
            ((rowsAt rows position).at w.rangeKey.slot) bound w.rangeKey.descending
          compared = .lt || (upper && compared = .eq)) (last - first) first last := by
  rcases moved with kind | kind <;>
    · simp only [windowRangeBound, kind]
      rfl

/-- What a boundary has before it, as `RowsBefore`. -/
def RangeBefore (w : Window) (bound : FrameBoundary) (current : Row) (upper : Bool) (row : Row) : Prop :=
  if upper then RangeTo w bound current row else ¬RangeFrom w bound current row

theorem rangeBefore_iff {current row : Row} : RangeBefore w bound current upper row ↔
      match bound.kind with
      | .unboundedPreceding => False
      | .unboundedFollowing => True
      | .currentRow => Below upper (key w.orderKeys row) (key w.orderKeys current)
      | _ =>
        if current.at w.rangeKey.slot = .null then
          Below upper (key w.orderKeys row) (key w.orderKeys current)
        else Below upper (w.rangeKey.place row) (w.target bound current) := by
  unfold RangeBefore RangeTo RangeFrom Below Window.target
  by_cases null : current.at w.rangeKey.slot = .null
  · cases upper <;> cases bound.kind <;> simp [null]
  · cases upper <;> cases bound.kind <;> simp [null]

theorem windowRangeBound_cut (keyed : Keyed types w.orders) (range : w.frame.unit = .range)
    (checked : bound.moved → BoundChecked types w bound)
    (whole : bound.moved → WholeBound types w bound) (part : Partition types w rows first last)
    (peers : Peers w rows first last position peer after) (upper : Bool) :
    Cut first last (windowRangeBound real w rows bound first last position peer after upper)
      fun j => RangeBefore w bound (rowsAt rows position) upper (rowsAt rows j) := by
  have low := peers.low.trans peers.before
  have high := peers.behind.trans_le peers.high
  have le := low.trans high.le
  simp only [rangeBefore_iff]
  by_cases moved : bound.moved
  · have far (a b c : Nat → Prop) : (fun j => match bound.kind with
        | .unboundedPreceding => False
        | .unboundedFollowing => True
        | .currentRow => a j
        | _ => if (rowsAt rows position).at w.rangeKey.slot = .null then b j else c j) =
          if (rowsAt rows position).at w.rangeKey.slot = .null then b else c := by
      rcases moved with kind | kind <;> simp only [kind] <;> split <;> rfl
    rw [far, windowRangeBound_moved moved]
    by_cases null : (rowsAt rows position).at w.rangeKey.slot = .null
    · rw [if_pos null, if_pos null]
      exact peers.cut part upper
    · obtain ⟨type, one⟩ := wholeKey keyed (checked moved) (whole moved) range
      have distance := wholeDistance (checked moved).distance (whole moved).distance
      rw [if_neg null, if_neg null]
      refine halve_cut le (fun j highJ => ?_) fun i j lowI le highJ below =>
        below.mono (one.sorted part lowI le highJ)
      have compares := windowRangeCompare_target real one part distance moved null high highJ
      dsimp only
      cases upper with
      | true =>
        rw [Bool.true_and, Bool.or_eq_true, decide_eq_true_eq, decide_eq_true_eq, compares.eq_lt,
          compares.eq_eq, ← le_iff_lt_or_eq]
        rfl
      | false =>
        rw [Bool.false_and, Bool.or_false, decide_eq_true_eq, compares.eq_lt]
        rfl
  · unfold windowRangeBound
    cases kind : bound.kind with
    | unboundedPreceding => exact cut_first le
    | unboundedFollowing => exact cut_last le
    | currentRow => exact peers.cut part upper
    | preceding => exact absurd (.inl kind) moved
    | following => exact absurd (.inr kind) moved

end Bounds

structure WholeFrame (types : List SqlType) (w : Window) : Prop where
  start : w.frame.start.moved → WholeBound types w w.frame.start
  stop : w.frame.stop.moved → WholeBound types w w.frame.stop

section Real

variable (real : RealArithmetic) (opened : Opened types w) (whole : WholeFrame types w)
  (part : Partition types w rows first last) (peers : Peers w rows first last position peer after)
include real opened whole part peers

/-- Both ends of a frame cut its partition where the declared frame does. -/
theorem windowFrameExtent_cuts :
    ∃ isFrom isTo : Nat → Prop,
      Cut first last (windowFrameExtent real w rows first last position peer after).1
        (fun j => ¬isFrom j) ∧
      Cut first last (windowFrameExtent real w rows first last position peer after).2 isTo ∧
      ∀ j, InFrame w rows position j ↔ isFrom j ∧ isTo j := by
  have low := peers.low.trans peers.before
  have high := peers.behind.trans_le peers.high
  have small := part.within.trans_lt part.small
  unfold windowFrameExtent windowBound InFrame
  by_cases inRows : w.frame.unit = .rows
  · simp only [if_pos inRows]
    exact ⟨_, _, windowRowsBound_cut
        (fun moved => wholeDistance (opened.start moved).distance (whole.start moved).distance)
        low high small false,
      windowRowsBound_cut
        (fun moved => wholeDistance (opened.stop moved).distance (whole.stop moved).distance)
        low high small true, fun j => Iff.rfl⟩
  · have range : w.frame.unit = .range := by
      cases unit : w.frame.unit with
      | default => exact absurd unit opened.unit
      | rows => exact absurd unit inRows
      | range => rfl
    simp only [if_neg inRows]
    exact ⟨_, _, windowRangeBound_cut opened.keyed range opened.start whole.start part peers false,
      windowRangeBound_cut opened.keyed range opened.stop whole.stop part peers true, fun j => Iff.rfl⟩

theorem windowFrameExtent_inFrame (j : Nat) :
    (windowFrameExtent real w rows first last position peer after).1 ≤ j ∧
        j < (windowFrameExtent real w rows first last position peer after).2 ↔
      first ≤ j ∧ j < last ∧ InFrame w rows position j := by
  obtain ⟨isFrom, isTo, starts, stops, isFrame⟩ := windowFrameExtent_cuts real opened whole part peers
  rw [isFrame]
  constructor
  · rintro ⟨behind, before⟩
    have lowJ := starts.low.trans behind
    have highJ := before.trans_le stops.high
    exact ⟨lowJ, highJ, not_not.mp (mt (starts.before_iff j lowJ highJ).mpr (not_lt.mpr behind)),
      (stops.before_iff j lowJ highJ).mp before⟩
  · rintro ⟨lowJ, highJ, isFromJ, isToJ⟩
    exact ⟨not_lt.mp fun ahead => (starts.before_iff j lowJ highJ).mp ahead isFromJ,
      (stops.before_iff j lowJ highJ).mpr isToJ⟩

end Real

/-- The bounds that the operator computes for a row enclose the rows of its declared frame, and are
the wrong way round or equal when there are none. -/
theorem windowFrameExtent_declared (real : RealArithmetic) (isOpen : windowOpen types spec = .ok w)
    (whole : WholeFrame types w) (part : Partition types w rows first last)
    (peers : Peers w rows first last position peer after) :
    (∀ j, (windowFrameExtent real w rows first last position peer after).1 ≤ j ∧
        j < (windowFrameExtent real w rows first last position peer after).2 ↔
      first ≤ j ∧ j < last ∧ InFrame w rows position j) ∧
    ((∀ j, first ≤ j → j < last → ¬InFrame w rows position j) ↔
      (windowFrameExtent real w rows first last position peer after).1 ≥
        (windowFrameExtent real w rows first last position peer after).2) := by
  have inFrame := windowFrameExtent_inFrame real (windowOpen_opened isOpen) whole part peers
  refine ⟨inFrame, fun empty => ?_, fun turned j lowJ highJ isFrame => ?_⟩
  · by_contra less
    obtain ⟨lowJ, highJ, isFrame⟩ := (inFrame _).mp ⟨le_rfl, not_le.mp less⟩
    exact empty _ lowJ highJ isFrame
  · obtain ⟨behind, before⟩ := (inFrame j).mpr ⟨lowJ, highJ, isFrame⟩
    omega

def nearSpec : WindowSpec :=
  { kind := .aggregate .countAll, partitions := [], orders := [⟨0, true⟩], buckets := 0, offset := 0
    valueSlot := 0, defaultSlot := 0, hasDefault := false
    frame := ⟨.range, ⟨.preceding, .uint64 1⟩, ⟨.following, .uint64 1⟩⟩ }

def nearWindow : Window :=
  { kind := .aggregate .countAll, buckets := 0, offset := 0, valueSlot := 0, defaultSlot := 0
    hasDefault := false, frame := ⟨.range, ⟨.preceding, .uint64 1⟩, ⟨.following, .uint64 1⟩⟩
    orders := [⟨0, true⟩], partitionCount := 0 }

def nearRows : List Row := [[.int64 3], [.int64 2], [.null]]

theorem nearRows_partition : Partition [⟨.int64, true⟩] nearWindow nearRows 0 3 where
  typed := by simp [nearRows, Row.WellTyped, validValue]
  within := by decide
  small := by decide
  sorted := by
    intro i j _ le high
    interval_cases j <;> interval_cases i <;> decide

theorem nearRows_peers : Peers nearWindow nearRows 0 3 1 1 2 where
  low := by decide
  before := by decide
  behind := by decide
  high := by decide
  same := by
    intro j _ high
    interval_cases j <;> decide

theorem nearWindow_open : windowOpen [⟨.int64, true⟩] nearSpec = .ok nearWindow := by decide

theorem nearWindow_whole : WholeFrame [⟨.int64, true⟩] nearWindow where
  start := fun _ => ⟨by decide, fun _ type isType => by cases isType; decide⟩
  stop := fun _ => ⟨by decide, fun _ type isType => by cases isType; decide⟩

/-- The arithmetic of a machine that returns the first operand. -/
def idleReal : RealArithmetic :=
  ⟨fun a _ => a, fun a _ => a, fun a _ => a, fun a _ => a, id, id, fun a => a.toInt64⟩

theorem windowFrameExtent_declared_near : windowOpen [⟨.int64, true⟩] nearSpec = .ok nearWindow ∧
    ∀ j, (windowFrameExtent idleReal nearWindow nearRows 0 3 1 1 2).1 ≤ j ∧
        j < (windowFrameExtent idleReal nearWindow nearRows 0 3 1 1 2).2 ↔
      0 ≤ j ∧ j < 3 ∧ InFrame nearWindow nearRows 1 j :=
  ⟨nearWindow_open, (windowFrameExtent_declared idleReal nearWindow_open nearWindow_whole
    nearRows_partition nearRows_peers).1⟩

end TurboDb.Query
