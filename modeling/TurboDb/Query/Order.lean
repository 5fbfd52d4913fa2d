import Mathlib
import TurboDb.Predicate

/-!
The order of rows by key columns.

Rows are compared on their key columns from the left, each up or down. A column
has one type, so that its values are places on a line: NULL is at one end, and
every other value at the number it stands for, or at its negative when the column
goes down. Comparison of rows is comparison of these places.
-/

namespace TurboDb.Query

open List

abbrev Row := List Value

def Row.at (row : Row) (slot : Nat) : Value := row.getD slot .null

structure ScanOrder where
  slot : Nat
  descending : Bool
  deriving DecidableEq

def keyType (type : SqlType) : Bool :=
  type.kind = .null || type.kind = .int64 || type.kind = .uint64 || type.kind = .double ||
    type.kind = .boolean

def valueOrder : Value → Value → Ordering
  | .null, .null => .eq
  | .null, _ => .lt
  | _, .null => .gt
  | .boolean a, .boolean b => compare a.toNat b.toNat
  | .int64 a, .int64 b => compare a.toInt b.toInt
  | .uint64 a, .uint64 b => compareU64 a b
  | .double a, .double b => compareDouble a b
  -- A column has one type.
  | _, _ => .eq

def scanCompareRows : List ScanOrder → Row → Row → Ordering
  | [], _, _ => .eq
  | order :: orders, a, b =>
    match valueOrder (a.at order.slot) (b.at order.slot) with
    | .eq => scanCompareRows orders a b
    | compared => if order.descending then compared.swap else compared

/-- The rows that a scan yields. `stable_sort` is taken to permute its input into order and to keep
equal elements as they stood. -/
def scanRows (orders : List ScanOrder) (rows : List Row) : List Row :=
  if orders.isEmpty then rows
  else rows.mergeSort fun a b => scanCompareRows orders a b ≠ .gt

def sameKeys (orders : List ScanOrder) (a b : Row) : Bool :=
  orders.all fun order => valueOrder (a.at order.slot) (b.at order.slot) = .eq

def Row.WellTyped (types : List SqlType) (row : Row) : Prop :=
  List.Forall₂ (fun value type => validValue value type = true) row types

/-- Key columns are columns, of a type that keys may have. -/
def Keyed (types : List SqlType) (orders : List ScanOrder) : Prop :=
  ∀ order ∈ orders, ∃ type, types[order.slot]? = some type ∧ keyType type = true

/-- Numbers, with a place before and a place behind all of them. -/
abbrev Line := WithBot (WithTop ℤ)

def amount : Value → ℤ
  | .int64 value => value.toInt
  | .uint64 value => value.toNat
  | .boolean value => value.toNat
  | .double bits => Wire.magnitudeOrder bits
  | _ => 0

def place (descending : Bool) : Value → Line
  | .null => if descending then ⊤ else ⊥
  | value => if descending then ((-amount value : ℤ) : Line) else ((amount value : ℤ) : Line)

def key (orders : List ScanOrder) (row : Row) : List Line :=
  orders.map fun order => place order.descending (row.at order.slot)

theorem key_append (first second : List ScanOrder) (row : Row) :
    key (first ++ second) row = key first row ++ key second row := map_append

theorem coe_lt_coe {a b : ℤ} : (a : Line) < (b : Line) ↔ a < b :=
  WithBot.coe_lt_coe.trans WithTop.coe_lt_coe

variable {o : Ordering} {type : SqlType} {α : Type}

theorem compares_coe {a b : ℤ} (compares : o.Compares a b) : o.Compares (a : Line) (b : Line) := by
  cases o with
  | lt => exact coe_lt_coe.mpr compares
  | eq => exact congrArg (fun n : ℤ => (n : Line)) compares
  | gt => exact coe_lt_coe.mpr compares

theorem compares_neg {a b : ℤ} (compares : o.Compares a b) : o.swap.Compares (-a) (-b) := by
  cases o with
  | lt => exact neg_lt_neg compares
  | eq => exact congrArg Neg.neg compares
  | gt => exact neg_lt_neg compares

theorem valueOrder_amount {a b : Value} (validA : validValue a type) (validB : validValue b type)
    (someA : a ≠ .null) (someB : b ≠ .null) : (valueOrder a b).Compares (amount a) (amount b) := by
  have natural (a b : Nat) : compare a b = cmp (a : ℤ) (b : ℤ) := by
    rw [Nat.strictMono_cast.cmp_map_eq, cmp_eq_compare]
  have same : valueOrder a b = cmp (amount a) (amount b) := by
    cases a <;> cases b <;>
      simp_all [validValue, valueOrder, amount, compareU64, compareDouble, cmp_eq_compare]
  rw [same]
  exact cmp_compares _ _

theorem place_null (descending : Bool) : place descending .null = if descending then ⊤ else ⊥ := rfl

theorem place_some {value : Value} (some : value ≠ .null) (descending : Bool) :
    place descending value =
      (((if descending then -amount value else amount value) : ℤ) : Line) := by
  cases value <;> cases descending <;> first | rfl | exact absurd rfl some

theorem place_order {a b : Value} (validA : validValue a type) (validB : validValue b type)
    (descending : Bool) :
    (if descending then (valueOrder a b).swap else valueOrder a b).Compares
      (place descending a) (place descending b) := by
  by_cases nullA : a = .null
  · by_cases nullB : b = .null
    · rw [nullA, nullB]
      cases descending <;> rfl
    · have less : valueOrder a b = .lt := by
        rw [nullA]
        cases b <;> first | rfl | exact absurd rfl nullB
      rw [less, nullA, place_null, place_some nullB]
      cases descending
      · exact WithBot.bot_lt_coe _
      · exact WithBot.coe_lt_coe.mpr (WithTop.coe_lt_top _)
  · by_cases nullB : b = .null
    · have more : valueOrder a b = .gt := by
        rw [nullB]
        cases a <;> first | rfl | exact absurd rfl nullA
      rw [more, nullB, place_null, place_some nullA]
      cases descending
      · exact WithBot.bot_lt_coe _
      · exact WithBot.coe_lt_coe.mpr (WithTop.coe_lt_top _)
    · have numbers := valueOrder_amount validA validB nullA nullB
      rw [place_some nullA, place_some nullB]
      cases descending
      · exact compares_coe numbers
      · exact compares_coe (compares_neg numbers)

section Rows

variable {types : List SqlType} {orders : List ScanOrder} {a b row : Row} {rows : List Row}

theorem Row.WellTyped.valid (typed : row.WellTyped types) {slot : Nat}
    (isType : types[slot]? = some type) : validValue (row.at slot) type := by
  induction typed generalizing slot with
  | nil => simp at isType
  | cons valid _ ih =>
    cases slot with
    | zero =>
      obtain rfl := Option.some.inj isType
      exact valid
    | succ slot => exact ih isType

theorem compares_cons [LinearOrder α] {here rest : Ordering} {a b : α} {as bs : List α}
    (first : here.Compares a b) (others : rest.Compares as bs) :
    (here.then rest).Compares (a :: as) (b :: bs) := by
  cases here with
  | lt => exact cons_lt_cons_iff.mpr (.inl first)
  | gt => exact cons_lt_cons_iff.mpr (.inl first)
  | eq =>
    obtain rfl : a = b := first
    cases rest with
    | lt => exact cons_lt_cons_iff.mpr (.inr ⟨rfl, others⟩)
    | eq => exact congrArg (a :: ·) others
    | gt => exact cons_lt_cons_iff.mpr (.inr ⟨rfl, others⟩)

section Keyed

variable (keyed : Keyed types orders) (typedA : a.WellTyped types) (typedB : b.WellTyped types)
include keyed typedA typedB

theorem scanCompareRows_compares :
    (scanCompareRows orders a b).Compares (key orders a) (key orders b) := by
  induction orders with
  | nil => exact rfl
  | cons order orders ih =>
    obtain ⟨type, isType, -⟩ := keyed order mem_cons_self
    have here := place_order (typedA.valid isType) (typedB.valid isType) order.descending
    have rest := ih fun order isKey => keyed order (mem_cons_of_mem _ isKey)
    have both := compares_cons here rest
    rw [key, map_cons, key, map_cons, scanCompareRows]
    cases compared : valueOrder (a.at order.slot) (b.at order.slot) with
    | eq =>
      rw [compared, Ordering.swap, ite_self] at both
      exact both
    | lt =>
      rw [compared] at both
      cases down : order.descending <;> rw [down] at both <;> exact both
    | gt =>
      rw [compared] at both
      cases down : order.descending <;> rw [down] at both <;> exact both

theorem sameKeys_iff : sameKeys orders a b ↔ key orders a = key orders b := by
  rw [sameKeys, all_eq_true, key, key, map_inj_left]
  refine forall₂_congr fun order isKey => ?_
  obtain ⟨type, isType, -⟩ := keyed order isKey
  have here := place_order (typedA.valid isType) (typedB.valid isType) order.descending
  rw [decide_eq_true_eq, ← here.eq_eq]
  cases order.descending
  · rfl
  · rw [if_pos rfl, Ordering.swap_eq_eq]

end Keyed

theorem append_le_iff [LinearOrder α] {a a' b b' : List α} (same : a.length = a'.length) :
    a ++ b ≤ a' ++ b' ↔ a < a' ∨ a = a' ∧ b ≤ b' := by
  induction a generalizing a' with
  | nil =>
    rw [eq_nil_of_length_eq_zero same.symm]
    simp
  | cons x a ih =>
    obtain ⟨y, a', rfl⟩ := exists_cons_of_length_eq_add_one same.symm
    have rest := ih (Nat.succ.inj same)
    rw [cons_append, cons_append, ← not_lt, cons_lt_cons_iff,
      cons_lt_cons_iff, cons.injEq]
    obtain less | rfl | more := lt_trichotomy x y
    · simp [less, less.not_gt, less.ne']
    · simpa using rest
    · simp [more, more.not_gt, more.ne']

/-- Rows in the order of some columns and then of others are in the order of the first, and where
these agree in that of the others. -/
theorem key_append_le {first second : List ScanOrder}
    (le : key (first ++ second) a ≤ key (first ++ second) b) :
    key first a < key first b ∨ key first a = key first b ∧ key second a ≤ key second b := by
  rw [key_append, key_append] at le
  exact (append_le_iff (by rw [key, key, length_map, length_map])).mp le

theorem scanRows_perm (orders : List ScanOrder) (rows : List Row) :
    (scanRows orders rows).Perm rows := by
  rw [scanRows]
  split_ifs
  · exact .refl rows
  · exact mergeSort_perm _ _

/-- On rows of one type the sort sees the order of the keys, which is linear. -/
theorem scanRows_eq (keyed : Keyed types orders) (typed : ∀ row ∈ rows, row.WellTyped types) :
    scanRows orders rows = rows.mergeSort fun a b => key orders a ≤ key orders b := by
  rw [scanRows]
  split_ifs with none
  · rw [isEmpty_iff.mp none, mergeSort_of_pairwise]
    exact pairwise_of_forall fun _ _ => decide_eq_true le_rfl
  · have mapped := map_mergeSort (f := id) (l := rows)
      (r := fun a b => scanCompareRows orders a b ≠ .gt)
      (s := fun a b => key orders a ≤ key orders b) fun a isA b isB => by
        rw [id, id, decide_eq_decide, Ne,
          (scanCompareRows_compares keyed (typed a isA) (typed b isB)).eq_gt, not_lt]
    simpa using mapped

theorem mergeSort_sorted {β : Type} [LinearOrder β] (f : α → β) (xs : List α) :
    (xs.mergeSort fun a b => f a ≤ f b).Pairwise fun a b => f a ≤ f b := by
  have sorted : (xs.mergeSort fun a b => f a ≤ f b).Pairwise
      fun a b => decide (f a ≤ f b) = true := by
    refine pairwise_mergeSort (fun a b c ab bc => ?_) (fun a b => ?_) xs
    · simp only [decide_eq_true_eq] at ab bc ⊢
      exact ab.trans bc
    · simp only [Bool.or_eq_true, decide_eq_true_eq]
      exact le_total _ _
  exact sorted.imp fun h => of_decide_eq_true h

theorem scanRows_sorted (keyed : Keyed types orders) (typed : ∀ row ∈ rows, row.WellTyped types) :
    (scanRows orders rows).Pairwise fun a b => key orders a ≤ key orders b := by
  rw [scanRows_eq keyed typed]
  exact mergeSort_sorted _ _

end Rows

end TurboDb.Query
