import TurboDb.IndexKey.Codec

/-!
The byte order of encoded keys is the SQL order of the key tuples.

The SQL order of a tuple is stated on its own: NULL first, then the numeric order,
each descending part reversed, parts from the left. Cells compare like their
values, and tuples follow because all cells have one width.
-/

namespace TurboDb.IndexKey

open ByteOrder Words Wire

variable {a b : Value} {part : IndexPart}

/-- SQL order of two values of one numeric type: NULL before everything, both
zeros of a binary64 equal, binary64 patterns by sign and magnitude. -/
def keyOrder : Value → Value → Ordering
  | .null, .null => .eq
  | .null, _ => .lt
  | _, .null => .gt
  | .int64 a, .int64 b => compare a.toInt b.toInt
  | .uint64 a, .uint64 b => compare a.toNat b.toNat
  | .double a, .double b => compare (magnitudeOrder a) (magnitudeOrder b)
  | _, _ => .eq

def partOrder (part : IndexPart) (a b : Value) : Ordering :=
  if part.descending then (keyOrder a b).swap else keyOrder a b

/-- Lexicographic SQL order of the key tuples of two rows. -/
def tupleOrder : List IndexPart → List Value → List Value → Ordering
  | [], _, _ => .eq
  | part :: parts, r, s =>
    (partOrder part (keyValue r part) (keyValue s part)).then (tupleOrder parts r s)

/-- Both NULL, or SQL `=` holds: the comparison the engine evaluates is equality. -/
def SqlEqual (part : IndexPart) (a b : Value) : Prop :=
  a = .null ∧ b = .null ∨
    a ≠ .null ∧ b ≠ .null ∧ compareValues a b (part.type.kind = .double) = .eq

variable {type : SqlType} {parts : List IndexPart} {r s : List Value}

/-- The two values a numeric part can hold besides NULL have its kind. -/
theorem numeric_cases {value : Value} (numeric : assignmentNumeric type.kind)
    (valid : validValue value type) :
    value = .null ∨ (∃ v, value = .int64 v ∧ type.kind = .int64) ∨
      (∃ v, value = .uint64 v ∧ type.kind = .uint64) ∨
        ∃ bits, value = .double bits ∧ type.kind = .double := by
  cases value <;> simp_all [validValue, assignmentNumeric]

theorem compare_signedOrder (a b : Int64) :
    compare (signedOrder a).toNat (signedOrder b).toNat = compare a.toInt b.toInt := by
  have ha := toNat_signedOrder a
  have hb := toNat_signedOrder b
  rcases lt_trichotomy a.toInt b.toInt with h | h | h
  · rw [compare_lt_iff_lt.mpr h]
    exact compare_lt_iff_lt.mpr (by omega)
  · rw [compare_eq_iff_eq.mpr h]
    exact compare_eq_iff_eq.mpr (by omega)
  · rw [compare_gt_iff_gt.mpr h]
    exact compare_gt_iff_gt.mpr (by omega)

/-- Markers decide between NULL and a value, payloads between values. -/
theorem memcmp_cell (numeric : assignmentNumeric type.kind) (ha : validValue a type)
    (hb : validValue b type) :
    memcmp ((if a.kind = .null then nullMarker else valueMarker) :: orderWrite (word a))
      ((if b.kind = .null then nullMarker else valueMarker) :: orderWrite (word b)) =
      keyOrder a b := by
  have null_value : compare nullMarker valueMarker = .lt := by decide
  have value_null : compare valueMarker nullMarker = .gt := by decide
  simp only [memcmp, memcmp_orderWrite]
  rcases numeric_cases numeric ha with rfl | ⟨v, rfl, hk⟩ | ⟨v, rfl, hk⟩ | ⟨v, rfl, hk⟩ <;>
  rcases numeric_cases numeric hb with rfl | ⟨w, rfl, hk'⟩ | ⟨w, rfl, hk'⟩ | ⟨w, rfl, hk'⟩ <;>
  first
  | exact absurd (hk.symm.trans hk') (by decide)
  | simp [keyOrder, Value.kind, word, null_value, value_null, compare_signedOrder,
      compare_doubleOrder]

theorem memcmp_write (numeric : assignmentNumeric part.type.kind)
    (ha : validValue a part.type) (hb : validValue b part.type) :
    memcmp (write part a) (write part b) = partOrder part a b := by
  simp only [write, orient, partOrder]
  split
  · rw [memcmp_complement (by simp), memcmp_cell numeric ha hb]
  · exact memcmp_cell numeric ha hb

theorem memcmp_keyBytes (numeric : ∀ part ∈ parts, assignmentNumeric part.type.kind)
    (hr : ∀ part ∈ parts, validValue (keyValue r part) part.type)
    (hs : ∀ part ∈ parts, validValue (keyValue s part) part.type) :
    memcmp (keyBytes parts r) (keyBytes parts s) = tupleOrder parts r s := by
  induction parts with
  | nil => rfl
  | cons part parts ih =>
    simp only [List.forall_mem_cons] at numeric hr hs
    simp only [keyBytes, List.flatMap_cons, tupleOrder] at ih ⊢
    rw [memcmp_append (by simp), memcmp_write numeric.1 hr.1 hs.1,
      ih numeric.2 hr.2 hs.2]

theorem partOrder_eq_iff (numeric : assignmentNumeric part.type.kind)
    (ha : validValue a part.type) (hb : validValue b part.type) :
    partOrder part a b = .eq ↔ SqlEqual part a b := by
  have swap : partOrder part a b = .eq ↔ keyOrder a b = .eq := by
    simp only [partOrder]
    split
    · rw [Ordering.swap_eq_eq]
    · rfl
  rcases numeric_cases numeric ha with rfl | ⟨v, rfl, hk⟩ | ⟨v, rfl, hk⟩ | ⟨v, rfl, hk⟩ <;>
  rcases numeric_cases numeric hb with rfl | ⟨w, rfl, hk'⟩ | ⟨w, rfl, hk'⟩ | ⟨w, rfl, hk'⟩ <;>
  first
  | exact absurd (hk.symm.trans hk') (by decide)
  | simp_all [keyOrder, SqlEqual, compareValues, compareU64, compareDouble, numericRealValue]

theorem tupleOrder_eq_iff (numeric : ∀ part ∈ parts, assignmentNumeric part.type.kind)
    (hr : ∀ part ∈ parts, validValue (keyValue r part) part.type)
    (hs : ∀ part ∈ parts, validValue (keyValue s part) part.type) :
    tupleOrder parts r s = .eq ↔
      ∀ part ∈ parts, SqlEqual part (keyValue r part) (keyValue s part) := by
  induction parts with
  | nil => simp [tupleOrder]
  | cons part parts ih =>
    simp only [List.forall_mem_cons] at numeric hr hs
    rw [tupleOrder, Ordering.then_eq_eq, partOrder_eq_iff numeric.1 hr.1 hs.1,
      ih numeric.2 hr.2 hs.2, List.forall_mem_cons]

theorem ValidAt.valid {row : List Value} (h : ValidAt row part) :
    validValue (keyValue row part) part.type := by
  obtain ⟨value, found, typed⟩ := h
  simpa [keyValue, found] using typed

/-- Two rows valid for a bound definition encode, the byte order of the keys is
the SQL order of the tuples, and equal bytes mean SQL-equal parts. -/
theorem encode_order_embedding (parts : List IndexPart) (bound : Bound parts) (capacity : Nat)
    (room : parts.length * cellSize ≤ capacity) (r s : List Value)
    (hr : ∀ part ∈ parts, ValidAt r part) (hs : ∀ part ∈ parts, ValidAt s part) :
    ∃ a b : Bytes, ∃ aNull bNull : Bool,
      encode parts r capacity = .ok (a, aNull) ∧ encode parts s capacity = .ok (b, bNull) ∧
      memcmp a b = tupleOrder parts r s ∧
      (a = b ↔ ∀ part ∈ parts, SqlEqual part (keyValue r part) (keyValue s part)) := by
  have hr' := fun part hpart => (hr part hpart).valid
  have hs' := fun part hpart => (hs part hpart).valid
  have order := memcmp_keyBytes bound.numeric hr' hs'
  refine ⟨_, _, _, _, encode_eq_ok.mpr ⟨bound, room, hr, rfl, rfl⟩,
    encode_eq_ok.mpr ⟨bound, room, hs, rfl, rfl⟩, order, ?_⟩
  rw [← memcmp_eq_iff, order, tupleOrder_eq_iff bound.numeric hr' hs']

/-- A nullable ascending integer before a descending real: NULL against a
number, and both zeros. -/
theorem encode_order_embedding_null_and_zero :
    ∃ a b : Bytes, ∃ aNull bNull : Bool,
      encode [⟨0, ⟨.int64, true⟩, false⟩, ⟨1, ⟨.double, false⟩, true⟩] [.null, .double 0] 18 =
        .ok (a, aNull) ∧
      encode [⟨0, ⟨.int64, true⟩, false⟩, ⟨1, ⟨.double, false⟩, true⟩]
        [.int64 (-1), .double sign] 18 = .ok (b, bNull) ∧
      memcmp a b = .lt :=
  let ⟨a, b, aNull, bNull, ha, hb, order, _⟩ :=
    encode_order_embedding [⟨0, ⟨.int64, true⟩, false⟩, ⟨1, ⟨.double, false⟩, true⟩]
      ⟨by decide, by decide, by decide⟩ 18 (by decide) [.null, .double 0]
      [.int64 (-1), .double sign] (by simp [ValidAt, validValue, isFinite])
      (by simp [ValidAt, validValue]; decide)
  ⟨a, b, aNull, bNull, ha, hb, order⟩

end TurboDb.IndexKey
