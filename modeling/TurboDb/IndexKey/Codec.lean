import TurboDb.Predicate

/-!
Tuple keys of an index: encoding of the indexed columns of a row, and decoding.

A key is one fixed-size cell per part: a NULL marker and the ordered payload of
the value, all complemented for a descending part. Decoding publishes into
caller-owned outputs, as long as their capacity, so that what a failure leaves is
visible. Step charges are left out.
-/

namespace TurboDb

open ByteOrder Words Wire Effect

structure IndexPart where
  column : Nat
  type : SqlType
  descending : Bool
  deriving DecidableEq, Repr

namespace IndexKey

def cellSize : Nat := 9

def nullMarker : UInt8 := 0

def valueMarker : UInt8 := 1

def sizeMax : Nat := 2 ^ 64 - 1

def size (parts : List IndexPart) : Except Failure Nat := do
  reject (parts.length = 0)
    ⟨.invalidArgument, "SQL index key requires a bound definition and size output"⟩
  reject (parts.length > sizeMax / cellSize) ⟨.limitExceeded, "SQL index key size overflow"⟩
  return parts.length * cellSize

def charge (size : Nat) : Except Failure Unit :=
  reject (size > sizeMax / 2) ⟨.limitExceeded, "SQL index key step capacity overflow"⟩

def checkType (part : IndexPart) : Except Failure Unit :=
  reject (assignmentNumeric part.type.kind = false)
    ⟨.invalidArgument, "SQL index key requires a bound numeric type"⟩

def validate (part : IndexPart) (row : List Value) : Except Failure Value := do
  checkType part
  let value ← given row[part.column]?
    ⟨.invalidArgument, "SQL index key column is outside the input row"⟩
  let predicate ← predicateBind .isNull part.type none
  let _ ← predicateEval predicate value none
  return value

def word : Value → UInt64
  | .int64 v => signedOrder v
  | .double bits => doubleOrder bits
  | .uint64 v => v
  | _ => 0

def orient (part : IndexPart) (cell : Bytes) : Bytes :=
  if part.descending then complement cell else cell

def write (part : IndexPart) (value : Value) : Bytes :=
  orient part ((if value.kind = .null then nullMarker else valueMarker) :: orderWrite (word value))

def encode (parts : List IndexPart) (row : List Value) (capacity : Nat) :
    Except Failure (Bytes × Bool) := do
  let size ← size parts
  reject (capacity < size) ⟨.limitExceeded, "SQL index key output capacity exceeded"⟩
  charge size
  let values ← parts.mapM fun part => validate part row
  return ((parts.zipWith write values).flatten, values.any fun value => value.kind = .null)

/-- Marker and payload of a cell as stored for an ascending part. -/
def marker (part : IndexPart) (cell : Bytes) : UInt8 := (orient part cell).headD 0

def payload (part : IndexPart) (cell : Bytes) : UInt64 := orderRead (orient part cell).tail

def read (part : IndexPart) (cell : Bytes) : Value :=
  if marker part cell = nullMarker then .null
  else match part.type.kind with
    | .double => .double (orderDouble (payload part cell))
    | .int64 => .int64 (orderSigned (payload part cell))
    | _ => .uint64 (payload part cell)

/-- Whether a cell is a canonical NULL; fails on anything that is not canonical. -/
def checkCell (part : IndexPart) (cell : Bytes) : Except Failure Bool := do
  checkType part
  let marker := marker part cell
  let word := payload part cell
  reject (marker ≠ nullMarker ∧ marker ≠ valueMarker)
    ⟨.datastoreError, "SQL index key has an invalid NULL marker"⟩
  reject (marker = nullMarker ∧ (part.type.nullable = false ∨ word ≠ 0))
    ⟨.datastoreError, "SQL index key has an invalid NULL payload or nullability"⟩
  reject (marker ≠ nullMarker ∧ part.type.kind = .double ∧
      (isFinite (orderDouble word) = false ∨ isZero (orderDouble word) = true ∧ word ≠ sign))
    ⟨.datastoreError, "SQL index key has a nonfinite or noncanonical DOUBLE payload"⟩
  return marker = nullMarker

def cells : List IndexPart → Bytes → List Bytes
  | [], _ => []
  | _ :: parts, data => data.take cellSize :: cells parts (data.drop cellSize)

structure Output where
  values : List Value
  containsNull : Bool

/-- All checks of a decoding and what it is about to publish. -/
def decodeValues (parts : List IndexPart) (data : Bytes) (capacity : Nat) :
    Except Failure (List Value × Bool) := do
  let expected ← size parts
  reject (data.length ≠ expected)
    ⟨.datastoreError, "SQL index key length does not match its definition"⟩
  reject (capacity < parts.length)
    ⟨.limitExceeded, "SQL index key value output capacity exceeded"⟩
  charge expected
  let nulls ← (parts.zip (cells parts data)).mapM fun (part, cell) => checkCell part cell
  return (parts.zipWith read (cells parts data), nulls.any id)

def decode (parts : List IndexPart) (data : Bytes) : EStateM Failure Output Unit := do
  let out ← get
  match decodeValues parts data out.values.length with
  | .error failure => throw failure
  | .ok (values, null) =>
    set { values := values ++ out.values.drop parts.length, containsNull := null : Output }

section Encoding

variable {part : IndexPart} {parts : List IndexPart} {row : List Value}

/-- A definition the binder produced: numeric parts, at least one, and a key
whose byte and step counts fit a machine word. -/
structure Bound (parts : List IndexPart) : Prop where
  nonempty : parts ≠ []
  numeric : ∀ part ∈ parts, assignmentNumeric part.type.kind = true
  fits : parts.length * cellSize ≤ sizeMax / 2

/-- The key column of the part holds a value of the part's type. -/
def ValidAt (row : List Value) (part : IndexPart) : Prop :=
  ∃ value, row[part.column]? = some value ∧ validValue value part.type = true

def keyValue (row : List Value) (part : IndexPart) : Value := row[part.column]?.getD .null

theorem size_eq_ok {n : Nat} :
    size parts = .ok n ↔
      parts ≠ [] ∧ parts.length ≤ sizeMax / cellSize ∧ parts.length * cellSize = n := by
  simp [size, List.length_eq_zero_iff]

theorem Bound.size_eq (bound : Bound parts) : size parts = .ok (parts.length * cellSize) := by
  refine size_eq_ok.mpr ⟨bound.nonempty, ?_, rfl⟩
  have := bound.fits
  simp only [cellSize, sizeMax] at this ⊢
  omega

theorem validate_eq_ok {value : Value} :
    validate part row = .ok value ↔
      assignmentNumeric part.type.kind ∧ row[part.column]? = some value ∧
        validValue value part.type := by
  simp only [validate, checkType, bind_eq_ok, reject_eq_ok, given_eq_ok, pure_eq_ok,
    predicateBind_isNull]
  constructor
  · rintro ⟨-, numeric, _, found, _, ⟨-, rfl⟩, _, evaluated, rfl⟩
    exact ⟨by simpa using numeric, found, (predicateEval_isNull.mp evaluated).1⟩
  · rintro ⟨numeric, found, typed⟩
    exact ⟨(), by simpa using numeric, value, found, _, ⟨validType_of_numeric numeric, rfl⟩, _,
      predicateEval_isNull.mpr ⟨typed, validText_of_numeric numeric typed, rfl⟩, rfl⟩

def keyBytes (parts : List IndexPart) (row : List Value) : Bytes :=
  parts.flatMap fun part => write part (keyValue row part)

def containsNull (parts : List IndexPart) (row : List Value) : Bool :=
  parts.any fun part => (keyValue row part).kind = .null

theorem mapM_validate_eq_ok {values : List Value} :
    (parts.mapM fun part => validate part row) = .ok values ↔
      (∀ part ∈ parts, assignmentNumeric part.type.kind ∧ ValidAt row part) ∧
        values = parts.map (keyValue row) := by
  rw [mapM_eq_ok]
  induction parts generalizing values with
  | nil => simp
  | cons part parts ih =>
    simp only [List.forall₂_cons_left_iff, ih]
    simp only [validate_eq_ok, List.forall_mem_cons, List.map_cons]
    constructor
    · rintro ⟨value, _, ⟨numeric, found, typed⟩, ⟨valid, rfl⟩, rfl⟩
      exact ⟨⟨⟨numeric, value, found, typed⟩, valid⟩, by simp [keyValue, found]⟩
    · rintro ⟨⟨⟨numeric, value, found, typed⟩, valid⟩, rfl⟩
      exact ⟨value, _, ⟨numeric, found, typed⟩, ⟨valid, rfl⟩, by simp [keyValue, found]⟩

/-- Encoding succeeds exactly on bound definitions, enough room and valid rows. -/
theorem encode_eq_ok {capacity : Nat} {bytes : Bytes} {null : Bool} :
    encode parts row capacity = .ok (bytes, null) ↔
      Bound parts ∧ parts.length * cellSize ≤ capacity ∧ (∀ part ∈ parts, ValidAt row part) ∧
        bytes = keyBytes parts row ∧ null = containsNull parts row := by
  have published : ∀ values, values = parts.map (keyValue row) →
      ((parts.zipWith write values).flatten, values.any fun value => value.kind = .null) =
        (keyBytes parts row, containsNull parts row) := by
    rintro _ rfl
    rw [List.zipWith_map_right, List.zipWith_self, keyBytes, containsNull, List.any_map,
      List.flatMap_def]
    rfl
  simp only [encode, charge, bind_eq_ok, size_eq_ok, reject_eq_ok, pure_eq_ok,
    mapM_validate_eq_ok]
  constructor
  · rintro ⟨_, ⟨nonempty, -, rfl⟩, -, room, -, steps, values, ⟨valid, hvalues⟩, hresult⟩
    rw [published values hvalues, Prod.mk.injEq] at hresult
    exact ⟨⟨nonempty, fun part hpart => (valid part hpart).1, by omega⟩, by omega,
      fun part hpart => (valid part hpart).2, hresult.1.symm, hresult.2.symm⟩
  · rintro ⟨bound, room, valid, rfl, rfl⟩
    obtain ⟨nonempty, small, -⟩ := size_eq_ok.mp bound.size_eq
    have steps := bound.fits
    exact ⟨_, ⟨nonempty, small, rfl⟩, (), by omega, (), by omega, _,
      ⟨fun part hpart => ⟨bound.numeric part hpart, valid part hpart⟩, rfl⟩, published _ rfl⟩

@[simp] theorem length_write (part : IndexPart) (value : Value) :
    (write part value).length = cellSize := by
  simp only [write, orient]
  split <;> simp [cellSize]

theorem length_keyBytes (parts : List IndexPart) (row : List Value) :
    (keyBytes parts row).length = parts.length * cellSize := by
  simp [keyBytes, List.length_flatMap]

end Encoding

end IndexKey

end TurboDb
