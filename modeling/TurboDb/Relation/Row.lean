import TurboDb.Schema
import TurboDb.Library.Format

/-!
Stored rows: the Data key of a row and its record.

The key is a relation scope of seventeen bytes and the ordered primary key word;
the record repeats the row as one fixed-size cell per column. The scope is never
inspected when a row is decoded, so a row is re-encoded under the scope of the key
it was found at.
-/

namespace TurboDb.Relation

open ByteOrder Words Wire Effect Format List

def headerSize : Nat := 8

def cellSize : Nat := 9

def prefixBytes : Nat := 17

def keyBytes : Nat := 25

/-- The bytes `RR`, the record version and a zero. -/
def magic : Bytes := [82, 82, 1, 0]

def relationPrefix (id : UInt64) : Bytes := 3 :: (write 8 id ++ write 8 1)

def primaryWord : Value → UInt64
  | .int64 v => signedOrder v
  | .uint64 v => v
  | _ => 0

def relationPrimary (value : Value) : Bytes := orderWrite (primaryWord value)

def rowSize (count maxBytes : Nat) : Except Failure Nat := do
  reject (count = 0 ∨ count > 2 ^ 32 - 1 ∨ count > (IndexKey.sizeMax - headerSize) / cellSize ∨
      headerSize + count * cellSize > maxBytes)
    ⟨.limitExceeded, "SQL relation row exceeds record capacity"⟩
  return headerSize + count * cellSize

def relationValidate (type : SqlType) (value : Value) : Except Failure Unit := do
  let predicate ← predicateBind .isNull type none
  let _ ← predicateEval predicate value none

def cellBits : Value → UInt64
  | .int64 v => v.toUInt64
  | .uint64 v => v
  | .double bits => bits
  | _ => 0

def encodeCell (value : Value) : Bytes :=
  (if value.kind = .null then 1 else 0) :: write 8 (cellBits value)

def relationEncode (values : List Value) : Bytes :=
  magic ++ write 4 (UInt64.ofNat values.length) ++ values.flatMap encodeCell

/-- Key and record of one complete row, one value per column; the record space
must be exact. -/
def encodeRecord (columns : List Column) (primary : Nat) (values : List Value)
    (scope : Bytes) (capacity : Nat) : Except Failure (Bytes × Bytes) := do
  let key ← given values[primary]? ⟨.invalidArgument, "invalid row record encoding inputs"⟩
  reject (columns.length ≤ primary ∨ capacity ≤ keyBytes ∨ integral key.kind = false)
    ⟨.invalidArgument, "invalid row record encoding inputs"⟩
  let size ← rowSize columns.length (capacity - keyBytes)
  reject (size ≠ capacity - keyBytes)
    ⟨.invalidArgument, "row record capacity must be exact"⟩
  (columns.zip values).forM fun (column, value) => relationValidate column.type value
  return (scope ++ relationPrimary key, relationEncode values)

/-- The signed number with the given two's complement bits. -/
def signedBits (bits : UInt64) : Int64 :=
  if bits ≤ 0x7FFFFFFFFFFFFFFF then bits.toInt64 else -1 - (max - bits).toInt64

def cellValue (kind : Kind) (flag : UInt8) (bits : UInt64) : Except Failure Value :=
  if flag ≠ 0 then return .null else
    match kind with
    | .int64 => return .int64 (signedBits bits)
    | .uint64 => return .uint64 bits
    | .double => return .double bits
    | _ => throw ⟨.datastoreError, "SQL relation unsupported persisted type"⟩

/-- A stored value of the wrong type is corruption. -/
def persisted (type : SqlType) (value : Value) : Except Failure Value :=
  match relationValidate type value with
  | .ok _ => return value
  | .error failure => throw (if failure.status = .typeError then
    ⟨.datastoreError, "SQL relation persisted value violates schema"⟩ else failure)

def decodeCell (type : SqlType) (cell : Bytes) : Except Failure Value := do
  let flag := cell.headD 0
  let bits := read cell.tail
  reject (flag > 1 ∨ flag ≠ 0 ∧ bits ≠ 0)
    ⟨.datastoreError, "SQL relation invalid NULL encoding"⟩
  let value ← cellValue type.kind flag bits
  persisted type value

/-- The cells from column `i` on, the primary one checked against the key. -/
def decodeCells (primary : Nat) (key : Bytes) :
    Nat → List Column → Bytes → Except Failure (List Value)
  | _, [], _ => return []
  | i, column :: columns, data => do
    let value ← decodeCell column.type (data.take cellSize)
    reject (i = primary ∧ relationPrimary value ≠ key.drop prefixBytes)
      ⟨.datastoreError, "SQL relation primary key differs from stored row"⟩
    let rest ← decodeCells primary key (i + 1) columns (data.drop cellSize)
    return value :: rest

def relationDecode (columns : List Column) (primary : Nat) (data key : Bytes) :
    Except Failure (List Value) := do
  reject (key.length ≠ keyBytes ∨ data.length ≠ headerSize + columns.length * cellSize ∨
      data.take 4 ≠ magic ∨ (read ((data.drop 4).take 4)).toNat ≠ columns.length)
    ⟨.datastoreError, "SQL relation invalid row header or length"⟩
  decodeCells primary key 0 columns (data.drop headerSize)

variable {failure : Failure} {i : Nat}

section Cell

variable {type : SqlType} {value : Value} {cell : Bytes}

theorem relationValidate_eq_ok (numeric : assignmentNumeric type.kind) :
    relationValidate type value = .ok () ↔ validValue value type := by
  simp only [relationValidate, bind_eq_ok, pure_eq_ok, predicateBind_isNull]
  constructor
  · rintro ⟨_, ⟨-, rfl⟩, _, evaluated, -⟩
    exact (predicateEval_isNull.mp evaluated).1
  · intro typed
    exact ⟨_, ⟨validType_of_numeric numeric, rfl⟩, _,
      predicateEval_isNull.mpr ⟨typed, validText_of_numeric numeric typed, rfl⟩, trivial⟩

theorem relationValidate_error_status (numeric : assignmentNumeric type.kind)
    (h : relationValidate type value = .error failure) : failure.status = .typeError := by
  have bound := predicateBind_isNull.mpr ⟨validType_of_numeric numeric, rfl⟩
  simp only [relationValidate, bound, bind_eq_error, Except.ok.injEq, pure_ne_error,
    reduceCtorEq, false_or] at h
  obtain ⟨_, rfl, h | ⟨_, -, h⟩⟩ := h
  · exact predicateEval_isNull_error h
  · exact h.elim

theorem signedBits_eq (bits : UInt64) : signedBits bits = bits.toInt64 := by
  have complement : -1 - (max - bits).toInt64 = bits.toInt64 := by
    rw [UInt64.toInt64_sub, show max.toInt64 = -1 from rfl]
    grind
  rw [signedBits, complement, ite_self]

@[simp] theorem length_encodeCell (value : Value) : (encodeCell value).length = cellSize := by
  simp [encodeCell, cellSize]

theorem persisted_eq_ok {stored : Value} (numeric : assignmentNumeric type.kind) :
    persisted type stored = .ok value ↔ validValue stored type ∧ stored = value := by
  rw [← relationValidate_eq_ok numeric, persisted]
  cases relationValidate type stored <;> simp

theorem encodeCell_of_cellValue {kind : Kind} {flag : UInt8} {bits : UInt64}
    (canonical : ¬(flag > 1 ∨ flag ≠ 0 ∧ bits ≠ 0))
    (h : cellValue kind flag bits = .ok value) : encodeCell value = flag :: write 8 bits := by
  rw [not_or, not_and, not_not] at canonical
  obtain ⟨small, payload⟩ := canonical
  by_cases hflag : flag = 0
  · subst hflag
    cases kind <;> simp only [cellValue, ne_eq, not_true_eq_false, if_false, pure_eq_ok,
      throw_ne_ok] at h <;> subst h <;>
      simp [encodeCell, cellBits, Value.kind, signedBits_eq]
  · have one : flag = 1 := by
      rw [← UInt8.toNat_inj] at hflag ⊢
      simp only [gt_iff_lt, UInt8.lt_iff_toNat_lt] at small
      simp only [UInt8.reduceToNat] at *
      omega
    simp only [cellValue, ne_eq, hflag, not_false_eq_true, if_true, pure_eq_ok] at h
    rw [← h, one, payload hflag]
    rfl

section Numeric

variable (numeric : assignmentNumeric type.kind)
include numeric

theorem cellValue_encodeCell (valid : validValue value type) :
    cellValue type.kind (if value.kind = .null then 1 else 0) (cellBits value) = .ok value := by
  cases value <;> simp_all [validValue, cellValue, Value.kind, cellBits, signedBits_eq,
    assignmentNumeric]

/-- A cell of full width reads as a value exactly when it is the cell written
for that value and the value has the column's type. -/
theorem decodeCell_eq_ok (span : cell.length = cellSize) :
    decodeCell type cell = .ok value ↔
      validValue value type ∧ cell = encodeCell value := by
  obtain ⟨flag, rest, rfl⟩ : ∃ flag rest, cell = flag :: rest := by
    cases cell with
    | nil => simp [cellSize] at span
    | cons flag rest => exact ⟨flag, rest, rfl⟩
  have hwrite : write 8 (read rest) = rest :=
    write_read_of_length (Nat.le_refl 8) (by simpa [cellSize] using span)
  simp only [decodeCell, bind_eq_ok, reject_eq_ok, persisted_eq_ok numeric]
  simp only [headD_cons, tail_cons]
  constructor
  · rintro ⟨-, canonical, stored, hvalue, valid, rfl⟩
    rw [encodeCell_of_cellValue canonical hvalue, hwrite]
    exact ⟨valid, rfl⟩
  · rintro ⟨valid, hcell⟩
    obtain ⟨rfl, rfl⟩ := cons.inj hcell
    rw [read_write_eight]
    refine ⟨(), ?_, value, cellValue_encodeCell numeric valid, valid, rfl⟩
    cases value <;> simp_all [validValue, Value.kind, cellBits]

theorem decodeCell_error_status (h : decodeCell type cell = .error failure) :
    failure.status = .datastoreError := by
  simp only [decodeCell, bind_eq_error, reject_eq_error] at h
  obtain ⟨-, rfl⟩ | ⟨_, -, h | ⟨stored, -, h⟩⟩ := h
  · rfl
  · unfold cellValue at h
    grind [throw_eq_error, pure_ne_error]
  · unfold persisted at h
    cases validated : relationValidate type stored with
    | ok => simp [validated] at h
    | error cause =>
      have := relationValidate_error_status numeric validated
      simp only [validated, this, if_true, throw_eq_error] at h
      rw [← h]

end Numeric

end Cell

section Row

variable {columns : List Column} {primary : Nat} {key data : Bytes} {values : List Value}

def TypedRow (columns : List Column) (values : List Value) : Prop :=
  List.Forall₂ (fun column value => validValue value column.type = true) columns values

section Numeric

variable (numeric : ∀ column ∈ columns, assignmentNumeric column.type.kind)
include numeric

/-- The cells of a record are those written for a typed row whose value at the
primary position, counted from `i`, is the one named by the key. -/
theorem decodeCells_eq_ok (span : data.length = columns.length * cellSize) :
    decodeCells primary key i columns data = .ok values ↔
      TypedRow columns values ∧ data = values.flatMap encodeCell ∧
        ∀ j value, values[j]? = some value → i + j = primary →
          relationPrimary value = key.drop prefixBytes := by
  induction columns generalizing i data values with
  | nil =>
    simp only [length_nil, zero_mul, length_eq_zero_iff] at span
    simp only [decodeCells, pure_eq_ok, TypedRow, forall₂_nil_left_iff, span]
    constructor
    · rintro rfl
      simp
    · rintro ⟨rfl, -⟩
      rfl
  | cons column columns ih =>
    rw [length_cons, Nat.succ_mul] at span
    rw [forall_mem_cons] at numeric
    have head : (data.take cellSize).length = cellSize := by
      rw [length_take]
      omega
    have tail : (data.drop cellSize).length = columns.length * cellSize := by
      rw [length_drop]
      omega
    simp only [decodeCells, bind_eq_ok, reject_eq_ok, pure_eq_ok,
      decodeCell_eq_ok numeric.1 head, ih numeric.2 tail]
    constructor
    · rintro ⟨value, ⟨valid, cell⟩, -, named, rest, ⟨typed, cells, primaries⟩, rfl⟩
      refine ⟨.cons valid typed, ?_, ?_⟩
      · rw [flatMap_cons, ← cell, ← cells, take_append_drop]
      · intro j found hj position
        cases j with
        | zero =>
          obtain rfl : value = found := by simpa using hj
          exact not_not.mp (not_and.mp named position)
        | succ j => exact primaries j found hj (by omega)
    · rintro ⟨typed, cells, primaries⟩
      cases typed with
      | @cons _ value _ rest valid typed =>
        rw [flatMap_cons] at cells
        refine ⟨value, ⟨valid, ?_⟩, (), ?_, rest, ⟨typed, ?_, ?_⟩, rfl⟩
        · rw [cells, take_left' (length_encodeCell value)]
        · rintro ⟨position, differs⟩
          exact differs (primaries 0 value rfl position)
        · rw [cells, drop_left' (length_encodeCell value)]
        · intro j found hj position
          exact primaries (j + 1) found hj (by omega)

theorem decodeCells_error_status (h : decodeCells primary key i columns data = .error failure) :
    failure.status = .datastoreError := by
  induction columns generalizing i data with
  | nil => simp [decodeCells] at h
  | cons column columns ih =>
    rw [forall_mem_cons] at numeric
    simp only [decodeCells, bind_eq_error, reject_eq_error, pure_ne_error, and_false,
      exists_false, or_false] at h
    obtain h | ⟨_, -, ⟨-, rfl⟩ | ⟨_, -, h⟩⟩ := h
    · exact decodeCell_error_status numeric.1 h
    · rfl
    · exact ih numeric.2 h

end Numeric

theorem length_relationEncode (values : List Value) :
    (relationEncode values).length = headerSize + values.length * cellSize := by
  simp only [relationEncode, length_append, length_flatMap_fixed length_encodeCell,
    length_write]
  rfl

/-- The record of a typed row is the only one that decodes to it, and only
under a key that ends in its primary word. -/
theorem relationDecode_eq_ok (count : columns.length < 2 ^ 32)
    (numeric : ∀ column ∈ columns, assignmentNumeric column.type.kind) :
    relationDecode columns primary data key = .ok values ↔
      key.length = keyBytes ∧ TypedRow columns values ∧ data = relationEncode values ∧
        ∀ value, values[primary]? = some value →
          relationPrimary value = key.drop prefixBytes := by
  simp only [relationDecode, bind_eq_ok, reject_eq_ok, not_or, not_not]
  constructor
  · rintro ⟨-, ⟨width, span, hmagic, hcount⟩, cells⟩
    have body : (data.drop headerSize).length = columns.length * cellSize := by
      rw [length_drop]
      omega
    obtain ⟨typed, hcells, primaries⟩ := (decodeCells_eq_ok numeric body).mp cells
    refine ⟨width, typed, ?_, fun value found => primaries primary value found (zero_add _)⟩
    have stored : (data.drop 4).take 4 = write 4 (UInt64.ofNat values.length) := by
      have four : ((data.drop 4).take 4).length = 4 := by
        simp only [length_take, length_drop, headerSize] at span ⊢
        omega
      rw [← typed.length_eq, ← hcount, UInt64.ofNat_toNat,
        write_read_of_length (by decide) four]
    rw [relationEncode, ← hcells, ← stored, ← hmagic, ← take_add, headerSize,
      take_append_drop]
  · rintro ⟨width, typed, rfl, primaries⟩
    have hlength := typed.length_eq
    refine ⟨(), ⟨width, ?_, ?_, ?_⟩, (decodeCells_eq_ok numeric ?_).mpr ⟨typed, ?_, ?_⟩⟩
    · rw [length_relationEncode, hlength]
    · rfl
    · rw [hlength] at count ⊢
      exact toNat_read_write (show 4 ≤ 8 by decide) count
    · rw [length_drop, length_relationEncode, hlength, Nat.add_sub_cancel_left]
    · rfl
    · intro j value found position
      exact primaries value (by rwa [← position, zero_add])

theorem relationDecode_error_status
    (numeric : ∀ column ∈ columns, assignmentNumeric column.type.kind)
    (h : relationDecode columns primary data key = .error failure) :
    failure.status = .datastoreError := by
  simp only [relationDecode, bind_eq_error, reject_eq_error] at h
  obtain ⟨-, rfl⟩ | ⟨_, -, h⟩ := h
  · rfl
  · exact decodeCells_error_status numeric h

theorem forM_relationValidate_eq_ok (hlength : columns.length = values.length)
    (numeric : ∀ column ∈ columns, assignmentNumeric column.type.kind) :
    ((columns.zip values).forM fun (column, value) => relationValidate column.type value) =
      .ok () ↔ TypedRow columns values := by
  rw [TypedRow, forall₂_iff_zip, forM_eq_ok]
  constructor
  · intro valid
    exact ⟨hlength, fun member => (relationValidate_eq_ok
      (numeric _ (of_mem_zip member).1)).mp (valid _ member)⟩
  · rintro ⟨-, valid⟩ ⟨column, value⟩ member
    exact (relationValidate_eq_ok (numeric _ (of_mem_zip member).1)).mpr (valid member)

theorem rowSize_eq_ok {count maxBytes size : Nat} (positive : 0 < count) (small : count < 2 ^ 32) :
    rowSize count maxBytes = .ok size ↔
      headerSize + count * cellSize ≤ maxBytes ∧ size = headerSize + count * cellSize := by
  simp only [rowSize, bind_eq_ok, reject_eq_ok, pure_eq_ok, exists_const]
  have fits : ¬count > (IndexKey.sizeMax - headerSize) / cellSize := by
    have : (IndexKey.sizeMax - headerSize) / cellSize = 2049638230412172400 := by decide
    omega
  simp only [fits, false_or, not_or, not_lt]
  constructor
  · rintro ⟨⟨-, -, room⟩, rfl⟩
    exact ⟨room, rfl⟩
  · rintro ⟨room, rfl⟩
    exact ⟨⟨by omega, by omega, room⟩, rfl⟩

end Row

section Table

variable {table : TableDefinition} {values : List Value} {scope key data : Bytes}

theorem TypedRow.primary (wellFormed : table.WellFormed)
    (typed : TypedRow table.columns values) :
    ∃ value, values[table.primaryKey]? = some value ∧ integral value.kind := by
  obtain ⟨column, found, kind, required⟩ := wellFormed.key
  obtain ⟨inside, rfl⟩ := List.getElem?_eq_some_iff.mp found
  have inside' : table.primaryKey < values.length := typed.length_eq ▸ inside
  have valid := (forall₂_iff_get.mp typed).2 table.primaryKey inside inside'
  obtain null | same := validValue_kind valid
  · simp_all [validValue]
  · simp_all

/-- A complete row is encoded exactly when it is typed and the space is exact,
into its own key and record. -/
theorem encodeRecord_eq_ok {capacity : Nat} (wellFormed : table.WellFormed)
    (hlength : table.columns.length = values.length) :
    encodeRecord table.columns table.primaryKey values scope capacity = .ok (key, data) ↔
      capacity = keyBytes + (headerSize + table.columns.length * cellSize) ∧
        TypedRow table.columns values ∧ data = relationEncode values ∧
        ∃ value, values[table.primaryKey]? = some value ∧ key = scope ++ relationPrimary value := by
  have numeric := fun column member => (wellFormed.columns column member).numeric
  obtain ⟨_, found, -, -⟩ := wellFormed.key
  have inside := (List.getElem?_eq_some_iff.mp found).1
  simp only [encodeRecord, bind_eq_ok, given_eq_ok, reject_eq_ok, pure_eq_ok,
    rowSize_eq_ok (Nat.zero_lt_of_lt inside) wellFormed.count,
    forM_relationValidate_eq_ok hlength numeric, Prod.mk.injEq]
  constructor
  · rintro ⟨value, hvalue, -, space, _, ⟨-, rfl⟩, -, exact, -, typed, rfl, rfl⟩
    exact ⟨by omega, typed, rfl, value, hvalue, rfl⟩
  · rintro ⟨rfl, typed, rfl, value, hvalue, rfl⟩
    obtain ⟨_, same, kind⟩ := typed.primary wellFormed
    obtain rfl := Option.some.inj (same.symm.trans hvalue)
    rw [Nat.add_sub_cancel_left]
    refine ⟨_, hvalue, (), ?_, _, ⟨le_rfl, rfl⟩, (), not_not.mpr rfl, (), typed, rfl, rfl⟩
    simp only [kind, Bool.true_eq_false, or_false, not_or, not_le, inside, true_and]
    simp [headerSize]

def cell (data : Bytes) (i : Nat) : Bytes := field data (headerSize + i * cellSize) cellSize

theorem cell_relationEncode {value : Value} (found : values[i]? = some value) :
    cell (relationEncode values) i = encodeCell value := by
  rw [cell, field_drop]
  exact field_flatMap_fixed length_encodeCell found

/-- What makes a key and a record unacceptable as a row of a table. -/
inductive Defective (table : TableDefinition) (key data : Bytes) : Prop where
  | keyLength (wrong : key.length ≠ keyBytes)
  | length (wrong : data.length ≠ headerSize + table.columns.length * cellSize)
  | null {i : Nat} {column : Column} (found : table.columns[i]? = some column)
      (required : column.type.nullable = false) (flag : (cell data i).head? ≠ some 0)
  | payload {i : Nat} (inside : i < table.columns.length)
      (flag : (cell data i).head? ≠ some 0) (bits : read (cell data i).tail ≠ 0)
  | kind {i : Nat} {column : Column} (found : table.columns[i]? = some column)
      (foreign : ∀ value, validValue value column.type = true → cell data i ≠ encodeCell value)
  | primary {column : Column} {value : Value}
      (found : table.columns[table.primaryKey]? = some column)
      (valid : validValue value column.type = true)
      (stored : cell data table.primaryKey = encodeCell value)
      (differs : relationPrimary value ≠ key.drop prefixBytes)

theorem TypedRow.valid {columns : List Column} {column : Column} (typed : TypedRow columns values)
    (found : columns[i]? = some column) :
    ∃ value, values[i]? = some value ∧ validValue value column.type := by
  obtain ⟨inside, rfl⟩ := List.getElem?_eq_some_iff.mp found
  have inside' : i < values.length := typed.length_eq ▸ inside
  exact ⟨values[i], getElem?_eq_getElem inside',
    (forall₂_iff_get.mp typed).2 i inside inside'⟩

theorem encodeCell_inj {type : SqlType} {a b : Value} (numeric : assignmentNumeric type.kind)
    (validA : validValue a type) (validB : validValue b type)
    (same : encodeCell a = encodeCell b) : a = b := by
  have readA := (decodeCell_eq_ok numeric (length_encodeCell a)).mpr ⟨validA, rfl⟩
  have readB := (decodeCell_eq_ok numeric (length_encodeCell a)).mpr ⟨validB, same⟩
  exact Except.ok.inj (readA.symm.trans readB)

/-- The primary key of a table is a number, and the key of a row says which. -/
theorem TypedRow.primary_inj {other : List Value} {a b : Value} (wellFormed : table.WellFormed)
    (typed : TypedRow table.columns values) (typed' : TypedRow table.columns other)
    (isA : values[table.primaryKey]? = some a) (isB : other[table.primaryKey]? = some b) :
    relationPrimary a = relationPrimary b ↔ a = b := by
  refine ⟨fun same => ?_, congrArg _⟩
  have words : primaryWord a = primaryWord b := by
    simpa only [relationPrimary, orderRead_orderWrite] using congrArg orderRead same
  obtain ⟨column, found, kind, required⟩ := wellFormed.key
  obtain ⟨_, isA', validA⟩ := typed.valid found
  obtain ⟨_, isB', validB⟩ := typed'.valid found
  cases isA.symm.trans isA'
  cases isB.symm.trans isB'
  cases a <;> cases b <;> simp_all [validValue, integral, primaryWord]
  simpa only [orderSigned_signedOrder] using congrArg orderSigned words

theorem not_defective_of_decode (wellFormed : table.WellFormed)
    (accepted : relationDecode table.columns table.primaryKey data key = .ok values) :
    ¬Defective table key data := by
  have numeric := fun column member => (wellFormed.columns column member).numeric
  obtain ⟨width, typed, rfl, primaries⟩ :=
    (relationDecode_eq_ok wellFormed.count numeric).mp accepted
  intro defective
  cases defective with
  | keyLength wrong => exact wrong width
  | length wrong => exact wrong (by rw [length_relationEncode, typed.length_eq])
  | null found required flag =>
    obtain ⟨value, hvalue, valid⟩ := typed.valid found
    rw [cell_relationEncode hvalue] at flag
    cases value <;> simp_all [validValue, encodeCell, Value.kind]
  | payload inside flag bits =>
    obtain ⟨value, hvalue, valid⟩ := typed.valid (getElem?_eq_getElem inside)
    rw [cell_relationEncode hvalue] at flag bits
    cases value <;> simp_all [encodeCell, Value.kind, cellBits, read_write_eight]
  | kind found foreign =>
    obtain ⟨value, hvalue, valid⟩ := typed.valid found
    exact foreign value valid (cell_relationEncode hvalue)
  | primary found valid stored differs =>
    obtain ⟨value, hvalue, valid'⟩ := typed.valid found
    rw [cell_relationEncode hvalue] at stored
    obtain rfl := encodeCell_inj (numeric _ (mem_of_getElem? found)) valid' valid stored
    exact differs (primaries value hvalue)

/-- Rows and their stored form are in bijection: a typed row is read back from
its own key and record, whatever is accepted is what the encoder writes for the
row read, and a defective key or record is reported as corruption. Rows have one
key exactly if they have one primary value, and no record is read under the key of
another value. The encoder itself turns down a row that is not typed. -/
theorem relationDecode_inverts_encodeRecord (table : TableDefinition)
    (wellFormed : table.WellFormed) :
    (∀ values scope, TypedRow table.columns values → scope.length = prefixBytes →
      ∃ key data,
        encodeRecord table.columns table.primaryKey values scope
          (keyBytes + (headerSize + table.columns.length * cellSize)) = .ok (key, data) ∧
        relationDecode table.columns table.primaryKey data key = .ok values) ∧
    (∀ key data values,
      relationDecode table.columns table.primaryKey data key = .ok values →
      encodeRecord table.columns table.primaryKey values (key.take prefixBytes)
        (keyBytes + data.length) = .ok (key, data)) ∧
    (∀ key data, Defective table key data → ∃ failure,
      relationDecode table.columns table.primaryKey data key = .error failure ∧
        failure.status = .datastoreError) ∧
    (∀ values other scope capacity key data key' data', TypedRow table.columns values →
      TypedRow table.columns other → scope.length = prefixBytes →
      encodeRecord table.columns table.primaryKey values scope capacity = .ok (key, data) →
      encodeRecord table.columns table.primaryKey other scope capacity = .ok (key', data') →
      (key = key' ↔ values[table.primaryKey]? = other[table.primaryKey]?) ∧
      (key ≠ key' → ∃ failure,
        relationDecode table.columns table.primaryKey data key' = .error failure ∧
          failure.status = .datastoreError)) ∧
    (∀ values scope capacity, table.columns.length = values.length →
      ¬TypedRow table.columns values → ∃ failure,
      encodeRecord table.columns table.primaryKey values scope capacity = .error failure) := by
  have numeric := fun column member => (wellFormed.columns column member).numeric
  have reported (key data : Bytes) (defective : Defective table key data) : ∃ failure,
      relationDecode table.columns table.primaryKey data key = .error failure ∧
        failure.status = .datastoreError := by
    cases decoded : relationDecode table.columns table.primaryKey data key with
    | ok values => exact (not_defective_of_decode wellFormed decoded defective).elim
    | error failure => exact ⟨failure, rfl, relationDecode_error_status numeric decoded⟩
  refine ⟨?_, ?_, reported, ?_, ?_⟩
  · intro values scope typed width
    obtain ⟨value, hvalue, -⟩ := typed.primary wellFormed
    refine ⟨scope ++ relationPrimary value, relationEncode values,
      (encodeRecord_eq_ok wellFormed typed.length_eq).mpr ⟨rfl, typed, rfl, value, hvalue, rfl⟩,
      (relationDecode_eq_ok wellFormed.count numeric).mpr ⟨?_, typed, rfl, ?_⟩⟩
    · simp [relationPrimary, width, prefixBytes, keyBytes]
    · intro found hfound
      obtain rfl := Option.some.inj (hvalue.symm.trans hfound)
      rw [drop_left' width]
  · intro key data values accepted
    obtain ⟨width, typed, rfl, primaries⟩ :=
      (relationDecode_eq_ok wellFormed.count numeric).mp accepted
    obtain ⟨value, hvalue, -⟩ := typed.primary wellFormed
    refine (encodeRecord_eq_ok wellFormed typed.length_eq).mpr
      ⟨by rw [length_relationEncode, typed.length_eq], typed, rfl, value, hvalue, ?_⟩
    rw [primaries value hvalue, take_append_drop]
  · intro values other scope capacity key data key' data' typed typed' width encoded encoded'
    obtain ⟨-, -, rfl, a, isA, rfl⟩ := (encodeRecord_eq_ok wellFormed typed.length_eq).mp encoded
    obtain ⟨-, -, -, b, isB, rfl⟩ := (encodeRecord_eq_ok wellFormed typed'.length_eq).mp encoded'
    obtain ⟨column, found, -⟩ := wellFormed.key
    obtain ⟨_, isA', valid⟩ := typed.valid found
    cases isA.symm.trans isA'
    rw [isA, isB, Option.some.injEq, append_right_inj]
    refine ⟨typed.primary_inj wellFormed typed' isA isB, fun differs => reported _ _ ?_⟩
    exact .primary found valid (cell_relationEncode isA)
      (by rwa [drop_left' width, ← (append_right_injective scope).ne_iff])
  · intro values scope capacity hlength untyped
    cases encoded : encodeRecord table.columns table.primaryKey values scope capacity with
    | ok record =>
      exact (untyped ((encodeRecord_eq_ok wellFormed hlength).mp encoded).2.1).elim
    | error failure => exact ⟨failure, rfl⟩

theorem relationDecode_inverts_encodeRecord_pair :
    let columns : List Column :=
      [⟨[105], ⟨.int64, false⟩, none⟩, ⟨[115], ⟨.double, true⟩, none⟩]
    ∃ key data key' data',
      encodeRecord columns 0 [.int64 7, .null] (relationPrefix 1) 51 = .ok (key, data) ∧
      encodeRecord columns 0 [.int64 8, .null] (relationPrefix 1) 51 = .ok (key', data') ∧
      relationDecode columns 0 data key = .ok [.int64 7, .null] ∧
      ∃ failure, relationDecode columns 0 data key' = .error failure := by
  intro columns
  have inverts := relationDecode_inverts_encodeRecord ⟨[116], columns, 0⟩ (by decide)
  have typed (v : Int64) : TypedRow columns [.int64 v, .null] := .cons rfl (.cons rfl .nil)
  obtain ⟨key, data, encoded, read⟩ := inverts.1 _ (relationPrefix 1) (typed 7) rfl
  obtain ⟨key', data', encoded', -⟩ := inverts.1 _ (relationPrefix 1) (typed 8) rfl
  obtain ⟨same, refused⟩ := inverts.2.2.2.1 _ _ _ _ _ _ _ _ (typed 7) (typed 8) rfl encoded encoded'
  obtain ⟨failure, isError, -⟩ := refused (same.not.mpr (by decide))
  exact ⟨key, data, key', data', encoded, encoded', read, failure, isError⟩

end Table

end TurboDb.Relation
