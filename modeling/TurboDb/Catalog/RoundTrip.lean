import TurboDb.Catalog.Codec

/-!
What the schema codec preserves.

A record of either version is read as the definition it was written for, and what
is read is well formed. The decoder also accepts a version two record none of
whose columns has a default, although no definition is written so.
-/

namespace TurboDb.Catalog

open ByteOrder Words Wire Effect Format List

variable {rest : Bytes} {default : Option Value}

theorem wireName_eq_ok {length : Nat} {data name : Bytes} :
    wireName length data = .ok (name, rest) ↔
      NameValid name ∧ name.length = length ∧ data = name ++ rest := by
  simp only [wireName, bind_eq_ok, reject_eq_ok, pure_eq_ok, exists_const, not_lt, not_not,
    Prod.mk.injEq]
  constructor
  · rintro ⟨span, valid, rfl, rfl⟩
    exact ⟨valid, length_take_of_le span, (take_append_drop length data).symm⟩
  · rintro ⟨valid, rfl, rfl⟩
    rw [take_left, drop_left, length_append]
    exact ⟨Nat.le_add_right _ _, valid, rfl, rfl⟩

section Default

variable {type : SqlType}

def ValidDefault (type : SqlType) (default : Option Value) : Prop :=
  ∀ value, default = some value → validValue value type = true

theorem signedBits_eq (bits : UInt64) : signedBits bits = bits.toInt64 := by
  have high : Int64.minValue + (bits ^^^ sign).toInt64 = bits.toInt64 := by
    rw [← add_sign_add_sign bits, UInt64.toInt64_add (bits + sign), add_sign_add_sign, xor_sign,
      Int64.add_comm]
    rfl
  rw [signedBits, high, ite_self]

section Numeric

variable (numeric : assignmentNumeric type.kind)
include numeric

theorem writeDefault_of_defaultValue {tag : UInt8} {bits : UInt64}
    (canonical : ¬(tag > 2 ∨ (tag ≠ 2 ∧ bits ≠ 0) ∨ (tag = 1 ∧ type.nullable = false)))
    (h : defaultValue type.kind tag bits = .ok default) :
    ValidDefault type default ∧ writeDefault default = tag :: write 8 bits := by
  simp only [not_or, not_and, not_not] at canonical
  obtain ⟨small, payload, nullable⟩ := canonical
  have tags : tag = 0 ∨ tag = 1 ∨ tag = 2 := by
    simp only [gt_iff_lt, not_lt, UInt8.le_iff_toNat_le, ← UInt8.toNat_inj] at small ⊢
    simp only [UInt8.reduceToNat] at small ⊢
    omega
  obtain rfl | rfl | rfl := tags
  · rw [payload (by decide)]
    obtain rfl : none = default := by simpa [defaultValue] using h
    exact ⟨fun _ absent => by simp at absent, rfl⟩
  · rw [payload (by decide)]
    obtain rfl : some .null = default := by simpa [defaultValue] using h
    refine ⟨fun value present => ?_, rfl⟩
    obtain rfl := Option.some.inj present
    simpa [validValue] using nullable rfl
  · have two : (2 : UInt8) ≠ 0 ∧ (2 : UInt8) ≠ 1 := by decide
    simp only [defaultValue, if_neg two.1, if_neg two.2] at h
    obtain kind | kind | kind := assignmentNumeric_cases numeric
    · obtain rfl : some (.int64 (signedBits bits)) = default := by simpa [kind] using h
      simp [ValidDefault, validValue, kind, writeDefault, defaultTag, defaultBits, Value.kind,
        signedBits_eq]
    · obtain rfl : some (.uint64 bits) = default := by simpa [kind] using h
      simp [ValidDefault, validValue, kind, writeDefault, defaultTag, defaultBits, Value.kind]
    · obtain ⟨finite, rfl⟩ : isFinite bits = true ∧ some (.double bits) = default := by
        simpa [kind] using h
      simp [ValidDefault, validValue, kind, finite, writeDefault, defaultTag, defaultBits,
        Value.kind]

theorem defaultValue_writeDefault (valid : ValidDefault type default) :
    ¬(defaultTag default > 2 ∨ (defaultTag default ≠ 2 ∧ defaultBits default ≠ 0) ∨
        (defaultTag default = 1 ∧ type.nullable = false)) ∧
      defaultValue type.kind (defaultTag default) (defaultBits default) = .ok default := by
  cases default with
  | none => simp [defaultTag, defaultBits, defaultValue]
  | some value =>
    have typed := valid value rfl
    cases value <;> simp_all [validValue, defaultTag, defaultBits, defaultValue, Value.kind,
      signedBits_eq, assignmentNumeric]

theorem default_canonical :
    Canonical (ValidDefault type) writeDefault (readDefault type) where
  parse_print := by
    intro default rest valid
    obtain ⟨canonical, value⟩ := defaultValue_writeDefault numeric valid
    have bits : read (field (writeDefault default ++ rest) 1 8) = defaultBits default := by
      rw [writeDefault, cons_append, ← singleton_append,
        field_append length_singleton (length_write _ _), read_write_eight]
    have tail : (writeDefault default ++ rest).drop defaultSize = rest :=
      drop_left' (by simp [writeDefault, defaultSize])
    have span : defaultSize ≤ (writeDefault default ++ rest).length := by
      simp [writeDefault, defaultSize]
    simp only [readDefault, bind_eq_ok, reject_eq_ok, pure_eq_ok, exists_const, bits, tail, not_lt]
    exact ⟨span, canonical, default, value, rfl⟩
  print_parse := by
    intro input default rest h
    simp only [readDefault, bind_eq_ok, reject_eq_ok, pure_eq_ok, exists_const, not_lt,
      Prod.mk.injEq] at h
    obtain ⟨span, canonical, found, value, rfl, rfl⟩ := h
    obtain ⟨valid, written⟩ := writeDefault_of_defaultValue numeric canonical value
    refine ⟨valid, ?_⟩
    rw [written, write_read_of_length (Nat.le_refl 8) (length_field span)]
    cases input with
    | nil => simp [defaultSize] at span
    | cons tag input => exact congrArg (tag :: ·) (take_append_drop 8 input).symm

end Numeric

end Default

/-- A column that may follow those already read in a record of the version. -/
structure ColumnAfter (version : UInt8) (key : Nat) (done : List Column) (column : Column) :
    Prop where
  wellFormed : column.WellFormed
  fresh : ∀ other ∈ done, column.name ≠ other.name
  key : done.length = key → integral column.type.kind = true ∧ column.type.nullable = false
  plain : version ≠ wireCurrent → column.default = none

section Column

variable {version : UInt8} {key : Nat} {done : List Column}

theorem readKind_wireKind {kind : Kind} (numeric : assignmentNumeric kind) :
    readKind (wireKind kind) = kind := by
  obtain rfl | rfl | rfl := assignmentNumeric_cases numeric <;> rfl

theorem wireKind_readKind {kind : UInt8} (known : ¬kind < 1 ∧ ¬kind > 3) :
    wireKind (readKind kind) = kind ∧ assignmentNumeric (readKind kind) ∧
      (integral (readKind kind) ↔ kind ≠ 3) := by
  have kinds : kind = 1 ∨ kind = 2 ∨ kind = 3 := by
    simp only [gt_iff_lt, not_lt, UInt8.le_iff_toNat_le, ← UInt8.toNat_inj] at known ⊢
    simp only [UInt8.reduceToNat] at known ⊢
    omega
  obtain rfl | rfl | rfl := kinds <;> decide

theorem columnDefault_eq_ok {type : SqlType} {data : Bytes} (numeric : assignmentNumeric type.kind) :
    columnDefault version type data = .ok (default, rest) ↔
      ValidDefault type default ∧ (version ≠ wireCurrent → default = none) ∧
        data = (if decide (version = wireCurrent) then writeDefault default else []) ++ rest := by
  unfold columnDefault
  by_cases current : version = wireCurrent
  · simp [current, (default_canonical numeric).parse_eq_ok]
  · simp only [current, if_false, pure_eq_ok, Prod.mk.injEq, decide_false, Bool.false_eq_true,
      nil_append, ne_eq, not_false_eq_true, true_imp_iff]
    constructor
    · rintro ⟨rfl, rfl⟩
      exact ⟨fun _ absent => by simp at absent, rfl, rfl⟩
    · rintro ⟨-, rfl, rfl⟩
      exact ⟨rfl, rfl⟩

theorem column_canonical (version : UInt8) (key : Nat) (done : List Column) :
    Canonical (ColumnAfter version key done) (writeColumn (version = wireCurrent))
      (readColumn version key done) where
  parse_print := by
    intro column rest after
    have numeric := after.wellFormed.numeric
    have type : (⟨readKind (wireKind column.type.kind),
        decide ((if column.type.nullable then (1 : UInt8) else 0) ≠ 0)⟩ : SqlType) = column.type := by
      rw [readKind_wireKind numeric, flag_ne_zero]
    simp only [writeColumn, cons_append, readColumn, bind_eq_ok, reject_eq_ok, pure_eq_ok,
      exists_unit, Prod.exists, wireName_eq_ok, forM_eq_ok, type, append_assoc]
    refine ⟨?_, column.name, _, ⟨after.wellFormed.name, after.wellFormed.name.toNat_length.symm, rfl⟩,
      after.fresh, column.default, rest,
      (columnDefault_eq_ok numeric).mpr ⟨after.wellFormed.default, after.plain, rfl⟩, rfl⟩
    have keyed := after.key
    obtain kind | kind | kind := assignmentNumeric_cases numeric <;>
      cases nullable : column.type.nullable <;>
      simp_all [wireKind, integral]
  print_parse := by
    intro input column rest h
    unfold readColumn at h
    split at h
    case h_2 => simp at h
    case h_1 length kind nullable data =>
      simp only [bind_eq_ok, reject_eq_ok, pure_eq_ok,
        exists_unit, Prod.exists, wireName_eq_ok, forM_eq_ok, Prod.mk.injEq] at h
      obtain ⟨known, name, _, ⟨valid, hlength, rfl⟩, fresh, default, _, found, rfl, rfl⟩ := h
      simp only [not_or] at known
      obtain ⟨code, numeric, whole⟩ := wireKind_readKind ⟨known.1, known.2.1⟩
      obtain ⟨typed, plain, rfl⟩ := (columnDefault_eq_ok numeric).mp found
      refine ⟨⟨⟨valid, numeric, typed⟩, fresh, ?_, plain⟩, ?_⟩
      · intro last
        have primary := not_and.mp known.2.2.2 last
        rw [not_or, not_not] at primary
        exact ⟨whole.mpr primary.2, by simp [primary.1]⟩
      · rw [writeColumn, code, hlength, UInt8.ofNat_toNat, eq_flag_of_le_one known.2.2.1]
        simp only [cons_append, append_assoc]

end Column

section Record

variable {table : TableDefinition} {data : Bytes} {maxBytes : Nat} {defaults : Bool}
variable {columns : List Column}

theorem hasDefaults_eq_false :
    hasDefaults columns = false ↔ ∀ column ∈ columns, column.default = none := by
  simp [hasDefaults]

/-- Columns can be read one after the other exactly when they make up a
definition that the version can hold. -/
theorem columnsAfter_iff {version : UInt8} {key : Nat} :
    ValidFrom (ColumnAfter version key) [] columns ↔
      (∀ column ∈ columns, column.WellFormed) ∧ (columns.map Column.name).Nodup ∧
        (∀ column, columns[key]? = some column →
          integral column.type.kind ∧ column.type.nullable = false) ∧
        (version ≠ wireCurrent → hasDefaults columns = false) := by
  have prior : ∀ {i : Nat} {column : Column}, columns[i]? = some column →
      (columns.take i).length = i := by
    intro i column found
    exact List.length_take_of_le (List.getElem?_eq_some_iff.mp found).1.le
  rw [validFrom_iff, nodup_map_iff_take, hasDefaults_eq_false]
  simp only [nil_append]
  constructor
  · intro after
    refine ⟨?_, fun i column found => (after i column found).fresh, ?_, ?_⟩
    · intro column member
      obtain ⟨i, found⟩ := mem_iff_getElem?.mp member
      exact (after i column found).wellFormed
    · intro column found
      exact (after key column found).key (prior found)
    · intro first column member
      obtain ⟨i, found⟩ := mem_iff_getElem?.mp member
      exact (after i column found).plain first
  · rintro ⟨wellFormed, distinct, keyed, plain⟩ i column found
    have member := mem_of_getElem? found
    refine ⟨wellFormed column member, distinct i column found, fun last => ?_,
      fun first => plain first column member⟩
    rw [prior found] at last
    exact keyed column (last ▸ found)

theorem length_writeColumn (defaults : Bool) (column : Column) :
    (writeColumn defaults column).length = fixedSize defaults + column.name.length := by
  cases defaults <;> simp [writeColumn, fixedSize, writeDefault, columnSize, defaultSize] <;> omega

theorem length_writeHeader (version : UInt8) (table : TableDefinition) :
    (writeHeader version table).length = headerSize := by
  simp [writeHeader, magic, headerSize]

theorem length_writeRecord (defaults : Bool) (table : TableDefinition) :
    (writeRecord defaults table).length = headerSize + 1 + table.name.length +
      (table.columns.flatMap (writeColumn defaults)).length := by
  simp only [writeRecord, length_append, length_writeHeader, length_cons]
  omega

theorem wireSize_eq_ok {size total : Nat}
    (numeric : ∀ column ∈ columns, assignmentNumeric column.type.kind)
    (room : size ≤ maxBytes) :
    wireSize maxBytes defaults size columns = .ok total ↔
      total = size + (columns.flatMap (writeColumn defaults)).length ∧ total ≤ maxBytes := by
  induction columns generalizing size with
  | nil =>
    simp only [wireSize, pure_eq_ok, flatMap_nil, length_nil, Nat.add_zero]
    omega
  | cons column columns ih =>
    rw [forall_mem_cons] at numeric
    simp only [wireSize, bind_eq_ok, reject_eq_ok, exists_unit, numeric.1, Bool.true_eq_false,
      not_false_eq_true, true_and, not_lt, flatMap_cons, length_append,
      length_writeColumn]
    by_cases fits : fixedSize defaults + column.name.length ≤ maxBytes - size
    · rw [ih numeric.2 (by omega)]
      omega
    · omega

theorem defaultValid_eq {type : SqlType} {value : Value}
    (numeric : assignmentNumeric type.kind) :
    defaultValid type value = validValue value type := by
  obtain kind | kind | kind := assignmentNumeric_cases numeric <;>
    cases value <;> simp [defaultValid, validValue, kind, Value.kind]

/-- A well-formed definition with room for its record is written in the version
its defaults call for. -/
theorem encode_eq_ok (wellFormed : table.WellFormed) :
    encode table maxBytes = .ok data ↔
      data = writeRecord (hasDefaults table.columns) table ∧ data.length ≤ maxBytes := by
  have numeric := fun column member => (wellFormed.columns column member).numeric
  have valid : ∀ column ∈ table.columns,
      ¬column.default.any (fun value => !defaultValid column.type value) = true := by
    intro column member
    simp only [Option.any_eq_true, Bool.not_eq_true', not_exists, not_and, Bool.not_eq_false,
      defaultValid_eq (numeric column member)]
    exact (wellFormed.columns column member).default
  have count := wellFormed.count
  simp only [encode, bind_eq_ok, reject_eq_ok, exists_unit, forM_eq_ok, pure_eq_ok, not_or, not_lt]
  constructor
  · rintro ⟨-, ⟨-, room⟩, -, total, size, rfl⟩
    rw [wireSize_eq_ok numeric room] at size
    rw [length_writeRecord]
    exact ⟨rfl, by omega⟩
  · rintro ⟨rfl, room⟩
    rw [length_writeRecord] at room
    have start : headerSize + 1 + table.name.length ≤ maxBytes := by omega
    refine ⟨?_, ⟨by omega, start⟩, valid, _, (wireSize_eq_ok numeric start).mpr ⟨rfl, room⟩, rfl⟩
    omega

theorem length_columns_le (defaults : Bool) (wellFormed : ∀ column ∈ columns, column.WellFormed) :
    columns.length * (fixedSize defaults + 1) ≤
      (columns.flatMap (writeColumn defaults)).length := by
  induction columns with
  | nil => simp
  | cons column columns ih =>
    rw [forall_mem_cons] at wellFormed
    have rest := ih wellFormed.2
    have name := length_pos_iff.mpr wellFormed.1.name.ne_nil
    rw [flatMap_cons, length_append, length_writeColumn, length_cons,
      Nat.succ_mul]
    omega

structure HeaderOf (version : UInt8) (table : TableDefinition) (data : Bytes) : Prop where
  magic : field data 0 2 = magic
  version : data.getD 2 0 = version
  flags : data.getD 3 0 = 0
  count : field data 4 4 = write 4 (UInt64.ofNat table.columns.length)
  key : field data 8 4 = write 4 (UInt64.ofNat table.primaryKey)

theorem headerOf_write (version : UInt8) (table : TableDefinition) (after : Bytes) :
    HeaderOf version table (writeHeader version table ++ after) :=
  ⟨rfl, rfl, rfl, rfl, rfl⟩

theorem HeaderOf.eq_write {version : UInt8} (header : HeaderOf version table data)
    (span : headerSize ≤ data.length) :
    data = writeHeader version table ++ data.drop headerSize := by
  have byte : ∀ {offset value}, offset < headerSize → data.getD offset 0 = value →
      [value] = field data offset 1 := by
    intro offset value inside known
    rw [field_one (inside.trans_le span), known]
  have start : data.take 2 = field data 0 2 := rfl
  rw [writeHeader, ← header.magic, ← header.count, ← header.key, ← start,
    byte (by decide) header.version, byte (by decide) header.flags]
  simp only [take_append_field]
  exact (take_append_drop headerSize data).symm

theorem decode_eq_ok :
    decode data maxBytes = .ok table ↔
      table.WellFormed ∧ data.length ≤ maxBytes ∧ ∃ defaults,
        (defaults = false → hasDefaults table.columns = false) ∧
          data = writeRecord defaults table := by
  simp only [decode, bind_eq_ok, reject_eq_ok, exists_unit, pure_eq_ok, Prod.exists, not_or, not_lt,
    not_not, not_le, wireName_eq_ok]
  constructor
  · rintro ⟨-, room, ⟨span, hmagic⟩, version, flags, ⟨positive, inside, -⟩, name, _,
      ⟨valid, hlength, hname⟩, columns, rest, parsed, rfl, htable⟩
    obtain ⟨_, hcount, rfl, after, rfl⟩ := print_parseList (column_canonical _ _) parsed
    rw [append_nil] at hname
    obtain ⟨columnsValid, distinct, keyed, plain⟩ := columnsAfter_iff.mp after
    have word : ∀ offset, offset + 4 ≤ headerSize →
        field data offset 4 = write 4 (UInt64.ofNat (read (field data offset 4)).toNat) := by
      intro offset inside
      rw [UInt64.ofNat_toNat,
        write_read_of_length (by decide) (length_field (inside.trans span.le))]
    have header : HeaderOf (data.getD 2 0) table data := by
      rw [← htable]
      exact ⟨hmagic, rfl, flags, hcount ▸ word 4 (by decide), word 8 (by decide)⟩
    subst htable
    refine ⟨⟨valid, columnsValid, distinct, ?_, ?_⟩, room, decide (data.getD 2 0 = wireCurrent),
      fun first => plain (of_decide_eq_false first), ?_⟩
    · rw [hcount]
      exact toNat_read_lt (show 4 ≤ 8 by decide) (length_take_le _ _)
    · exact ⟨_, getElem?_eq_getElem (hcount ▸ inside), keyed _ (getElem?_eq_getElem _)⟩
    · rw [writeRecord, version_ite version, hlength, UInt8.ofNat_toNat, ← hname,
        ← drop_eq_getD_cons span]
      exact header.eq_write span.le
  · rintro ⟨wellFormed, room, defaults, plain, rfl⟩
    have header := headerOf_write (if defaults then wireCurrent else wireFirst) table
      (UInt8.ofNat table.name.length ::
        (table.name ++ table.columns.flatMap (writeColumn defaults)))
    rw [← writeRecord] at header
    obtain ⟨column, found, keyed⟩ := wellFormed.key
    have inside := (List.getElem?_eq_some_iff.mp found).1
    have count : (read (field (writeRecord defaults table) 4 4)).toNat = table.columns.length := by
      exact toNat_read_write (show 4 ≤ 8 by decide) wellFormed.count
    have key : (read (field (writeRecord defaults table) 8 4)).toNat = table.primaryKey := by
      exact toNat_read_write (show 4 ≤ 8 by decide) (inside.trans wellFormed.count)
    have current : decide ((if defaults then wireCurrent else wireFirst) = wireCurrent) = defaults := by
      cases defaults <;> decide
    have name : (writeRecord defaults table).getD headerSize 0 = UInt8.ofNat table.name.length :=
      getD_append_cons (length_writeHeader _ table) _
    have total := length_writeRecord defaults table
    have after : ValidFrom (ColumnAfter (if defaults then wireCurrent else wireFirst)
        table.primaryKey) [] table.columns := by
      refine columnsAfter_iff.mpr ⟨wellFormed.columns, wellFormed.distinct, ?_, ?_⟩
      · intro other same
        obtain rfl := Option.some.inj (found.symm.trans same)
        exact keyed
      · intro first
        exact plain (current ▸ decide_eq_false first)
    have parsed := parseList_print (column_canonical _ _) after []
    have least := length_columns_le defaults wellFormed.columns
    rw [current, append_nil] at parsed
    simp only [count, key, header.version, current]
    refine ⟨by omega, room, ⟨by omega, header.magic⟩, ?_, header.flags, ⟨by omega, inside, ?_⟩,
      table.name, _, ⟨wellFormed.name, ?_, ?_⟩, table.columns, [], parsed, rfl, rfl⟩
    · cases defaults <;> decide
    · refine (Nat.le_div_iff_mul_le (Nat.zero_lt_succ _)).mpr (least.trans ?_)
      omega
    · rw [name, wellFormed.name.toNat_length]
    · rfl

theorem getD_writeRecord (defaults : Bool) (table : TableDefinition) :
    (writeRecord defaults table).getD 2 0 = if defaults then wireCurrent else wireFirst :=
  (headerOf_write _ table _).version

theorem writeRecord_inj {other : Bool} :
    writeRecord defaults table = writeRecord other table ↔ defaults = other := by
  constructor
  · intro same
    have version := getD_writeRecord defaults table
    rw [same, getD_writeRecord] at version
    revert version
    cases defaults <;> cases other <;> decide
  · exact congrArg (writeRecord · table)

theorem hasDefaults_eq_true :
    hasDefaults columns ↔ ∃ column ∈ columns, column.default ≠ none := by
  simp [hasDefaults, Option.isSome_iff_ne_none]

/-- A well-formed definition is read back from its record, and every definition
read is well formed. Its record is the one it was read from exactly when that
is of version one or some column has an explicit default. -/
theorem decode_inverts_schema_encode :
    (∀ table maxBytes data, table.WellFormed → encode table maxBytes = .ok data →
      decode data maxBytes = .ok table) ∧
    (∀ table maxBytes, table.WellFormed →
      (writeRecord (hasDefaults table.columns) table).length ≤ maxBytes →
      ∃ data, encode table maxBytes = .ok data) ∧
    (∀ data maxBytes table, decode data maxBytes = .ok table → table.WellFormed ∧
      (encode table maxBytes = .ok data ↔
        data.getD 2 0 = wireFirst ∨ ∃ column ∈ table.columns, column.default ≠ none)) := by
  refine ⟨?_, ?_, ?_⟩
  · intro table maxBytes data wellFormed encoded
    obtain ⟨rfl, room⟩ := (encode_eq_ok wellFormed).mp encoded
    exact decode_eq_ok.mpr ⟨wellFormed, room, _, id, rfl⟩
  · intro table maxBytes wellFormed room
    exact ⟨_, (encode_eq_ok wellFormed).mpr ⟨rfl, room⟩⟩
  · intro data maxBytes table decoded
    obtain ⟨wellFormed, room, defaults, plain, rfl⟩ := decode_eq_ok.mp decoded
    refine ⟨wellFormed, ?_⟩
    rw [encode_eq_ok wellFormed, writeRecord_inj, getD_writeRecord, and_iff_left room,
      ← hasDefaults_eq_true]
    cases defaults with
    | false => simp [plain rfl]
    | true => simp [wireCurrent, wireFirst]

theorem encode_after_decode_without_default :
    let data : Bytes :=
      [83, 67, 2, 0, 1, 0, 0, 0, 0, 0, 0, 0, 1, 116, 1, 1, 0, 105, 0, 0, 0, 0, 0, 0, 0, 0, 0]
    let table : TableDefinition := ⟨[116], [⟨[105], ⟨.int64, false⟩, none⟩], 0⟩
    decode data 64 = .ok table ∧ encode table 64 ≠ .ok data := by
  intro data table
  have wellFormed : table.WellFormed := by decide
  refine ⟨decode_eq_ok.mpr ⟨wellFormed, by decide, true, by decide, by decide⟩, fun encoded => ?_⟩
  have written := ((encode_eq_ok wellFormed).mp encoded).1
  revert written
  decide

theorem decode_inverts_schema_encode_default :
    let table : TableDefinition := ⟨[116], [⟨[105], ⟨.int64, false⟩, some (.int64 7)⟩], 0⟩
    ∃ data, encode table 64 = .ok data ∧ decode data 64 = .ok table ∧ data.getD 2 0 = wireCurrent := by
  intro table
  have wellFormed : table.WellFormed := by decide
  obtain ⟨data, encoded⟩ := decode_inverts_schema_encode.2.1 table 64 wellFormed (by decide)
  refine ⟨data, encoded, decode_inverts_schema_encode.1 table 64 data wellFormed encoded, ?_⟩
  rw [((encode_eq_ok wellFormed).mp encoded).1]
  rfl

end Record

end TurboDb.Catalog
