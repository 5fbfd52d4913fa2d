import Mathlib.Data.List.Perm.Subperm
import TurboDb.IndexRecord.Codec

/-!
The index record codec is canonical.

`WellFormed` states what an index over a table is, without bytes. The validator
accepts exactly these, names and key parts are canonical formats, and the header
is recovered field by field, so that a record decodes exactly when it is the one
written for its index. `Defective` reads a record by its raw layout alone.
-/

namespace TurboDb.IndexRecord

open ByteOrder Wire Effect Format List

/-- An index over a table: live identities, proper names, and at least one
key part, each a different numeric column of the table with its type. -/
structure WellFormed (record : IndexRecord) (table : TableDefinition) : Prop where
  tableId : record.identity.tableId ≠ 0
  tableGeneration : record.identity.tableGeneration ≠ 0
  indexId : record.identity.indexId ≠ 0
  generation : record.identity.generation ≠ 0
  name : NameValid record.definition.name
  notPrimary : primaryName record.definition.name = false
  tableName : record.definition.table = table.name
  nonempty : record.definition.parts ≠ []
  column : ∀ part ∈ record.definition.parts, assignmentNumeric part.type.kind = true ∧
    ∃ column, table.columns[part.column]? = some column ∧ column.type = part.type
  distinct : (record.definition.parts.map IndexPart.column).Nodup

variable {record : IndexRecord} {table : TableDefinition} {data : Bytes}

variable {parts : List IndexPart} {flags : UInt8} {kind : Kind}

section Validate

variable {invalid : Status}

theorem matchesSchema_iff {part : IndexPart} (count : table.columns.length < 2 ^ 32) :
    matchesSchema table part ↔ assignmentNumeric part.type.kind ∧
      ∃ column, table.columns[part.column]? = some column ∧ column.type = part.type := by
  simp only [matchesSchema, Bool.and_eq_true, decide_eq_true_eq, Option.any_eq_true]
  constructor
  · intro h
    exact ⟨h.1.2, h.2⟩
  · intro h
    obtain ⟨numeric, column, found, same⟩ := h
    have inside := (List.getElem?_eq_some_iff.mp found).1
    exact ⟨⟨by omega, numeric⟩, column, found, same⟩

theorem length_le_of_distinct (distinct : (parts.map IndexPart.column).Nodup)
    (inside : ∀ part ∈ parts, part.column < table.columns.length) :
    parts.length ≤ table.columns.length := by
  have sub : parts.map IndexPart.column ⊆ range table.columns.length := by
    intro column member
    obtain ⟨part, hpart, rfl⟩ := mem_map.mp member
    exact mem_range.mpr (inside part hpart)
  simpa using (subperm_of_subset distinct sub).length_le

theorem WellFormed.length_parts_le (valid : WellFormed record table) :
    record.definition.parts.length ≤ table.columns.length := by
  refine length_le_of_distinct valid.distinct fun part member => ?_
  obtain ⟨-, _, found, -⟩ := valid.column part member
  exact (List.getElem?_eq_some_iff.mp found).1

theorem recordValidate_eq_ok (wellFormed : table.WellFormed) :
    recordValidate record table invalid = .ok () ↔ WellFormed record table := by
  simp only [recordValidate, bind_eq_ok, reject_eq_ok, forM_eq_ok, not_or, not_not,
    Bool.not_eq_true, Bool.not_eq_false, matchesSchema_iff wellFormed.count, Prod.forall,
    mem_zipIdx_iff_getElem?, exists_const]
  constructor
  · rintro ⟨⟨h1, h2, h3, h4⟩, ⟨name, notPrimary, -⟩, same, ⟨nonempty, -⟩, parts⟩
    refine ⟨h1, h2, h3, h4, name, notPrimary, same, nonempty, ?_, ?_⟩
    · intro part member
      obtain ⟨i, hi⟩ := mem_iff_getElem?.mp member
      exact (parts part i hi).1
    · exact nodup_map_iff_take.mpr fun i part hi => (parts part i hi).2
  · intro valid
    refine ⟨⟨valid.tableId, valid.tableGeneration, valid.indexId, valid.generation⟩,
      ⟨valid.name, valid.notPrimary, ?_⟩, valid.tableName, ⟨valid.nonempty, ?_⟩, ?_⟩
    · rw [valid.tableName]
      exact wellFormed.name
    · exact not_lt.mpr valid.length_parts_le
    · intro part i hi
      exact ⟨valid.column part (mem_of_getElem? hi),
        nodup_map_iff_take.mp valid.distinct i part hi⟩

end Validate

theorem recordName_canonical : Canonical NameValid recordWriteName recordReadName where
  parse_print := by
    intro name rest valid
    have short := valid.length_le
    have positive := length_pos_iff.mpr valid.ne_nil
    simp only [recordWriteName, cons_append, recordReadName, valid.toNat_length, bind_eq_ok, reject_eq_ok,
      pure_eq_ok, take_left, drop_left, and_true, not_or, not_lt,
      not_not, exists_const, length_append]
    exact ⟨⟨by omega, short, by omega⟩, valid⟩
  print_parse := by
    intro input name rest h
    cases input with
    | nil => simp [recordReadName] at h
    | cons length input =>
      simp only [recordReadName, bind_eq_ok, reject_eq_ok, pure_eq_ok, Prod.mk.injEq, not_or,
        not_lt, not_not, exists_const] at h
      obtain ⟨⟨-, -, span⟩, valid, rfl, rfl⟩ := h
      refine ⟨valid, ?_⟩
      rw [recordWriteName, length_take_of_le span, UInt8.ofNat_toNat, cons_append,
        take_append_drop]

/-- A key part that a record of the given version stores. -/
structure Storable (version : UInt8) (part : IndexPart) : Prop where
  column : part.column < 2 ^ 32
  numeric : assignmentNumeric part.type.kind = true
  double : part.type.kind = .double → version = wireReal

section Part

variable {version : UInt8} {part : IndexPart}

theorem partFlags_and (part : IndexPart) :
    partFlags part &&& ~~~((1 : UInt8) ||| 2) = 0 ∧
      (partFlags part &&& 1 ≠ 0 ↔ part.type.nullable) ∧
      (partFlags part &&& 2 ≠ 0 ↔ part.descending) := by
  unfold partFlags
  cases part.type.nullable <;> cases part.descending <;> decide

private theorem flags_table : ∀ i : Fin 256,
    UInt8.ofFin i &&& ~~~((1 : UInt8) ||| 2) = 0 →
      (if UInt8.ofFin i &&& 1 ≠ 0 then (1 : UInt8) else 0) |||
        (if UInt8.ofFin i &&& 2 ≠ 0 then 2 else 0) = UInt8.ofFin i := by
  decide +kernel

theorem partFlags_of_and (known : flags &&& ~~~((1 : UInt8) ||| 2) = 0) (column : Nat) (kind : Kind) :
    partFlags ⟨column, ⟨kind, flags &&& 1 ≠ 0⟩, flags &&& 2 ≠ 0⟩ = flags := by
  simpa [partFlags] using flags_table flags.toFin known

theorem recordReadKind_partKind (numeric : assignmentNumeric kind) :
    recordReadKind (partKind kind) = kind := by
  cases kind <;> simp_all [assignmentNumeric, partKind, recordReadKind]

theorem partKind_coded (numeric : assignmentNumeric kind) (version : UInt8) :
    ¬(partKind kind ≠ 1 ∧ partKind kind ≠ 2 ∧ ¬(partKind kind = 3 ∧ version = wireReal)) ↔
      (kind = .double → version = wireReal) := by
  cases kind <;> simp_all [assignmentNumeric, partKind]

theorem partKind_recordReadKind {kind version : UInt8}
    (coded : ¬(kind ≠ 1 ∧ kind ≠ 2 ∧ ¬(kind = 3 ∧ version = wireReal))) :
    partKind (recordReadKind kind) = kind ∧ assignmentNumeric (recordReadKind kind) ∧
      (recordReadKind kind = .double → version = wireReal) := by
  by_cases one : kind = 1
  · simp [one, recordReadKind, partKind, assignmentNumeric]
  by_cases two : kind = 2
  · simp [two, recordReadKind, partKind, assignmentNumeric]
  · have three : kind = 3 ∧ version = wireReal := by
      by_contra other
      exact coded ⟨one, two, other⟩
    simp [three, recordReadKind, partKind, assignmentNumeric]

theorem recordPart_canonical (version : UInt8) :
    Canonical (Storable version) recordWritePart (recordReadPart version) where
  parse_print := by
    intro part rest storable
    obtain ⟨known, nullable, descending⟩ := partFlags_and part
    obtain ⟨c0, c1, c2, c3, hc⟩ : ∃ c0 c1 c2 c3,
        write 4 (UInt64.ofNat part.column) = [c0, c1, c2, c3] := ⟨_, _, _, _, rfl⟩
    have column : (read [c0, c1, c2, c3]).toNat = part.column := by
      rw [← hc]
      exact toNat_read_write (show 4 ≤ 8 by decide) storable.column
    have kind := recordReadKind_partKind storable.numeric
    simp only [recordWritePart, hc, cons_append, nil_append, recordReadPart, bind_eq_ok,
      reject_eq_ok, pure_eq_ok, Prod.mk.injEq, and_true, exists_const, column, known, kind,
      nullable, descending]
    have coded := (partKind_coded storable.numeric version).mpr storable.double
    exact ⟨not_or.mpr ⟨coded, not_not.mpr rfl⟩, by simp⟩
  print_parse := by
    intro input part rest h
    unfold recordReadPart at h
    split at h
    case h_2 => simp at h
    case h_1 c0 c1 c2 c3 kind flags rest' =>
      simp only [bind_eq_ok, reject_eq_ok, pure_eq_ok, Prod.mk.injEq, exists_const, not_or,
        not_not] at h
      obtain ⟨⟨coded, known⟩, rfl, rfl⟩ := h
      have span : [c0, c1, c2, c3].length = 4 := rfl
      obtain ⟨code, numeric, double⟩ := partKind_recordReadKind coded
      refine ⟨⟨?_, numeric, double⟩, ?_⟩
      · exact toNat_read_lt (show 4 ≤ 8 by decide) span.le
      · rw [recordWritePart, code, partFlags_of_and known, UInt64.ofNat_toNat,
          write_read_of_length (by decide) span]
        rfl

end Part

section Header

variable {after : Bytes}

theorem length_recordWriteHeader (record : IndexRecord) :
    (recordWriteHeader record).length = headerSize := by
  simp [recordWriteHeader, magic, headerSize]

/-- What a header says: its flags and count, and the identity. -/
structure HeaderOf (record : IndexRecord) (data : Bytes) : Prop where
  magic : field data 0 2 = magic
  version : data.getD 2 0 = if hasDouble record.definition then wireReal else wireInteger
  flags : data.getD 3 0 = if record.definition.unique then 1 else 0
  tableId : field data 4 8 = write 8 record.identity.tableId
  tableGeneration : field data 12 8 = write 8 record.identity.tableGeneration
  indexId : field data 20 8 = write 8 record.identity.indexId
  generation : field data 28 8 = write 8 record.identity.generation
  count : field data 36 4 = write 4 (UInt64.ofNat record.definition.parts.length)

theorem headerOf_write (record : IndexRecord) : HeaderOf record (recordWrite record) where
  magic := rfl
  version := rfl
  flags := rfl
  tableId := rfl
  tableGeneration := rfl
  indexId := rfl
  generation := rfl
  count := rfl

theorem HeaderOf.read_count (header : HeaderOf record data)
    (small : record.definition.parts.length < 256 ^ 4) :
    (read (field data 36 4)).toNat = record.definition.parts.length := by
  rw [header.count]
  exact toNat_read_write (show 4 ≤ 8 by decide) small

theorem HeaderOf.eq_write (header : HeaderOf record data) (span : headerSize ≤ data.length) :
    data = recordWriteHeader record ++ data.drop headerSize := by
  have version : field data 2 1 = [data.getD 2 0] := field_one (Nat.lt_of_lt_of_le (by decide) span)
  have flags : field data 3 1 = [data.getD 3 0] := field_one (Nat.lt_of_lt_of_le (by decide) span)
  have start : data.take 2 = field data 0 2 := rfl
  rw [recordWriteHeader, ← header.magic, ← header.version, ← header.flags, ← header.tableId,
    ← header.tableGeneration, ← header.indexId, ← header.generation, ← header.count,
    ← version, ← flags, ← start]
  simp only [take_append_field]
  exact (take_append_drop headerSize data).symm

end Header

section Record

variable {maxBytes : Nat}

theorem length_recordWritePart (part : IndexPart) : (recordWritePart part).length = partSize := rfl

theorem length_recordWrite (record : IndexRecord) :
    (recordWrite record).length = headerSize + nameLengths + record.definition.name.length +
      record.definition.table.length + record.definition.parts.length * partSize := by
  simp only [recordWrite, length_append, length_recordWriteHeader, recordWriteName,
    length_cons, length_flatMap_fixed length_recordWritePart, nameLengths]
  omega

theorem recordSchema_of_wellFormed (wellFormed : table.WellFormed) :
    recordSchema table := by
  obtain ⟨_, found, -, -⟩ := wellFormed.key
  have columns : table.columns ≠ [] := by
    intro none
    simp [none] at found
  simp [recordSchema, wellFormed.name.ne_nil, columns]

theorem encode_eq_ok (wellFormed : table.WellFormed) :
    encode record table maxBytes = .ok data ↔
      WellFormed record table ∧ (recordWrite record).length ≤ maxBytes ∧
        data = recordWrite record := by
  simp only [encode, bind_eq_ok, reject_eq_ok, pure_eq_ok, exists_const,
    recordValidate_eq_ok wellFormed, recordSchema_of_wellFormed wellFormed, Bool.true_eq_false,
    false_or, not_or, not_lt, length_recordWrite]
  have fits := fun header count : Nat =>
    Nat.le_div_iff_mul_le (x := count) (y := maxBytes - header) (show 0 < partSize by decide)
  constructor
  · rintro ⟨-, valid, ⟨header, -, room⟩, rfl⟩
    rw [fits] at room
    exact ⟨valid, by omega, rfl⟩
  · rintro ⟨valid, room, rfl⟩
    have few := valid.length_parts_le
    have count := wellFormed.count
    refine ⟨?_, valid, ⟨?_, ?_, (fits _ _).mpr ?_⟩, rfl⟩ <;>
      simp only [headerSize] at room ⊢ <;> omega

theorem recordReadParts_eq_ok {version : UInt8} {count : Nat} :
    recordReadParts version count data = .ok parts ↔
      parts.length = count ∧ (∀ part ∈ parts, Storable version part) ∧
        data = parts.flatMap recordWritePart := by
  have canonical := fun _ : List IndexPart => recordPart_canonical version
  have each : ∀ {parts : List IndexPart},
      ValidFrom (fun _ => Storable version) [] parts ↔ ∀ part ∈ parts, Storable version part := by
    simp only [validFrom_iff, mem_iff_getElem?]
    grind
  simp only [recordReadParts, bind_eq_ok, reject_eq_ok, pure_eq_ok, exists_const, not_or, not_not]
  constructor
  · rintro ⟨⟨-, exact⟩, ⟨all, rest⟩, parsed, rfl⟩
    obtain ⟨as, rfl, rfl, valid, rfl⟩ := print_parseList canonical parsed
    have empty : rest = [] := by
      rw [length_append, length_flatMap_fixed length_recordWritePart] at exact
      exact length_eq_zero_iff.mp (by omega)
    simp only [empty, append_nil, and_true, true_and]
    exact each.mp valid
  · rintro ⟨rfl, valid, rfl⟩
    have parsed := parseList_print canonical (each.mpr valid) []
    simp only [append_nil, nil_append] at parsed
    rw [length_flatMap_fixed length_recordWritePart]
    refine ⟨⟨?_, rfl⟩, _, parsed, rfl⟩
    rw [Nat.mul_div_cancel _ (by decide)]
    exact Nat.lt_irrefl _

private theorem unique_table : ∀ i : Fin 256, UInt8.ofFin i &&& ~~~(1 : UInt8) = 0 →
    UInt8.ofFin i = if decide (UInt8.ofFin i &&& 1 ≠ 0) = true then 1 else 0 := by
  decide +kernel

theorem unique_flags (known : flags &&& ~~~(1 : UInt8) = 0) :
    flags = if decide (flags &&& 1 ≠ 0) = true then 1 else 0 :=
  unique_table flags.toFin known

theorem WellFormed.storable (valid : WellFormed record table) (wellFormed : table.WellFormed) :
    ∀ part ∈ record.definition.parts,
      Storable (if hasDouble record.definition then wireReal else wireInteger) part := by
  intro part member
  obtain ⟨numeric, _, found, -⟩ := valid.column part member
  have inside := (List.getElem?_eq_some_iff.mp found).1
  refine ⟨inside.trans wellFormed.count, numeric, fun double => ?_⟩
  have some : hasDouble record.definition :=
    List.any_eq_true.mpr ⟨part, member, by simpa using double⟩
  rw [some, if_pos rfl]

/-- A record decodes to exactly the index it was written for. -/
theorem decode_eq_ok (wellFormed : table.WellFormed) :
    decode data table maxBytes = .ok record ↔
      WellFormed record table ∧ data.length ≤ maxBytes ∧ data = recordWrite record := by
  simp only [decode, bind_eq_ok, reject_eq_ok, pure_eq_ok, exists_const, Prod.exists,
    recordSchema_of_wellFormed wellFormed, Bool.true_eq_false, false_or, not_or, not_lt, not_not,
    recordName_canonical.parse_eq_ok, recordReadParts_eq_ok, recordValidate_eq_ok wellFormed]
  constructor
  · rintro ⟨-, room, ⟨span, hmagic⟩, version, ⟨flags, -⟩, name, _, ⟨-, hname⟩, tableName, _,
      ⟨-, rfl⟩, parts, ⟨count, -, rfl⟩, double, valid, hrecord⟩
    have span : headerSize ≤ data.length := Nat.le_of_add_right_le span
    have word : ∀ offset, offset + 8 ≤ headerSize →
        field data offset 8 = write 8 (read (field data offset 8)) := by
      intro offset inside
      exact (write_read_of_length (Nat.le_refl 8) (length_field (inside.trans span))).symm
    have header : HeaderOf record data := by
      rw [← hrecord]
      refine ⟨hmagic, double ▸ (version_ite version).symm, unique_flags flags, word 4 (by decide),
        word 12 (by decide), word 20 (by decide), word 28 (by decide), ?_⟩
      rw [count, UInt64.ofNat_toNat, write_read_of_length (by decide) (length_field span)]
    rw [hrecord] at valid
    refine ⟨valid, room, ?_⟩
    rw [header.eq_write span, hname, ← hrecord]
    rfl
  · rintro ⟨valid, room, rfl⟩
    have header := headerOf_write record
    have few := valid.length_parts_le
    have count := header.read_count (few.trans_lt wellFormed.count)
    have positive := length_pos_iff.mpr valid.nonempty
    have total := length_recordWrite record
    simp only [count, header.version, header.flags, header.tableId, header.tableGeneration,
      header.indexId, header.generation, read_write_eight]
    have unique : (if record.definition.unique then (1 : UInt8) else 0) &&& ~~~1 = 0 ∧
        decide ((if record.definition.unique then (1 : UInt8) else 0) &&& 1 ≠ 0) =
          record.definition.unique := by
      cases record.definition.unique <;> decide
    rw [unique.2]
    refine ⟨?_, room, ⟨by omega, header.magic⟩, ?_, ⟨unique.1, by omega, few, ?_⟩,
      record.definition.name, _, ⟨valid.name, ?_⟩, record.definition.table, _, ⟨?_, rfl⟩,
      record.definition.parts, ⟨rfl, valid.storable wellFormed, rfl⟩, ?_, valid, rfl⟩
    · simp only [headerSize] at total
      omega
    · cases hasDouble record.definition <;> decide
    · rw [Nat.le_div_iff_mul_le (by decide)]
      omega
    · exact drop_left' (length_recordWriteHeader record)
    · rw [valid.tableName]
      exact wellFormed.name
    · cases hasDouble record.definition <;> decide

end Record

def rawCount (data : Bytes) : Nat := (read (field data 36 4)).toNat

def partsOffset (data : Bytes) : Nat :=
  let name := (data.getD headerSize 0).toNat
  let tableName := (data.getD (headerSize + 1 + name) 0).toNat
  headerSize + nameLengths + name + tableName

def rawPart (data : Bytes) (i : Nat) : Bytes := field data (partsOffset data + i * partSize) partSize

def rawOrdinal (data : Bytes) (i : Nat) : Nat := (read (field (rawPart data i) 0 4)).toNat

def rawKind (data : Bytes) (i : Nat) : UInt8 := (rawPart data i).getD 4 0

/-- What makes a record unacceptable for a table, whatever else it holds. -/
inductive Defective (table : TableDefinition) (data : Bytes) : Prop where
  | repeated {i j : Nat} (order : i < j) (inside : j < rawCount data)
      (same : rawOrdinal data i = rawOrdinal data j)
  | ordinal {i : Nat} (inside : i < rawCount data)
      (outside : table.columns.length ≤ rawOrdinal data i)
  | kind {i : Nat} {column : Column} (inside : i < rawCount data)
      (found : table.columns[rawOrdinal data i]? = some column)
      (differs : rawKind data i ≠ partKind column.type.kind)
  | version
      (differs : ¬(data.getD 2 0 = wireReal ↔ ∃ i < rawCount data, rawKind data i = 3))
  | length (wrong : data.length ≠ partsOffset data + rawCount data * partSize)

section WellFormed

variable (wellFormed : table.WellFormed) (valid : WellFormed record table)
include wellFormed valid

theorem rawCount_recordWrite : rawCount (recordWrite record) = record.definition.parts.length :=
  (headerOf_write record).read_count (valid.length_parts_le.trans_lt wellFormed.count)

theorem partsOffset_recordWrite :
    partsOffset (recordWrite record) =
      headerSize + nameLengths + record.definition.name.length + record.definition.table.length := by
  have first : ((recordWrite record).getD headerSize 0).toNat = record.definition.name.length := by
    rw [recordWrite, recordWriteName, cons_append,
      getD_append_cons (length_recordWriteHeader record), valid.name.toNat_length]
  have second : ((recordWrite record).getD (headerSize + 1 + record.definition.name.length) 0).toNat =
      record.definition.table.length := by
    have place : (recordWriteHeader record ++ recordWriteName record.definition.name).length =
        headerSize + 1 + record.definition.name.length := by
      rw [length_append, length_recordWriteHeader, recordWriteName, length_cons]
      omega
    rw [recordWrite, ← append_assoc]
    nth_rewrite 2 [recordWriteName]
    rw [cons_append, getD_append_cons place]
    exact (valid.tableName ▸ wellFormed.name : NameValid _).toNat_length
  simp only [partsOffset, first, second]

theorem rawPart_recordWrite {i : Nat} {part : IndexPart}
    (found : record.definition.parts[i]? = some part) :
    rawPart (recordWrite record) i = recordWritePart part := by
  have start : (recordWrite record).drop (partsOffset (recordWrite record)) =
      record.definition.parts.flatMap recordWritePart := by
    rw [partsOffset_recordWrite wellFormed valid, recordWrite, ← append_assoc,
      ← append_assoc]
    refine drop_left' ?_
    simp only [length_append, length_recordWriteHeader, recordWriteName, length_cons,
      nameLengths]
    omega
  rw [rawPart, field_drop, start]
  exact field_flatMap_fixed length_recordWritePart found

theorem rawOrdinal_recordWrite {i : Nat} {part : IndexPart}
    (found : record.definition.parts[i]? = some part) :
    rawOrdinal (recordWrite record) i = part.column ∧
      rawKind (recordWrite record) i = partKind part.type.kind := by
  have column := (valid.storable wellFormed part (mem_of_getElem? found)).column
  rw [rawOrdinal, rawKind, rawPart_recordWrite wellFormed valid found]
  exact ⟨toNat_read_write (show 4 ≤ 8 by decide) column, rfl⟩

end WellFormed

theorem partKind_eq_three : partKind kind = 3 ↔ kind = .double := by
  cases kind <;> simp [partKind]

theorem not_defective_of_wellFormed (wellFormed : table.WellFormed)
    (valid : WellFormed record table) : ¬Defective table (recordWrite record) := by
  have count := rawCount_recordWrite wellFormed valid
  have part : ∀ {i}, i < rawCount (recordWrite record) → ∃ part,
      record.definition.parts[i]? = some part ∧ rawOrdinal (recordWrite record) i = part.column ∧
        rawKind (recordWrite record) i = partKind part.type.kind := by
    intro i inside
    have found := getElem?_eq_getElem (count ▸ inside)
    exact ⟨_, found, rawOrdinal_recordWrite wellFormed valid found⟩
  intro defective
  cases defective with
  | @repeated i j order inside same =>
    obtain ⟨first, hi, ordinal, -⟩ := part (order.trans inside)
    obtain ⟨second, hj, ordinal', -⟩ := part inside
    have before : first ∈ record.definition.parts.take j :=
      mem_of_getElem? ((getElem?_take_of_lt order).trans hi)
    refine nodup_map_iff_take.mp valid.distinct j second hj first before ?_
    rw [← ordinal, ← ordinal', same]
  | ordinal inside outside =>
    obtain ⟨found, hi, ordinal, -⟩ := part inside
    obtain ⟨-, _, hcolumn, -⟩ := valid.column found (mem_of_getElem? hi)
    rw [ordinal] at outside
    exact absurd (List.getElem?_eq_some_iff.mp hcolumn).1 (not_lt.mpr outside)
  | kind inside found differs =>
    obtain ⟨_, hi, ordinal, kind⟩ := part inside
    obtain ⟨-, column, hcolumn, type⟩ := valid.column _ (mem_of_getElem? hi)
    rw [ordinal, hcolumn] at found
    obtain rfl := Option.some.inj found
    rw [kind, type] at differs
    exact differs rfl
  | version differs =>
    have double : (recordWrite record).getD 2 0 = wireReal ↔
        hasDouble record.definition = true := by
      rw [(headerOf_write record).version]
      cases hasDouble record.definition <;> decide
    refine differs (double.trans ⟨fun some => ?_, fun ⟨i, inside, three⟩ => ?_⟩)
    · obtain ⟨real, member, kind⟩ := any_eq_true.mp some
      obtain ⟨i, hi⟩ := mem_iff_getElem?.mp member
      refine ⟨i, count ▸ (List.getElem?_eq_some_iff.mp hi).1, ?_⟩
      rw [(rawOrdinal_recordWrite wellFormed valid hi).2, partKind_eq_three]
      exact of_decide_eq_true kind
    · obtain ⟨real, hi, -, kind⟩ := part inside
      rw [kind, partKind_eq_three] at three
      exact any_eq_true.mpr ⟨real, mem_of_getElem? hi, decide_eq_true three⟩
  | length wrong =>
    refine wrong ?_
    rw [length_recordWrite, count, partsOffset_recordWrite wellFormed valid]

/-- Index records and indexes are in bijection: a well-formed index with room
for its record is read back from it, whatever is accepted is what the encoder
writes for the index read, and a defective record is always turned down. -/
theorem decode_inverts_record_encode (table : TableDefinition) (wellFormed : table.WellFormed) :
    (∀ record maxBytes, WellFormed record table → (recordWrite record).length ≤ maxBytes →
      ∃ data, encode record table maxBytes = .ok data ∧
        decode data table maxBytes = .ok record) ∧
    (∀ data maxBytes record, decode data table maxBytes = .ok record →
      WellFormed record table ∧ encode record table maxBytes = .ok data) ∧
    (∀ data maxBytes, Defective table data →
      ∃ failure, decode data table maxBytes = .error failure) := by
  refine ⟨?_, ?_, ?_⟩
  · intro record maxBytes valid room
    exact ⟨recordWrite record, (encode_eq_ok wellFormed).mpr ⟨valid, room, rfl⟩,
      (decode_eq_ok wellFormed).mpr ⟨valid, room, rfl⟩⟩
  · intro data maxBytes record accepted
    obtain ⟨valid, room, rfl⟩ := (decode_eq_ok wellFormed).mp accepted
    exact ⟨valid, (encode_eq_ok wellFormed).mpr ⟨valid, room, rfl⟩⟩
  · intro data maxBytes defective
    cases decoded : decode data table maxBytes with
    | ok record =>
      obtain ⟨valid, -, rfl⟩ := (decode_eq_ok wellFormed).mp decoded
      exact (not_defective_of_wellFormed wellFormed valid defective).elim
    | error failure => exact ⟨failure, rfl⟩

theorem decode_inverts_record_encode_double :
    let table : TableDefinition :=
      ⟨[116], [⟨[105], ⟨.int64, false⟩, none⟩, ⟨[115], ⟨.double, true⟩, none⟩], 0⟩
    let record : IndexRecord :=
      ⟨⟨[120], [116], true, [⟨1, ⟨.double, true⟩, true⟩, ⟨0, ⟨.int64, false⟩, false⟩]⟩, ⟨1, 1, 2, 1⟩⟩
    ∃ data, encode record table 56 = .ok data ∧ decode data table 56 = .ok record := by
  intro table record
  refine (decode_inverts_record_encode table (by decide)).1 record 56 ?_ (by decide)
  refine ⟨by decide, by decide, by decide, by decide, by decide, by decide, rfl, by decide, ?_,
    by decide⟩
  simp [record, table, assignmentNumeric]

end TurboDb.IndexRecord
