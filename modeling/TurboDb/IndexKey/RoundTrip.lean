import TurboDb.IndexKey.Order

/-!
Encoding and decoding of index keys are inverse to each other.

A cell that passes the check of decoding is the encoding of the value read from
it, and that of a valid value passes and reads back as the value, negative zero
becoming positive zero. A decoding that fails leaves its outputs alone.
-/

namespace TurboDb.IndexKey

open ByteOrder Words Wire Effect List

/-- Negative zero is stored as positive zero. -/
def canonicalValue : Value → Value
  | .double bits => .double (canonicalDouble bits)
  | value => value

@[simp] theorem orient_orient (part : IndexPart) (cell : Bytes) :
    orient part (orient part cell) = cell := by
  simp only [orient]
  split <;> simp

@[simp] theorem length_orient (part : IndexPart) (cell : Bytes) :
    (orient part cell).length = cell.length := by
  simp only [orient]
  split <;> simp

theorem marker_write (part : IndexPart) (value : Value) :
    marker part (write part value) = if value.kind = .null then nullMarker else valueMarker := by
  simp [marker, write]

theorem payload_write (part : IndexPart) (value : Value) :
    payload part (write part value) = word value := by
  simp [payload, write, orderRead_orderWrite]

theorem isFinite_canonicalDouble (bits : UInt64) :
    isFinite (canonicalDouble bits) ↔ isFinite bits := by
  by_cases h : isZero bits
  · have : bits = 0 ∨ bits = sign := by simpa [isZero] using h
    rcases this with rfl | rfl <;> decide
  · rw [canonicalDouble, if_neg h]

theorem isZero_canonicalDouble {bits : UInt64} (h : isZero (canonicalDouble bits)) :
    canonicalDouble bits = 0 := by
  by_cases hz : isZero bits
  · rw [canonicalDouble, if_pos hz]
  · rw [canonicalDouble, if_neg hz] at h
    exact absurd h hz

section Cell

variable {part : IndexPart} {value : Value} {cell : Bytes} {null : Bool}

theorem read_write (numeric : assignmentNumeric part.type.kind)
    (valid : validValue value part.type) :
    read part (write part value) = canonicalValue value := by
  rw [read, marker_write, payload_write]
  rcases numeric_cases numeric valid with rfl | ⟨v, rfl, hk⟩ | ⟨v, rfl, hk⟩ | ⟨v, rfl, hk⟩
  · simp [Value.kind, canonicalValue]
  · simp [Value.kind, canonicalValue, hk, word, orderSigned_signedOrder, nullMarker, valueMarker]
  · simp [Value.kind, canonicalValue, hk, word, nullMarker, valueMarker]
  · simp [Value.kind, canonicalValue, hk, word, orderDouble_doubleOrder, nullMarker, valueMarker]

theorem checkCell_eq_ok :
    checkCell part cell = .ok null ↔
      assignmentNumeric part.type.kind ∧
      (marker part cell = nullMarker ∨ marker part cell = valueMarker) ∧
      (marker part cell = nullMarker → part.type.nullable ∧ payload part cell = 0) ∧
      (marker part cell ≠ nullMarker → part.type.kind = .double →
        isFinite (orderDouble (payload part cell)) ∧
          (isZero (orderDouble (payload part cell)) → payload part cell = sign)) ∧
      null = decide (marker part cell = nullMarker) := by
  simp only [checkCell, checkType, bind_eq_ok, reject_eq_ok, pure_eq_ok]
  grind

theorem checkCell_write (numeric : assignmentNumeric part.type.kind)
    (valid : validValue value part.type) :
    checkCell part (write part value) = .ok (value.kind = .null) := by
  rw [checkCell_eq_ok, marker_write, payload_write]
  refine ⟨numeric, ?_, ?_, ?_, ?_⟩
  · split <;> simp
  · rcases numeric_cases numeric valid with rfl | ⟨v, rfl, hk⟩ | ⟨v, rfl, hk⟩ | ⟨v, rfl, hk⟩ <;>
      simp_all [Value.kind, word, validValue, nullMarker, valueMarker]
  · intro _ hk
    rcases numeric_cases numeric valid with rfl | ⟨v, rfl, hk'⟩ | ⟨v, rfl, hk'⟩ | ⟨v, rfl, -⟩
    · simp_all [Value.kind]
    · exact absurd (hk.symm.trans hk') (by decide)
    · exact absurd (hk.symm.trans hk') (by decide)
    · have finite : isFinite v = true := by simp_all [validValue]
      simp only [word, orderDouble_doubleOrder, isFinite_canonicalDouble]
      refine ⟨finite, fun zero => ?_⟩
      rw [doubleOrder_eq, isZero_canonicalDouble zero]
      rfl
  · split <;> simp_all [nullMarker, valueMarker]

/-- A cell that passes the check is the encoding of the value it reads as. -/
theorem write_read (span : cell.length = cellSize) (accepted : checkCell part cell = .ok null) :
    write part (read part cell) = cell ∧ validValue (read part cell) part.type ∧
      null = decide ((read part cell).kind = .null) := by
  obtain ⟨numeric, markers, canonicalNull, canonicalReal, rfl⟩ := checkCell_eq_ok.mp accepted
  obtain ⟨m, rest, hcell⟩ : ∃ m rest, orient part cell = m :: rest := by
    cases h : orient part cell with
    | nil => simpa [h, cellSize] using (length_orient part cell).trans span
    | cons m rest => exact ⟨m, rest, rfl⟩
  have hrest : rest.length = 8 := by
    have := (length_orient part cell).trans span
    rw [hcell] at this
    simpa [cellSize] using this
  have hmarker : marker part cell = m := by simp [marker, hcell]
  have hpayload : orderWrite (payload part cell) = rest := by
    rw [payload, hcell, tail_cons, orderWrite_orderRead hrest]
  have assemble : ∀ value : Value, (if value.kind = .null then nullMarker else valueMarker) = m →
      word value = payload part cell → write part value = cell := by
    intro value hm hw
    rw [write, hm, hw, hpayload, ← hcell, orient_orient]
  by_cases hnull : marker part cell = nullMarker
  · have hread : read part cell = .null := by rw [read, if_pos hnull]
    obtain ⟨nullable, zero⟩ := canonicalNull hnull
    rw [hread]
    refine ⟨assemble _ ?_ zero.symm, nullable, ?_⟩
    · rw [← hmarker, hnull]
      rfl
    · simp [hnull, Value.kind]
  · have hvalue : valueMarker = m := (hmarker ▸ (markers.resolve_left hnull)).symm
    rw [read, if_neg hnull]
    cases hk : part.type.kind with
    | int64 =>
      exact ⟨assemble _ hvalue (signedOrder_orderSigned _), by simp [validValue, hk],
        by simp [hnull, Value.kind]⟩
    | uint64 =>
      exact ⟨assemble _ hvalue rfl, by simp [validValue, hk], by simp [hnull, Value.kind]⟩
    | double =>
      obtain ⟨finite, canonical⟩ := canonicalReal hnull hk
      exact ⟨assemble _ hvalue (doubleOrder_orderDouble canonical),
        by simp [validValue, hk, finite], by simp [hnull, Value.kind]⟩
    | null | boolean | text | blob => simp [assignmentNumeric, hk] at numeric

end Cell

variable {capacity : Nat} {failure : Failure}

section Tuple

variable {parts : List IndexPart} {row : List Value} {data : Bytes}
variable {values : List Value} {null : Bool}

@[simp] theorem length_cells (parts : List IndexPart) (data : Bytes) :
    (cells parts data).length = parts.length := by
  induction parts generalizing data with
  | nil => rfl
  | cons part parts ih => simp [cells, ih]

theorem flatten_cells (span : data.length = parts.length * cellSize) :
    (cells parts data).flatten = data := by
  induction parts generalizing data with
  | nil =>
    simp only [length_nil, Nat.zero_mul, length_eq_zero_iff] at span
    simp [cells, span]
  | cons part parts ih =>
    simp only [length_cons, Nat.succ_mul] at span
    rw [cells, flatten_cons, ih (by simp; omega), take_append_drop]

theorem mem_cells_length (span : data.length = parts.length * cellSize) :
    ∀ cell ∈ cells parts data, cell.length = cellSize := by
  induction parts generalizing data with
  | nil => simp [cells]
  | cons part parts ih =>
    simp only [length_cons, Nat.succ_mul] at span
    simp only [cells, forall_mem_cons, length_take]
    exact ⟨by omega, ih (by simp; omega)⟩

theorem cells_keyBytes (parts : List IndexPart) (row : List Value) :
    cells parts (keyBytes parts row) = parts.map fun part => write part (keyValue row part) := by
  induction parts with
  | nil => rfl
  | cons part parts ih =>
    simp only [keyBytes, flatMap_cons, map_cons] at ih ⊢
    rw [cells, take_left' (length_write _ _), drop_left' (length_write _ _), ih]

theorem mapM_checkCell_eq_ok {cells : List Bytes} {nulls : List Bool}
    (lengths : cells.length = parts.length)
    (spans : ∀ cell ∈ cells, cell.length = cellSize)
    (accepted : (parts.zip cells).mapM (fun (part, cell) => checkCell part cell) = .ok nulls) :
    List.Forall₂ (fun part value => assignmentNumeric part.type.kind ∧
        validValue value part.type) parts (parts.zipWith read cells) ∧
      (parts.zipWith write (parts.zipWith read cells)) = cells ∧
      nulls = (parts.zipWith read cells).map fun value => decide (value.kind = .null) := by
  induction parts generalizing cells nulls with
  | nil =>
    simp_all
  | cons part parts ih =>
    cases cells with
    | nil => simp at lengths
    | cons cell cells =>
      simp only [zip_cons_cons, mapM_cons, bind_eq_ok, pure_eq_ok] at accepted
      obtain ⟨null, hcell, rest, hrest, rfl⟩ := accepted
      have hnumeric := (checkCell_eq_ok.mp hcell).1
      obtain ⟨hwrite, hvalid, hnull⟩ := write_read (spans cell (by simp)) hcell
      obtain ⟨valid, writes, hnulls⟩ := ih (by simpa using lengths)
        (fun cell hc => spans cell (by simp [hc])) hrest
      simp only [zipWith_cons_cons, forall₂_cons, map_cons]
      exact ⟨⟨⟨hnumeric, hvalid⟩, valid⟩, by rw [hwrite, writes], by rw [hnull, hnulls]⟩

section Numeric

variable (numeric : ∀ part ∈ parts, assignmentNumeric part.type.kind)
  (valid : ∀ part ∈ parts, validValue (keyValue row part) part.type)
include numeric valid

theorem mapM_checkCell_keyBytes :
    (parts.zip (parts.map fun part => write part (keyValue row part))).mapM
        (fun (part, cell) => checkCell part cell) =
      .ok (parts.map fun part => decide ((keyValue row part).kind = .null)) := by
  induction parts with
  | nil => rfl
  | cons part parts ih =>
    simp only [forall_mem_cons] at numeric valid
    simp only [map_cons, zip_cons_cons, mapM_cons, bind_eq_ok, pure_eq_ok]
    exact ⟨_, checkCell_write numeric.1 valid.1, _, ih numeric.2 valid.2, rfl⟩

theorem zipWith_read_keyBytes :
    parts.zipWith read (parts.map fun part => write part (keyValue row part)) =
      parts.map fun part => canonicalValue (keyValue row part) := by
  rw [zipWith_map_right, zipWith_self]
  exact map_congr_left fun part hpart => read_write (numeric part hpart) (valid part hpart)

end Numeric

theorem decodeValues_eq_ok :
    decodeValues parts data capacity = .ok (values, null) ↔
      size parts = .ok (parts.length * cellSize) ∧ data.length = parts.length * cellSize ∧
      parts.length ≤ capacity ∧ parts.length * cellSize ≤ sizeMax / 2 ∧
      ∃ nulls, (parts.zip (cells parts data)).mapM (fun (part, cell) => checkCell part cell) =
          .ok nulls ∧
        values = parts.zipWith read (cells parts data) ∧ null = nulls.any id := by
  simp only [decodeValues, charge, bind_eq_ok, reject_eq_ok, pure_eq_ok, Prod.mk.injEq]
  constructor
  · rintro ⟨n, hsize, -, span, -, room, -, steps, nulls, accepted, rfl, rfl⟩
    obtain rfl := (size_eq_ok.mp hsize).2.2
    exact ⟨hsize, by omega, by omega, by omega, nulls, accepted, rfl, rfl⟩
  · rintro ⟨hsize, span, room, steps, nulls, accepted, rfl, rfl⟩
    exact ⟨_, hsize, (), by omega, (), by omega, (), by omega, nulls, accepted, rfl, rfl⟩

def Malformed (part : IndexPart) (cell : Bytes) : Prop :=
  marker part cell ≠ nullMarker ∧ marker part cell ≠ valueMarker ∨
  marker part cell = nullMarker ∧ (part.type.nullable = false ∨ payload part cell ≠ 0) ∨
  marker part cell = valueMarker ∧ part.type.kind = .double ∧
    (isFinite (orderDouble (payload part cell)) = false ∨
      isZero (orderDouble (payload part cell)) = true ∧ payload part cell ≠ sign)

theorem checkCell_malformed {part : IndexPart} {cell : Bytes}
    (bad : Malformed part cell) : checkCell part cell ≠ .ok null := by
  rw [Ne, checkCell_eq_ok]
  have : valueMarker ≠ nullMarker := by decide
  rintro ⟨-, markers, canonicalNull, canonicalReal, -⟩
  rcases bad with ⟨h0, h1⟩ | ⟨h0, h | h⟩ | ⟨h1, hk, h | ⟨hz, hw⟩⟩
  · exact markers.elim h0 h1
  · simp [(canonicalNull h0).1] at h
  · exact h (canonicalNull h0).2
  · simp [(canonicalReal (h1 ▸ this) hk).1] at h
  · exact hw ((canonicalReal (h1 ▸ this) hk).2 hz)

theorem checkCell_error_status {part : IndexPart} {cell : Bytes}
    (numeric : assignmentNumeric part.type.kind) (h : checkCell part cell = .error failure) :
    failure.status = .datastoreError := by
  simp only [checkCell, checkType, bind_eq_error, reject_eq_error, reject_eq_ok, pure_ne_error,
    numeric] at h
  grind

/-- With room for the values, every refusal of a bound definition is corruption. -/
theorem decodeValues_error_status (bound : Bound parts) (room : parts.length ≤ capacity)
    (h : decodeValues parts data capacity = .error failure) : failure.status = .datastoreError := by
  have steps := bound.fits
  simp only [decodeValues, charge, bound.size_eq, bind_eq_error, reject_eq_error,
    reject_eq_ok, pure_ne_error, reduceCtorEq, false_or, Except.ok.injEq] at h
  obtain ⟨_, rfl, ⟨-, rfl⟩ | ⟨-, -, ⟨h, -⟩ | ⟨-, -, ⟨h, -⟩ | ⟨-, -, h | ⟨_, -, h⟩⟩⟩⟩⟩ := h
  · rfl
  · omega
  · omega
  · obtain ⟨⟨part, cell⟩, mem, h⟩ := mapM_eq_error h
    exact checkCell_error_status (bound.numeric part (of_mem_zip mem).1) h
  · exact h.elim

theorem decode_run (parts : List IndexPart) (data : Bytes) (out : Output) :
    decode parts data out =
      match decodeValues parts data out.values.length with
      | .error failure => .error failure out
      | .ok (values, null) =>
        .ok () { values := values ++ out.values.drop parts.length, containsNull := null } := by
  rw [decode, run_bind_ok run_get]
  cases decodeValues parts data out.values.length <;> rfl

theorem exists_row (distinct : (parts.map IndexPart.column).Nodup)
    (lengths : parts.length = values.length) :
    ∃ row : List Value, List.Forall₂ (fun part value => row[part.column]? = some value)
      parts values := by
  obtain ⟨f, hf⟩ : ∃ f : Nat → Value,
      List.Forall₂ (fun part value => f part.column = value) parts values := by
    induction parts generalizing values with
    | nil =>
      obtain rfl := length_eq_zero_iff.mp lengths.symm
      exact ⟨fun _ => .null, .nil⟩
    | cons part parts ih =>
      cases values with
      | nil => simp at lengths
      | cons value values =>
        obtain ⟨fresh, distinct⟩ := nodup_cons.mp distinct
        obtain ⟨f, hf⟩ := ih distinct (by simpa using lengths)
        refine ⟨Function.update f part.column value, .cons (by simp) ?_⟩
        rw [forall₂_iff_get] at hf ⊢
        refine ⟨hf.1, fun i hi hi' => ?_⟩
        have other : (parts.get ⟨i, hi⟩).column ≠ part.column :=
          fun h => fresh (h ▸ mem_map_of_mem (get_mem parts ⟨i, hi⟩))
        rw [Function.update_of_ne other]
        exact hf.2 i hi hi'
  obtain ⟨width, hwidth⟩ : ∃ width, ∀ part ∈ parts, part.column < width := by
    clear hf lengths distinct
    induction parts with
    | nil => simp
    | cons part parts ih =>
      obtain ⟨width, hwidth⟩ := ih
      refine ⟨max (part.column + 1) width, forall_mem_cons.mpr ⟨by omega, ?_⟩⟩
      intro part hpart
      have := hwidth part hpart
      omega
  refine ⟨(range width).map f, ?_⟩
  rw [forall₂_iff_get] at hf ⊢
  refine ⟨hf.1, fun i hi hi' => ?_⟩
  rw [getElem?_map, getElem?_range (hwidth _ (get_mem parts ⟨i, hi⟩)),
    Option.map_some, hf.2 i hi hi']

/-- A tuple read from accepted bytes encodes to those bytes from any row that
holds it in the key columns. -/
theorem encode_of_decodeValues {room : Nat}
    (accepted : decodeValues parts data capacity = .ok (values, null))
    (enough : parts.length * cellSize ≤ room)
    (holds : List.Forall₂ (fun part value => row[part.column]? = some value) parts values) :
    encode parts row room = .ok (data, null) := by
  obtain ⟨hsize, span, -, steps, nulls, passed, rfl, rfl⟩ := decodeValues_eq_ok.mp accepted
  obtain ⟨valid, writes, rfl⟩ :=
    mapM_checkCell_eq_ok (length_cells parts data) (mem_cells_length span) passed
  have hvalues : parts.zipWith read (cells parts data) = parts.map (keyValue row) := by
    refine ext_get (by simp) fun i hi hi' => ?_
    have := (forall₂_iff_get.mp holds).2 i (by simpa using hi') hi
    simp only [get_eq_getElem, getElem_map, keyValue] at this ⊢
    rw [this]
    rfl
  have parted : ∀ part ∈ parts, assignmentNumeric part.type.kind = true ∧ ValidAt row part := by
    intro part hpart
    obtain ⟨⟨i, hi⟩, rfl⟩ := mem_iff_get.mp hpart
    have hi' : i < (parts.zipWith read (cells parts data)).length := by simpa using hi
    obtain ⟨numeric, typed⟩ := (forall₂_iff_get.mp valid).2 i hi hi'
    exact ⟨numeric, _, (forall₂_iff_get.mp holds).2 i hi hi', typed⟩
  rw [hvalues] at writes ⊢
  rw [encode_eq_ok]
  refine ⟨⟨(size_eq_ok.mp hsize).1, fun part hpart => (parted part hpart).1, steps⟩, enough,
    fun part hpart => (parted part hpart).2, ?_, ?_⟩
  · rw [← flatten_cells span, ← writes, zipWith_map_right, zipWith_self, keyBytes,
      flatMap_def]
  · simp [containsNull, any_map, Function.comp_def]

/-- Encoding and decoding are inverse on a bound definition. The bytes of a
valid row decode to its key values, negative zero read back as positive zero,
with the NULL flag of the encoder; accepted bytes are the encoding of what was
decoded, from every row that holds it; bytes of another length or with a
malformed cell are refused as corruption; and a refusal publishes nothing. -/
theorem decode_inverts_encode (parts : List IndexPart) (bound : Bound parts)
    (distinct : (parts.map IndexPart.column).Nodup) (capacity : Nat)
    (room : parts.length * cellSize ≤ capacity) :
    (∀ row, (∀ part ∈ parts, ValidAt row part) → ∃ bytes null,
      encode parts row capacity = .ok (bytes, null) ∧
      ∀ out : Output, parts.length ≤ out.values.length →
        decode parts bytes out = .ok ()
          ⟨(parts.map fun part => canonicalValue (keyValue row part)) ++
            out.values.drop parts.length, null⟩) ∧
    (∀ data (out next : Output), decode parts data out = .ok () next →
      (∃ row : List Value, List.Forall₂ (fun part value => row[part.column]? = some value) parts
        (next.values.take parts.length)) ∧
      ∀ row : List Value, List.Forall₂ (fun part value => row[part.column]? = some value) parts
        (next.values.take parts.length) →
        encode parts row capacity = .ok (data, next.containsNull)) ∧
    (∀ data (out : Output), parts.length ≤ out.values.length →
      (data.length ≠ parts.length * cellSize ∨
        ∃ part cell, (part, cell) ∈ parts.zip (cells parts data) ∧ Malformed part cell) →
      ∃ failure, decode parts data out = .error failure out ∧
        failure.status = .datastoreError) ∧
    (∀ data (out next : Output) failure,
      decode parts data out = .error failure next → next = out) := by
  refine ⟨fun row valid => ?_, fun data out next accepted => ?_, fun data out enough bad => ?_,
    fun data out next failure refused => ?_⟩
  · have valid' := fun part hpart => (valid part hpart).valid
    refine ⟨_, _, encode_eq_ok.mpr ⟨bound, room, valid, rfl, rfl⟩, fun out enough => ?_⟩
    have decoded : decodeValues parts (keyBytes parts row) out.values.length =
        .ok (parts.map fun part => canonicalValue (keyValue row part),
          containsNull parts row) := by
      refine decodeValues_eq_ok.mpr ⟨bound.size_eq, length_keyBytes parts row, enough,
        bound.fits, parts.map fun part => decide ((keyValue row part).kind = .null), ?_, ?_, ?_⟩
      · rw [cells_keyBytes]
        exact mapM_checkCell_keyBytes bound.numeric valid'
      · rw [cells_keyBytes, zipWith_read_keyBytes bound.numeric valid']
      · simp [containsNull, any_map]
    rw [decode_run, decoded]
  · rw [decode_run] at accepted
    cases decoded : decodeValues parts data out.values.length with
    | error failure => simp [decoded] at accepted
    | ok result =>
      obtain ⟨values, null⟩ := result
      simp only [decoded, EStateM.Result.ok.injEq, true_and] at accepted
      obtain rfl := accepted
      have len : values.length = parts.length := by
        obtain ⟨-, -, -, -, _, -, rfl, -⟩ := decodeValues_eq_ok.mp decoded
        simp
      rw [take_left' len]
      exact ⟨exists_row distinct len.symm,
        fun row holds => encode_of_decodeValues decoded room holds⟩
  · rw [decode_run]
    cases decoded : decodeValues parts data out.values.length with
    | error failure => exact ⟨failure, rfl, decodeValues_error_status bound enough decoded⟩
    | ok result =>
      obtain ⟨-, span, -, -, nulls, passed, -, -⟩ := decodeValues_eq_ok.mp decoded
      rcases bad with bad | ⟨part, cell, mem, bad⟩
      · exact absurd span bad
      · obtain ⟨null, hnull⟩ := mapM_ok_of_mem passed mem
        exact absurd hnull (checkCell_malformed bad)
  · rw [decode_run] at refused
    cases decoded : decodeValues parts data out.values.length with
    | error failure => simp_all
    | ok result => simp [decoded] at refused

theorem decode_inverts_encode_mixed :
    let parts : List IndexPart := [⟨1, ⟨.double, false⟩, true⟩, ⟨0, ⟨.int64, true⟩, false⟩]
    ∃ bytes, encode parts [.null, .double sign] 18 = .ok (bytes, true) ∧
      decode parts bytes ⟨[.null, .int64 5], false⟩ = .ok () ⟨[.double 0, .null], true⟩ := by
  intro parts
  obtain ⟨bytes, null, encoded, decoded⟩ := (decode_inverts_encode parts
    ⟨by decide, by decide, by decide⟩ (by decide) 18 (by decide)).1 [.null, .double sign]
    (by simp [parts, ValidAt, validValue]; decide)
  obtain rfl : true = null := congrArg Prod.snd (Except.ok.inj encoded)
  exact ⟨bytes, encoded, decoded _ (by decide)⟩

end Tuple

end TurboDb.IndexKey
