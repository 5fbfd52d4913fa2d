import TurboDb.Mysql.Statement
import TurboDb.Mysql.Packet
import Mathlib.Data.List.Induction

/-!
Execute commands are decoded to the values they were built from.

The bytes of a command are stated first; the builder writes them or hits its
capacity. The decoder's two passes read the same parameters, and an accepted command
is read to its end.
-/

namespace TurboDb.Mysql

open ByteOrder Effect StmtValue Bitmap Wire List

def StmtValue.Valid : StmtValue → Prop
  | .bool value => value ≤ 1
  | .double bits => isFinite bits = true
  | _ => True

def StmtValue.value : StmtValue → Value
  | .null => .null
  | .sint64 value => .int64 value
  | .uint64 value => .uint64 value
  | .double bits => .double bits
  | .bool value => .boolean value
  | .text bytes => .text bytes
  | .blob bytes => .blob bytes

def StmtValue.type : StmtValue → FieldType
  | .null => .null
  | .sint64 _ | .uint64 _ => .longlong
  | .double _ => .double
  | .bool _ => .tiny
  | .text _ => .varString
  | .blob _ => .blob

def StmtValue.flags : StmtValue → UInt8
  | .uint64 _ => unsignedFlag
  | _ => 0

def StmtValue.bytes : StmtValue → Bytes
  | .null => []
  | .sint64 value => write 8 value.toUInt64
  | .uint64 value => write 8 value
  | .double bits => write 8 bits
  | .bool value => [value]
  | .text bytes | .blob bytes => lenencBytes bytes

def StmtValue.retained : StmtValue → Nat
  | .text bytes | .blob bytes => bytes.length
  | _ => 0

def StmtValue.typeBytes (value : StmtValue) : Bytes := [value.type.code, value.flags]

def StmtValue.typeWord (value : StmtValue) : UInt16 :=
  value.type.code.toUInt16 ||| value.flags.toUInt16 <<< 8

def nullFlags (values : List StmtValue) : List Bool := values.map fun value => value = .null

def executeBitmap (values : List StmtValue) : Bytes :=
  Bitmap.mark (replicate ((values.length + 7) / 8) 0) 0 (nullFlags values)

def executeHead (statementId : UInt32) : Bytes :=
  comStmtExecute :: (write 4 statementId.toUInt64 ++ 0 :: write 4 1)

def executeBytes (statementId : UInt32) (values : List StmtValue) : Bytes :=
  executeHead statementId ++ if values.isEmpty then [] else
    executeBitmap values ++ (1 :: (values.flatMap typeBytes ++
      values.flatMap bytes))

variable {out map after : Bytes}

section Build

variable {capacity : Nat}

theorem emitWithin_append (capacity : Nat) (out first second : Bytes) :
    emitWithin capacity (out ++ first) second = emitWithin capacity out (first ++ second) := by
  simp only [emitWithin_eq, length_append, append_assoc, Nat.add_assoc]

theorem emitWithin_bind {first second : Bytes} :
    (emitWithin capacity out first >>= fun out => emitWithin capacity out second) =
      emitWithin capacity out (first ++ second) := by
  simp only [emitWithin_eq, length_append]
  split_ifs with one two
  · rw [ok_bind, length_append, if_pos (by omega), append_assoc]
  · rw [ok_bind, length_append, if_neg (by omega)]
  · omega
  · rfl

theorem emitWithin_full {data : Bytes} (full : capacity < out.length + data.length) :
    emitWithin capacity out data = .error .limit := by
  rw [emitWithin_eq, if_neg (by omega)]

theorem emitWithin_fits {data : Bytes} (fits : out.length + data.length ≤ capacity) :
    emitWithin capacity out data = .ok (out ++ data) := by
  rw [emitWithin_eq, if_pos fits]

theorem stmtEmitLenencBytes_eq (capacity : Nat) (out bytes : Bytes) :
    stmtEmitLenencBytes capacity out bytes = emitWithin capacity out (lenencBytes bytes) := by
  simp only [stmtEmitLenencBytes, writeLenencUint_eq, emitWithin_bind, lenencBytes]

theorem stmtEmitValue_eq (value : StmtValue) (room : out.length ≤ capacity) :
    stmtEmitValue capacity out value = emitWithin capacity out value.bytes := by
  cases value with
  | null => simp [stmtEmitValue, bytes, emitWithin_eq, room, pure_ok]
  | sint64 _ | uint64 _ | double _ | bool _ => rfl
  | text bytes | blob bytes => exact stmtEmitLenencBytes_eq capacity out bytes

theorem stmtEmitValues_eq (values : List StmtValue) (room : out.length ≤ capacity) :
    stmtEmitValues capacity out values =
      emitWithin capacity out (values.flatMap bytes) := by
  induction values generalizing out with
  | nil => simp [stmtEmitValues, emitWithin_eq, room, pure_ok]
  | cons value values ih =>
    rw [stmtEmitValues, stmtEmitValue_eq value room, flatMap_cons]
    by_cases fits : out.length + value.bytes.length ≤ capacity
    · rw [emitWithin_fits fits, ok_bind, ih (by rwa [length_append]), emitWithin_append]
    · rw [emitWithin_full (by omega), emitWithin_full (by rw [length_append]; omega)]
      rfl

theorem stmtEmitValues_bind (capacity : Nat) (out first : Bytes) (values : List StmtValue) :
    (emitWithin capacity out first >>= fun out => stmtEmitValues capacity out values) =
      emitWithin capacity out (first ++ values.flatMap bytes) := by
  by_cases fits : out.length + first.length ≤ capacity
  · rw [emitWithin_fits fits, ok_bind, stmtEmitValues_eq values (by rwa [length_append]),
      emitWithin_append]
  · rw [emitWithin_full (by omega), emitWithin_full (by rw [length_append]; omega)]
    rfl

theorem stmtValueType_eq {value : StmtValue} (valid : value.Valid) :
    stmtValueType value = .ok (value.type, value.flags) := by
  cases value with
  | bool value =>
    have small : ¬value > 1 := not_lt.mpr valid
    simp [stmtValueType, reject, small, type, flags, pure_ok, ok_bind]
  | null | sint64 _ | uint64 _ | double _ | text _ | blob _ => rfl

theorem modify_append_left {k : Nat} {f : UInt8 → UInt8} (inside : k < map.length) :
    (map ++ after).modify k f = map.modify k f ++ after := by
  induction map generalizing k with
  | nil => simp at inside
  | cons byte map ih =>
    cases k with
    | zero => rfl
    | succ k => simp [modify_succ_cons, ih (by simpa using inside)]

theorem modify_bitmap (before : Bytes) {i : Nat} (inside : i / 8 < map.length) :
    (before ++ (map ++ after)).modify (before.length + i / 8) (· ||| bit (i % 8)) =
      before ++ (Bitmap.set map i ++ after) := by
  induction before with
  | nil => simpa [Bitmap.set] using modify_append_left inside
  | cons byte before ih =>
    rw [length_cons, Nat.add_right_comm, cons_append, modify_succ_cons, ih]
    rfl

theorem stmtEmitTypes_eq {capacity i : Nat} {before : Bytes} {values : List StmtValue}
    (valid : ∀ value ∈ values, value.Valid) (inside : i + values.length ≤ 8 * map.length)
    (room : (before ++ (map ++ after)).length ≤ capacity) :
    stmtEmitTypes capacity before.length i (before ++ (map ++ after)) values =
      emitWithin capacity (before ++ (Bitmap.mark map i (nullFlags values) ++ after))
        (values.flatMap typeBytes) := by
  induction values generalizing i map after with
  | nil =>
    rw [stmtEmitTypes, emitWithin_eq]
    simp only [nullFlags, map_nil, Bitmap.mark, flatMap_nil, append_nil,
      length_nil, Nat.add_zero, if_pos room]
    rfl
  | cons value values ih =>
    obtain ⟨here, later⟩ := forall_mem_cons.mp valid
    rw [length_cons] at inside
    have bytes : ((value :: values).flatMap typeBytes) =
        [value.type.code, value.flags] ++ values.flatMap typeBytes := rfl
    rw [stmtEmitTypes, stmtValueType_eq here, ok_bind, bytes]
    dsimp only
    by_cases fits : (before ++ (map ++ after)).length + 2 ≤ capacity
    · have one : emitWithin capacity (before ++ (map ++ after)) [value.type.code] =
          .ok (before ++ (map ++ (after ++ [value.type.code]))) := by
        rw [emitWithin_fits (by simp only [length_singleton]; omega)]
        simp
      have two : emitWithin capacity (before ++ (map ++ (after ++ [value.type.code])))
          [value.flags] = .ok (before ++ (map ++ (after ++ [value.type.code, value.flags]))) := by
        rw [emitWithin_fits (by simp at fits ⊢; omega)]
        simp
      rw [one, ok_bind, two, ok_bind]
      by_cases null : value = .null
      · rw [if_pos null, modify_bitmap before (by omega),
          ih later (by rw [Bitmap.length_set]; omega) (by simp at fits ⊢; omega)]
        rw [← emitWithin_append]
        simp only [nullFlags, map_cons, Bitmap.mark, null, decide_true, if_true,
          append_assoc]
      · rw [if_neg null, ih later (by omega) (by simp at fits ⊢; omega)]
        rw [← emitWithin_append]
        simp only [nullFlags, map_cons, Bitmap.mark, null, decide_false,
          Bool.false_eq_true, if_false, append_assoc]
    · have full : ∀ data : Bytes, 2 ≤ data.length →
          emitWithin capacity (before ++ (map ++ after)) data = .error .limit :=
        fun data long => emitWithin_full (by omega)
      rw [← bind_assoc, emitWithin_bind, full _ (by simp), emitWithin_full]
      · rfl
      · simp only [length_append, length_mark, length_cons] at fits ⊢
        omega

theorem executeHead_eq (capacity : Nat) (statementId : UInt32) (rest : Bytes → Except WireStatus Bytes) :
    (do
      let out ← emitWithin capacity [] [comStmtExecute]
      let out ← writeLe 4 capacity out statementId.toUInt64
      let out ← emitWithin capacity out [0]
      let out ← writeLe 4 capacity out 1
      rest out) = (emitWithin capacity [] (executeHead statementId) >>= rest) := by
  simp only [writeLe, ← bind_assoc, emitWithin_bind]
  rfl

theorem length_executeHead (statementId : UInt32) : (executeHead statementId).length = 10 := by
  simp [executeHead, length_write]

theorem buildStmtExecute_eq {statementId : UInt32} {values : List StmtValue}
    (valid : ∀ value ∈ values, value.Valid) (few : values.length ≤ 0xFFFF) (capacity : Nat) :
    buildStmtExecute statementId values capacity =
      emitWithin capacity [] (executeBytes statementId values) := by
  rw [buildStmtExecute, reject, if_neg (by omega), pure_ok, ok_bind]
  rw [executeHead_eq]
  by_cases fits : (executeHead statementId).length ≤ capacity
  · rw [emitWithin_fits (by simpa using fits), ok_bind, nil_append]
    have start : emitWithin capacity [] (executeBytes statementId values) =
        emitWithin capacity (executeHead statementId) (if values.isEmpty then [] else
          executeBitmap values ++ (1 :: (values.flatMap typeBytes ++
            values.flatMap bytes))) := by
      rw [executeBytes, ← emitWithin_append, nil_append]
    rw [start]
    cases values with
    | nil => simp [emitWithin_eq, ok_bind, pure_ok, fits]
    | cons value values =>
      generalize hall : value :: values = all at *
      have nonempty : all.isEmpty = false := by simp [← hall]
      simp only [nonempty, Bool.false_eq_true, if_false]
      rw [← bind_assoc, emitWithin_bind]
      by_cases more : (executeHead statementId).length + ((all.length + 7) / 8 + 1) ≤ capacity
      · rw [emitWithin_fits (by simp; omega), ok_bind,
          stmtEmitTypes_eq valid (by simp; omega) (by simp; omega), stmtEmitValues_bind,
          emitWithin_append]
        simp [executeBitmap]
      · rw [emitWithin_full (by simp; omega), emitWithin_full]
        · rfl
        · simp [executeBitmap]
          omega
  · rw [emitWithin_full (by omega), emitWithin_full]
    · rfl
    · rw [executeBytes, length_append]
      omega

end Build

section Parameters

theorem typeWord_type (value : StmtValue) : fieldType value.typeWord.toUInt8 = some value.type := by
  have low : value.typeWord.toUInt8 = value.type.code := by
    cases value <;> simp only [typeWord, type, flags] <;> decide
  rw [low, fieldType_code]

theorem typeWord_flags (value : StmtValue) : (value.typeWord >>> 8).toUInt8 = value.flags := by
  cases value <;> simp only [typeWord, type, flags] <;> decide

theorem typeWord_unsigned (value : StmtValue) :
    (value.typeWord >>> 8 ≠ 0) ↔ value.flags = unsignedFlag := by
  cases value <;> simp only [typeWord, type, flags] <;> decide

theorem parameterType_typeWord (value : StmtValue) : parameterType value.typeWord = .ok () := by
  simp only [parameterType, typeWord_type, typeWord_flags]
  cases value <;> rfl

theorem parameterValue_bytes {value : StmtValue} {retained maxBytes : Nat} (valid : value.Valid)
    (present : value ≠ .null) (room : retained + value.retained ≤ maxBytes)
    (small : maxBytes < 2 ^ 64) (rest : Bytes) :
    parameterValue value.typeWord retained maxBytes (value.bytes ++ rest) =
      .ok (value.value, retained + value.retained, rest) := by
  have word : ∀ value : UInt64, readU64Le (write 8 value ++ rest) = .ok (value, rest) :=
    fun value => readLe_write (by decide) value.toNat_lt rest
  simp only [parameterValue, typeWord_type, typeWord_unsigned]
  cases value with
  | null => exact absurd rfl present
  | sint64 value =>
    simp only [StmtValue.type, StmtValue.bytes, word]
    simp [complete, Except.mapError, ok_bind, StmtValue.flags, unsignedFlag, StmtValue.value,
      StmtValue.retained, pure_ok]
  | uint64 value =>
    simp only [StmtValue.type, StmtValue.bytes, word]
    simp [complete, Except.mapError, ok_bind, StmtValue.flags, StmtValue.value,
      StmtValue.retained, pure_ok]
  | double bits =>
    have finite : isFinite bits := valid
    simp only [StmtValue.type, StmtValue.bytes, word]
    simp [complete, Except.mapError, ok_bind, StmtValue.value, finite, reject,
      StmtValue.retained, pure_ok]
  | bool value =>
    have le : value ≤ 1 := valid
    simp [StmtValue.type, StmtValue.bytes, StmtValue.flags, unsignedFlag, StmtValue.value,
      StmtValue.retained, pure_ok, le]
  | text bytes | blob bytes =>
    simp only [StmtValue.retained] at room
    have fits : ¬(retained > maxBytes ∨ bytes.length > maxBytes - retained) := by omega
    simp only [StmtValue.type, StmtValue.bytes,
      readLenencBytes_lenencBytes (show bytes.length < 2 ^ 64 by omega)]
    simp [complete, Except.mapError, ok_bind, given, reject, fits, StmtValue.value,
      StmtValue.retained, pure_ok]

variable {data : Bytes} {types : List UInt16} {layout : ExecuteLayout} {maxBytes : Nat}

/-- One parameter, the text and blob bytes retained with its own, and the input behind it. -/
def executeParameter (data : Bytes) (types : List UInt16) (layout : ExecuteLayout)
    (maxBytes index retained : Nat) (input : Bytes) : Except WireStatus (Value × Nat × Bytes) := do
  let type := executeType data layout types index
  parameterType type
  if get (data.drop layout.bitmap) index then pure (.null, retained, input)
  else parameterValue type retained maxBytes input

def executeParameters (data : Bytes) (types : List UInt16) (layout : ExecuteLayout)
    (maxBytes : Nat) : Nat → Nat → Nat → Bytes → Except WireStatus (List Value × Bytes)
  | 0, _, _, input => pure ([], input)
  | left + 1, index, retained, input => do
    let (value, retained, input) ← executeParameter data types layout maxBytes index retained input
    let (values, input) ← executeParameters data types layout maxBytes left (index + 1) retained
      input
    pure (value :: values, input)

def storeAll (array : List Value) (index : Nat) : List Value → List Value
  | [] => array
  | value :: values => storeAll (array.set index value) (index + 1) values

theorem storeAll_eq {array values : List Value} {index : Nat}
    (room : index + values.length ≤ array.length) :
    storeAll array index values =
      array.take index ++ (values ++ array.drop (index + values.length)) := by
  induction values generalizing array index with
  | nil => simp [storeAll]
  | cons value values ih =>
    rw [length_cons] at room
    have inside : index < array.length := by omega
    rw [storeAll, ih (by rw [List.length_set]; omega), List.take_add_one, List.length_cons,
      take_set_of_le (Nat.le_refl index), drop_set_of_lt (by omega)]
    simp [inside, Nat.add_assoc, Nat.add_comm 1]

theorem executeLoop_succ (store : Bool) (left index retained : Nat) (input : Bytes) :
    executeLoop data types layout store maxBytes (left + 1) index retained input =
      (attempt (executeParameter data types layout maxBytes index retained input) >>= fun read => do
        if store then modify fun cache => { cache with values := cache.values.set index read.1 }
        executeLoop data types layout store maxBytes left (index + 1) read.2.1 read.2.2) := by
  rw [executeLoop, executeParameter]
  cases parameterType (executeType data layout types index) with
  | ok _ => rfl
  | error e => rfl

variable (data types layout maxBytes) in
/-- A pass that stores nothing keeps the arrays, however it ends. -/
theorem executeLoop_check (left index retained : Nat) (input : Bytes) (cache : ExecuteCache) :
    executeLoop data types layout false maxBytes left index retained input cache =
      match executeParameters data types layout maxBytes left index retained input with
      | .ok (_, rest) => .ok rest cache
      | .error e => .error e cache := by
  induction left generalizing index retained input with
  | zero => rfl
  | succ left ih =>
    rw [executeLoop_succ, executeParameters]
    cases executeParameter data types layout maxBytes index retained input with
    | error e => rfl
    | ok parameter =>
      obtain ⟨value, retained', input'⟩ := parameter
      rw [run_bind_ok (run_attempt_ok rfl), ok_bind]
      refine (ih (index + 1) retained' input').trans ?_
      dsimp only
      cases executeParameters data types layout maxBytes left (index + 1) retained' input' <;>
        rfl

theorem executeLoop_store {left index retained : Nat} {input rest : Bytes} {values : List Value}
    {cache : ExecuteCache}
    (read : executeParameters data types layout maxBytes left index retained input =
      .ok (values, rest)) :
    executeLoop data types layout true maxBytes left index retained input cache =
      .ok rest { cache with values := storeAll cache.values index values } := by
  induction left generalizing index retained input values cache with
  | zero =>
    obtain ⟨rfl, rfl⟩ := Prod.mk.inj (Except.ok.inj read)
    rfl
  | succ left ih =>
    simp only [executeParameters, bind_eq_ok, pure_eq_ok, Prod.mk.injEq] at read
    obtain ⟨⟨value, retained', input'⟩, first, ⟨values', rest'⟩, others, rfl, rfl⟩ := read
    rw [executeLoop_succ, run_bind_ok (run_attempt_ok first)]
    exact ih others

/-- Parameters are read back wherever their types and the bitmap are found. -/
theorem executeParameters_values {values : List StmtValue} {index retained : Nat}
    (valid : ∀ value ∈ values, value.Valid)
    (typed : ∀ k value, values[k]? = some value →
      executeType data layout types (index + k) = value.typeWord)
    (nulls : ∀ k value, values[k]? = some value →
      get (data.drop layout.bitmap) (index + k) = decide (value = .null))
    (room : retained + (values.map StmtValue.retained).sum ≤ maxBytes)
    (small : maxBytes < 2 ^ 64) (rest : Bytes) :
    executeParameters data types layout maxBytes values.length index retained
      (values.flatMap StmtValue.bytes ++ rest) = .ok (values.map StmtValue.value, rest) := by
  induction values generalizing index retained with
  | nil => rfl
  | cons value values ih =>
    obtain ⟨here, later⟩ := forall_mem_cons.mp valid
    rw [map_cons, sum_cons] at room
    have type : executeType data layout types index = value.typeWord := typed 0 value rfl
    have null : get (data.drop layout.bitmap) index = decide (value = .null) :=
      nulls 0 value rfl
    have first : executeParameter data types layout maxBytes index retained
        (value.bytes ++ (values.flatMap StmtValue.bytes ++ rest)) =
        .ok (value.value, retained + value.retained, values.flatMap StmtValue.bytes ++ rest) := by
      rw [executeParameter, type, parameterType_typeWord, ok_bind, null]
      by_cases absent : value = .null
      · subst absent
        rfl
      · rw [decide_eq_false absent]
        exact parameterValue_bytes here absent (by omega) small _
    have others : executeParameters data types layout maxBytes values.length (index + 1)
        (retained + value.retained) (values.flatMap StmtValue.bytes ++ rest) =
        .ok (values.map StmtValue.value, rest) := by
      refine ih later (fun k value found => ?_) (fun k value found => ?_) (by omega)
      · rw [Nat.add_assoc, Nat.add_comm 1]
        exact typed (k + 1) value found
      · rw [Nat.add_assoc, Nat.add_comm 1]
        exact nulls (k + 1) value found
    rw [length_cons, executeParameters, flatMap_cons, append_assoc, first, ok_bind]
    simp only [others, ok_bind, pure_ok, map_cons]

end Parameters

variable {statementId : UInt32} {values : List StmtValue} {cache : ExecuteCache}

section Layout

variable {k : Nat} {value : StmtValue} {flag : UInt8} {body : Bytes}

/-- A command with its bitmap, a byte that says whether types follow, and the rest. -/
def executeFrame (statementId : UInt32) (values : List StmtValue) (flag : UInt8) (body : Bytes) :
    Bytes :=
  executeHead statementId ++ (executeBitmap values ++ flag :: body)

theorem length_executeBitmap (values : List StmtValue) :
    (executeBitmap values).length = (values.length + 7) / 8 := by
  simp [executeBitmap]

theorem get_executeBitmap (values : List StmtValue) (k : Nat) :
    get (executeBitmap values) k = (nullFlags values).getD k false := by
  rw [executeBitmap, get_mark]
  · simp
  · simp [nullFlags]
    omega

theorem get_nullFlags (found : values[k]? = some value) :
    (nullFlags values).getD k false = decide (value = .null) := by
  simp [nullFlags, getD, found]

theorem executeFrame_nulls (found : values[k]? = some value) :
    get ((executeFrame statementId values flag body).drop executeHeader) k =
      decide (value = .null) := by
  have inside : k < values.length := (List.getElem?_eq_some_iff.mp found).1
  have body : (executeFrame statementId values flag body).drop executeHeader =
      executeBitmap values ++ flag :: body :=
    drop_left' (length_executeHead statementId)
  rw [body, get_append (by rw [length_executeBitmap]; omega), get_executeBitmap,
    get_nullFlags found]

theorem executeFrame_padding (odd : values.length % 8 ≠ 0) :
    (executeFrame statementId values flag body).getD
      (executeHeader + (values.length + 7) / 8 - 1) 0 >>> UInt8.ofNat (values.length % 8) = 0 := by
  have head := length_executeHead statementId
  have place : executeHeader + (values.length + 7) / 8 - 1 - (executeHead statementId).length =
      values.length / 8 := by
    simp only [executeHeader]
    omega
  rw [executeFrame, getD_append_right _ _ _ _ (by simp only [executeHeader]; omega), place,
    getD_append _ _ _ _ (by rw [length_executeBitmap]; omega)]
  refine shiftRight_eq_zero fun j above _ => ?_
  rw [get_executeBitmap]
  exact getD_eq_default _ _ (by simpa [nullFlags] using above)

theorem executeFrame_behind (flag : UInt8) (body : Bytes) (k : Nat) :
    (executeFrame statementId values flag body).getD
      (executeHeader + (values.length + 7) / 8 + k) 0 = (flag :: body).getD k 0 := by
  have head := length_executeHead statementId
  have map := length_executeBitmap values
  rw [executeFrame, getD_append_right _ _ _ _ (by simp only [executeHeader]; omega),
    getD_append_right _ _ _ _ (by simp only [executeHeader]; omega), head, map]
  congr 1
  simp only [executeHeader]
  omega

theorem length_executeFrame (flag : UInt8) (body : Bytes) :
    (executeFrame statementId values flag body).length =
      executeHeader + (values.length + 7) / 8 + 1 + body.length := by
  simp only [executeFrame, length_append, length_executeHead, length_executeBitmap,
    length_cons, executeHeader]
  omega

def frameLayout (count : Nat) (flag : UInt8) : ExecuteLayout :=
  ⟨executeHeader, executeHeader + (count + 7) / 8 + 1,
    executeHeader + (count + 7) / 8 + 1 + (if flag = 0 then 0 else count * 2), decide (flag ≠ 0)⟩

theorem executeLayoutOpen_frame (statementId : UInt32) {valid : Bool}
    (some : values ≠ []) (bit : flag ≤ 1) (known : flag = 0 → valid)
    (room : flag ≠ 0 → values.length * 2 ≤ body.length) :
    executeLayoutOpen (executeFrame statementId values flag body) values.length valid =
      .ok (frameLayout values.length flag) := by
  have positive : values.length ≠ 0 := by simpa using some
  have behind : (executeFrame statementId values flag body).getD
      (executeHeader + (values.length + 7) / 8) 0 = flag := executeFrame_behind flag body 0
  rw [executeLayoutOpen, if_neg positive]
  simp only [length_executeFrame, behind]
  rw [reject, if_neg (by omega), pure_ok, ok_bind, reject, if_neg, pure_ok, ok_bind, reject,
    if_neg (not_lt.mpr bit), pure_ok, ok_bind, reject, if_neg, pure_ok, ok_bind]
  · by_cases old : flag = 0
    · simp [frameLayout, old, pure_ok]
    · have enough := room old
      rw [if_pos old, reject, if_neg (by omega), pure_ok, ok_bind]
      simp [frameLayout, old, pure_ok]
  · rintro ⟨old, unknown⟩
    rw [known old] at unknown
    cases unknown
  · rintro ⟨odd, high⟩
    exact high (executeFrame_padding odd)

theorem getD_typeBytes (found : values[k]? = some value) (rest : Bytes) :
    (values.flatMap typeBytes ++ rest).getD (k * 2) 0 = value.type.code ∧
      (values.flatMap typeBytes ++ rest).getD (k * 2 + 1) 0 = value.flags := by
  induction values generalizing k with
  | nil => simp at found
  | cons first values ih =>
    cases k with
    | zero =>
      obtain rfl : first = value := by simpa using found
      exact ⟨rfl, rfl⟩
    | succ k => simpa [Nat.succ_mul, typeBytes] using ih (by simpa using found)

theorem length_typeBytes (values : List StmtValue) :
    (values.flatMap typeBytes).length = values.length * 2 := by
  induction values with
  | nil => rfl
  | cons value values ih =>
    rw [flatMap_cons, length_append, ih, length_cons, typeBytes]
    simp only [length_cons, length_nil]
    omega

theorem executeType_sent (found : values[k]? = some value) (types : List UInt16) (rest : Bytes) :
    executeType (executeFrame statementId values 1 (values.flatMap typeBytes ++ rest))
      (frameLayout values.length 1) types k = value.typeWord := by
  obtain ⟨low, high⟩ := getD_typeBytes found rest
  have behind : ∀ j, (executeFrame statementId values 1
      (values.flatMap typeBytes ++ rest)).getD
      (executeHeader + (values.length + 7) / 8 + 1 + j) 0 =
      (values.flatMap typeBytes ++ rest).getD j 0 := by
    intro j
    rw [Nat.add_assoc _ 1 j, executeFrame_behind, Nat.add_comm 1, getD_cons_succ]
  rw [executeType, if_neg (by simp [frameLayout])]
  simp only [frameLayout]
  rw [behind, Nat.add_assoc _ (k * 2), behind, low, high]
  rfl

theorem executeTypes_eq {data : Bytes} {layout : ExecuteLayout} {types words : List UInt16}
    (sent : layout.newTypes)
    (typed : ∀ k word, words[k]? = some word → ∀ types, executeType data layout types k = word)
    (room : words.length ≤ types.length) :
    executeTypes data words.length layout types = words ++ types.drop words.length := by
  rw [executeTypes, if_pos sent]
  induction words using reverseRecOn with
  | nil => simp
  | append_singleton words word ih =>
    rw [length_append, length_singleton] at room ⊢
    have earlier : ∀ k word', words[k]? = some word' →
        ∀ types, executeType data layout types k = word' := fun k word' found =>
      typed k word' (by rw [List.getElem?_append_left (List.getElem?_eq_some_iff.mp found).1, found])
    have last : ∀ types, executeType data layout types words.length = word :=
      typed words.length word (by simp)
    have next : types.drop words.length = types[words.length] :: types.drop (words.length + 1) :=
      drop_eq_getElem_cons (by omega)
    rw [range_succ, foldl_append, ih earlier (by omega), foldl_cons, foldl_nil,
      last, set_append_right _ _ le_rfl, Nat.sub_self, next, set_cons_zero,
      append_assoc]
    rfl

end Layout

section Decode

theorem commandDecode_execute {statementId : UInt32} (some : statementId ≠ 0) (rest : Bytes)
    {limit : Nat} (fits : (executeHead statementId ++ rest).length ≤ limit) :
    commandDecode (executeHead statementId ++ rest) limit =
      .ok ⟨.stmtExecute, statementId, [], executeHead statementId ++ rest⟩ := by
  have head := length_executeHead statementId
  have read : ∀ (word : UInt32) (rest : Bytes),
      readU32Le (write 4 word.toUInt64 ++ rest) = .ok (word, rest) := by
    intro word rest
    rw [readU32Le, readLe_write (by decide) (by simpa using word.toNat_lt)]
    simp [ok_bind, pure_ok]
  have shape : executeHead statementId ++ rest = comStmtExecute ::
      (write 4 statementId.toUInt64 ++ (0 :: (write 4 (1 : UInt32).toUInt64 ++ rest))) := by
    simp [executeHead]
  have kind : commandKind comStmtExecute = .some .stmtExecute := rfl
  rw [length_append] at fits
  rw [shape, commandDecode, ← shape]
  simp only [kind, commandStatement, read, length_append, complete, Except.mapError, ok_bind,
    commandExecute]
  rw [reject, if_neg (by omega), pure_ok, ok_bind, reject, if_neg (by omega), pure_ok, ok_bind,
    reject, if_neg (by simp only [executeHeader]; omega), pure_ok, ok_bind, reject, if_neg some]
  rfl

variable {command verified : Command} {count maxBytes : Nat} {layout : ExecuteLayout}

theorem executeDecode_none (positive : maxBytes ≠ 0)
    (decoded : commandDecode command.payload command.payload.length = .ok verified)
    (same : ¬(verified.kind ≠ .stmtExecute ∨ verified.statementId ≠ command.statementId))
    (whole : command.payload.length = executeHeader) :
    executeDecode command 0 maxBytes cache = .ok () cache := by
  have opened : executeLayoutOpen command.payload 0 cache.valid = .ok ⟨0, 0, 0, false⟩ := by
    simp [executeLayoutOpen, reject, whole, pure_ok, ok_bind]
  rw [executeDecode, run_bind_ok (run_reject positive), run_bind_ok run_get,
    run_bind_ok (run_reject (by simp)), run_bind_ok (run_attempt_ok decoded),
    run_bind_ok (run_reject same), run_bind_ok (run_attempt_ok opened), if_pos rfl]
  rfl

/-- The pass that stores cannot fail after the one that does not. -/
theorem executeValues_twice {values : List Value}
    (read : executeParameters command.payload cache.types layout maxBytes count 0 0
      (command.payload.drop layout.values) = .ok (values, [])) :
    (executeValues command.payload count cache.types layout false maxBytes cache = .ok () cache) ∧
      executeValues command.payload count cache.types layout true maxBytes cache =
        .ok () { cache with values := storeAll cache.values 0 values } := by
  constructor
  · have first := executeLoop_check command.payload cache.types layout maxBytes count 0 0
      (command.payload.drop layout.values) cache
    rw [read] at first
    rw [executeValues, run_bind_ok first, run_reject (by simp)]
  · rw [executeValues, run_bind_ok (executeLoop_store read), run_reject (by simp)]

theorem executeDecode_some {values : List Value} (positive : maxBytes ≠ 0)
    (some : count ≠ 0) (few : count ≤ 0xFFFF) (types : count ≤ cache.types.length)
    (room : count ≤ cache.values.length)
    (decoded : commandDecode command.payload command.payload.length = .ok verified)
    (same : ¬(verified.kind ≠ .stmtExecute ∨ verified.statementId ≠ command.statementId))
    (opened : executeLayoutOpen command.payload count cache.valid = .ok layout)
    (read : executeParameters command.payload cache.types layout maxBytes count 0 0
      (command.payload.drop layout.values) = .ok (values, [])) :
    executeDecode command count maxBytes cache =
      .ok () ⟨executeTypes command.payload count layout cache.types, true,
        storeAll cache.values 0 values⟩ := by
  obtain ⟨first, second⟩ := executeValues_twice read
  rw [executeDecode, run_bind_ok (run_reject positive), run_bind_ok run_get,
    run_bind_ok (run_reject (by omega)), run_bind_ok (run_attempt_ok decoded),
    run_bind_ok (run_reject same), run_bind_ok (run_attempt_ok opened), if_neg some,
    run_bind_ok first, run_bind_ok second, run_modify]

/-- The command has no parameters and nothing behind its head, or its last parameter ends
where it ends. -/
def Consumed (command : Command) (count maxBytes : Nat) (cache : ExecuteCache) : Prop :=
  (count = 0 ∧ command.payload.length = executeHeader) ∨
    ∃ layout after, executeLayoutOpen command.payload count cache.valid = .ok layout ∧
      executeLoop command.payload cache.types layout true maxBytes count 0 0
        (command.payload.drop layout.values) cache = .ok [] after

/-- What is accepted is read to its last byte; what is rejected leaves the arrays alone. -/
theorem executeDecode_outcome (command : Command) (count maxBytes : Nat) (cache : ExecuteCache) :
    match executeDecode command count maxBytes cache with
    | .ok _ _ => Consumed command count maxBytes cache
    | .error _ after => after = cache := by
  rw [executeDecode]
  by_cases zero : maxBytes = 0
  · rw [run_bind_error (run_reject_error zero)]
  rw [run_bind_ok (run_reject zero), run_bind_ok run_get]
  by_cases many : count > 0xFFFF ∨ count > cache.types.length ∨ count > cache.values.length
  · rw [run_bind_error (run_reject_error many)]
  rw [run_bind_ok (run_reject many)]
  cases decoded : commandDecode command.payload command.payload.length with
  | error e => rw [run_bind_error (run_attempt_error rfl)]
  | ok verified =>
    rw [run_bind_ok (run_attempt_ok rfl)]
    by_cases other : verified.kind ≠ .stmtExecute ∨ verified.statementId ≠ command.statementId
    · rw [run_bind_error (run_reject_error other)]
    rw [run_bind_ok (run_reject other)]
    cases opened : executeLayoutOpen command.payload count cache.valid with
    | error e => rw [run_bind_error (run_attempt_error rfl)]
    | ok layout =>
      rw [run_bind_ok (run_attempt_ok rfl)]
      by_cases none : count = 0
      · subst none
        simp only [executeLayoutOpen, if_true, bind_eq_ok, reject_eq_ok, exists_unit] at opened
        exact .inl ⟨rfl, not_ne_iff.mp opened.1⟩
      · rw [if_neg none]
        have check := executeLoop_check command.payload cache.types layout maxBytes count 0 0
          (command.payload.drop layout.values) cache
        cases read : executeParameters command.payload cache.types layout maxBytes count 0 0
            (command.payload.drop layout.values) with
        | error e =>
          rw [read] at check
          rw [executeValues, run_bind_error (run_bind_error check)]
        | ok result =>
          obtain ⟨values, rest⟩ := result
          by_cases whole : rest = []
          · subst whole
            obtain ⟨first, second⟩ := executeValues_twice read
            rw [run_bind_ok first, run_bind_ok second, run_modify]
            exact .inr ⟨layout, _, opened, executeLoop_store read⟩
          · rw [read] at check
            rw [executeValues, run_bind_error
              ((run_bind_ok check).trans (run_reject_error whole))]

end Decode

section RoundTrip

variable {maxBytes : Nat}

structure Sendable (statementId : UInt32) (values : List StmtValue) (maxBytes : Nat) : Prop where
  named : statementId ≠ 0
  few : values.length ≤ 0xFFFF
  valid : ∀ value ∈ values, value.Valid
  positive : 0 < maxBytes
  limit : maxBytes ≤ sizeMax
  room : (values.map retained).sum ≤ maxBytes

/-- A command with the types taken out and the byte that announces them cleared. -/
def withoutTypes (payload : Bytes) (count : Nat) : Bytes :=
  if count = 0 then payload
  else payload.take (executeHeader + (count + 7) / 8) ++
    0 :: payload.drop (executeHeader + (count + 7) / 8 + 1 + count * 2)

theorem executeBytes_frame (some : values ≠ []) :
    executeBytes statementId values = executeFrame statementId values 1
      (values.flatMap typeBytes ++ values.flatMap bytes) := by
  rw [executeBytes, if_neg (by simpa using some), executeFrame]

theorem drop_executeFrame (flag : UInt8) (body : Bytes) (k : Nat) :
    (executeFrame statementId values flag body).drop
      (executeHeader + (values.length + 7) / 8 + 1 + k) = body.drop k := by
  have head : (executeHead statementId ++ executeBitmap values ++ [flag]).length =
      executeHeader + (values.length + 7) / 8 + 1 := by
    simp only [length_append, length_executeHead, length_executeBitmap, executeHeader,
      length_singleton]
  have shape : executeFrame statementId values flag body =
      executeHead statementId ++ executeBitmap values ++ [flag] ++ body := by
    simp [executeFrame]
  rw [shape, ← drop_drop, drop_left' head]

theorem withoutTypes_frame (some : values ≠ []) :
    withoutTypes (executeBytes statementId values) values.length =
      executeFrame statementId values 0 (values.flatMap bytes) := by
  have head : (executeHead statementId ++ executeBitmap values).length =
      executeHeader + (values.length + 7) / 8 := by
    rw [length_append, length_executeHead, length_executeBitmap]
    rfl
  rw [withoutTypes, if_neg (by simpa using some), executeBytes_frame some, drop_executeFrame,
    drop_left' (length_typeBytes values), executeFrame, executeFrame, ← append_assoc,
    ← append_assoc, take_left' head]

section Sendable

variable (sendable : Sendable statementId values maxBytes) (some : values ≠ [])
  (types : values.length ≤ cache.types.length) (array : values.length ≤ cache.values.length)
include sendable some types array

theorem executeDecode_frame {flag : UInt8} {body : Bytes} {layout : ExecuteLayout}
    (opened : executeLayoutOpen (executeFrame statementId values flag body) values.length
      cache.valid = .ok layout) (bitmap : layout.bitmap = executeHeader)
    (input : (executeFrame statementId values flag body).drop layout.values =
      values.flatMap StmtValue.bytes) (typed : ∀ k value, values[k]? = Option.some value →
      executeType (executeFrame statementId values flag body) layout cache.types k =
      value.typeWord) :
    executeDecode ⟨.stmtExecute, statementId, [], executeFrame statementId values flag body⟩
      values.length maxBytes cache =
      .ok () ⟨executeTypes (executeFrame statementId values flag body) values.length layout
        cache.types, true, values.map StmtValue.value ++ cache.values.drop values.length⟩ := by
  obtain ⟨named, few, valid, positive, limit, room⟩ := sendable
  have small : maxBytes < 2 ^ 64 := by
    rw [sizeMax] at limit
    omega
  have read : executeParameters (executeFrame statementId values flag body) cache.types layout
      maxBytes values.length 0 0 ((executeFrame statementId values flag body).drop layout.values) =
      .ok (values.map StmtValue.value, []) := by
    rw [input, ← append_nil (values.flatMap StmtValue.bytes)]
    refine executeParameters_values valid (fun k value found => ?_) (fun k value found => ?_)
      (by omega) small []
    · rw [Nat.zero_add]
      exact typed k value found
    · rw [bitmap, Nat.zero_add]
      exact executeFrame_nulls found
  have stored : storeAll cache.values 0 (values.map StmtValue.value) =
      values.map StmtValue.value ++ cache.values.drop values.length := by
    rw [storeAll_eq (by simpa using array)]
    simp
  rw [← stored]
  exact executeDecode_some (by omega) (by simpa using some) few types array
    (commandDecode_execute named _ le_rfl) (by simp) opened read

theorem executeDecode_sent :
    executeDecode ⟨.stmtExecute, statementId, [], executeBytes statementId values⟩ values.length
      maxBytes cache =
      .ok () ⟨values.map typeWord ++ cache.types.drop values.length, true,
        values.map value ++ cache.values.drop values.length⟩ := by
  have remembered : executeTypes (executeFrame statementId values 1
      (values.flatMap typeBytes ++ values.flatMap bytes))
      (values.map typeWord).length (frameLayout values.length 1) cache.types =
      values.map typeWord ++ cache.types.drop (values.map typeWord).length := by
    refine executeTypes_eq rfl (fun k word found types => ?_) (by simpa using types)
    rw [getElem?_map, Option.map_eq_some_iff] at found
    obtain ⟨value, found, rfl⟩ := found
    exact executeType_sent found types _
  rw [length_map] at remembered
  rw [executeBytes_frame some, executeDecode_frame sendable some types array
    (executeLayoutOpen_frame statementId some (by decide) (by simp) fun _ => ?_) rfl ?_
    (fun k value found => executeType_sent found cache.types _), remembered]
  · exact (drop_executeFrame 1 _ _).trans (drop_left' (length_typeBytes values))
  · rw [length_append, length_typeBytes]
    omega

end Sendable

theorem executeDecode_remembered (sendable : Sendable statementId values maxBytes)
    (some : values ≠ []) (known : cache.valid)
    (types : cache.types.take values.length = values.map typeWord)
    (array : values.length ≤ cache.values.length) :
    executeDecode ⟨.stmtExecute, statementId, [],
      withoutTypes (executeBytes statementId values) values.length⟩ values.length maxBytes cache =
      .ok () ⟨cache.types, true,
        values.map value ++ cache.values.drop values.length⟩ := by
  have long : values.length ≤ cache.types.length := by
    have := congrArg length types
    simp at this
    omega
  rw [withoutTypes_frame some]
  refine executeDecode_frame sendable some long array
    (executeLayoutOpen_frame statementId some (by decide) (fun _ => known) (by simp)) rfl ?_
    fun k value found => ?_
  · exact drop_executeFrame 0 _ 0
  · have inside : k < values.length := (List.getElem?_eq_some_iff.mp found).1
    have word := congrArg (fun words => words[k]?) types
    simp only [getElem?_take, inside, if_true, getElem?_map, found, Option.map_some]
      at word
    simp [executeType, frameLayout, getD, word]

theorem executeDecode_buildStmtExecute :
    (∀ (statementId : UInt32) (values : List StmtValue) (maxBytes : Nat) (cache : ExecuteCache),
      Sendable statementId values maxBytes →
      values.length ≤ cache.types.length → values.length ≤ cache.values.length →
      ∃ payload after,
        (∀ capacity, buildStmtExecute statementId values capacity =
          if payload.length ≤ capacity then .ok payload else .error .limit) ∧
        (∀ limit, payload.length ≤ limit →
          commandDecode payload limit = .ok ⟨.stmtExecute, statementId, [], payload⟩) ∧
        executeDecode ⟨.stmtExecute, statementId, [], payload⟩ values.length maxBytes cache =
          .ok () after ∧
        after.values.take values.length = values.map value ∧ (values ≠ [] → after.valid = true) ∧
        ∀ again : ExecuteCache, again.valid = true →
          again.types.take values.length = after.types.take values.length →
          values.length ≤ again.values.length →
          ∃ later,
            (∀ limit, payload.length ≤ limit →
              commandDecode (withoutTypes payload values.length) limit = .ok ⟨.stmtExecute,
                statementId, [], withoutTypes payload values.length⟩) ∧
            executeDecode ⟨.stmtExecute, statementId, [], withoutTypes payload values.length⟩
              values.length maxBytes again = .ok () later ∧
            later.values.take values.length = values.map value) ∧
      ∀ (command : Command) (count maxBytes : Nat) (cache : ExecuteCache),
        match executeDecode command count maxBytes cache with
        | .ok _ _ => Consumed command count maxBytes cache
        | .error _ after => after = cache := by
  refine ⟨fun statementId values maxBytes cache sendable types array => ?_, executeDecode_outcome⟩
  have built : ∀ capacity, buildStmtExecute statementId values capacity =
      if (executeBytes statementId values).length ≤ capacity
      then .ok (executeBytes statementId values) else .error .limit := by
    intro capacity
    rw [buildStmtExecute_eq sendable.valid sendable.few, emitWithin_eq, length_nil,
      Nat.zero_add, nil_append]
  have decoded : ∀ limit, (executeBytes statementId values).length ≤ limit →
      commandDecode (executeBytes statementId values) limit =
        .ok ⟨.stmtExecute, statementId, [], executeBytes statementId values⟩ :=
    fun limit fits => commandDecode_execute sendable.named _ fits
  refine ⟨executeBytes statementId values, ?_⟩
  by_cases none : values = []
  · subst none
    have whole : (executeBytes statementId []).length = executeHeader := by
      simp [executeBytes, length_executeHead, executeHeader]
    have kept : ∀ cache, executeDecode ⟨.stmtExecute, statementId, [], executeBytes statementId []⟩
        0 maxBytes cache = .ok () cache := fun cache =>
      executeDecode_none (Nat.pos_iff_ne_zero.mp sendable.positive) (decoded _ le_rfl)
        (by simp) whole
    exact ⟨cache, built, decoded, kept cache, rfl, fun some => absurd rfl some,
      fun again _ _ _ => ⟨again, decoded, kept again, rfl⟩⟩
  · refine ⟨_, built, decoded, executeDecode_sent sendable none types array,
      take_left' (by simp), fun _ => rfl, fun again known same room => ⟨_, fun limit fits => ?_,
        executeDecode_remembered sendable none known ?_ room, take_left' (by simp)⟩⟩
    · have shorter : (withoutTypes (executeBytes statementId values) values.length).length ≤
          (executeBytes statementId values).length := by
        rw [withoutTypes_frame none, executeBytes_frame none, length_executeFrame,
          length_executeFrame, length_append]
        omega
      rw [withoutTypes_frame none] at shorter ⊢
      exact commandDecode_execute sendable.named _ (shorter.trans fits)
    · rw [same]
      exact take_left' (by simp)

theorem executeDecode_buildStmtExecute_mixed :
    Sendable 7 [.null, .text [104, 105]] 2 ∧ ∃ payload after,
      buildStmtExecute 7 [.null, .text [104, 105]] 64 = .ok payload ∧
      executeDecode ⟨.stmtExecute, 7, [], payload⟩ 2 2 ⟨[0, 0], false, [.null, .null]⟩ =
        .ok () after ∧
      after.values.take 2 = [.null, .text [104, 105]] := by
  have sendable : Sendable 7 [.null, .text [104, 105]] 2 :=
    ⟨by decide, by decide, by simp [StmtValue.Valid], by decide, by decide, by decide⟩
  obtain ⟨payload, after, built, -, decoded, values, -⟩ := executeDecode_buildStmtExecute.1 7
    [.null, .text [104, 105]] 2 ⟨[0, 0], false, [.null, .null]⟩ sendable (by decide) (by decide)
  have size : payload.length ≤ 64 := by
    by_contra long
    have limit := built 64
    rw [if_neg long] at limit
    exact absurd limit (by decide)
  exact ⟨sendable, payload, after, (built 64).trans (if_pos size), decoded, values⟩

end RoundTrip

end TurboDb.Mysql
