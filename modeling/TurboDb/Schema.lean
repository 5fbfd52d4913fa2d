import TurboDb.IndexKey.Codec

/-!
Names, table definitions and index definitions.

A column carries its explicit default, so that a definition has as many defaults
as columns. `WellFormed` is what the binder guarantees of a definition; codecs
and the relation layer assume it and re-establish it for what they read.
-/

namespace TurboDb

open ByteOrder Words Wire Effect

variable {name : Bytes}

def nameBytes : Nat := 63

def nameStart (c : UInt8) : Bool :=
  (97 ≤ c && c ≤ 122) || (65 ≤ c && c ≤ 90) || c = 95

def nameValidate (name : Bytes) : Except Failure Unit := do
  let unexpected : Failure := ⟨.unsupported, "expected an ASCII identifier"⟩
  reject (name.length > nameBytes) ⟨.limitExceeded, "identifier exceeds name capacity"⟩
  match name with
  | [] => throw unexpected
  | c :: rest =>
    reject (nameStart c = false) unexpected
    rest.forM fun c => reject (nameStart c = false ∧ (c < 48 ∨ 57 < c)) unexpected

def NameValid (name : Bytes) : Prop := nameValidate name = .ok ()

instance (name : Bytes) : Decidable (NameValid name) :=
  match h : nameValidate name with
  | .ok () => isTrue h
  | .error _ => isFalse fun valid => by simp [NameValid, h] at valid

theorem NameValid.length_le (h : NameValid name) : name.length ≤ nameBytes := by
  simp only [NameValid, nameValidate, bind_eq_ok, reject_eq_ok] at h
  omega

theorem NameValid.toNat_length (h : NameValid name) :
    (UInt8.ofNat name.length).toNat = name.length := by
  have short := h.length_le
  rw [UInt8.toNat_ofNat']
  simp only [nameBytes] at short
  omega

theorem NameValid.ne_nil (h : NameValid name) : name ≠ [] := by
  rintro rfl
  simp [NameValid, nameValidate] at h

structure Column where
  name : Bytes
  type : SqlType
  default : Option Value
  deriving DecidableEq

structure TableDefinition where
  name : Bytes
  columns : List Column
  primaryKey : Nat
  deriving DecidableEq

/-- What binding guarantees of a column: a valid name, a numeric type, and a
default that is NULL only where allowed and otherwise finite and of the type. -/
structure Column.WellFormed (column : Column) : Prop where
  name : NameValid column.name
  numeric : assignmentNumeric column.type.kind = true
  default : ∀ value, column.default = some value → validValue value column.type = true

structure TableDefinition.WellFormed (table : TableDefinition) : Prop where
  name : NameValid table.name
  columns : ∀ column ∈ table.columns, column.WellFormed
  distinct : (table.columns.map Column.name).Nodup
  count : table.columns.length < 2 ^ 32
  key : ∃ column, table.columns[table.primaryKey]? = some column ∧
    integral column.type.kind = true ∧ column.type.nullable = false

instance (column : Column) : Decidable column.WellFormed :=
  decidable_of_iff (NameValid column.name ∧ assignmentNumeric column.type.kind = true ∧
      column.default.all (fun value => validValue value column.type) = true) <| by
    rw [Option.all_eq_true]
    exact ⟨fun h => ⟨h.1, h.2.1, h.2.2⟩, fun h => ⟨h.name, h.numeric, h.default⟩⟩

instance (table : TableDefinition) : Decidable table.WellFormed :=
  decidable_of_iff (NameValid table.name ∧ (∀ column ∈ table.columns, column.WellFormed) ∧
      (table.columns.map Column.name).Nodup ∧ table.columns.length < 2 ^ 32 ∧
      table.columns[table.primaryKey]?.any
        (fun column => integral column.type.kind && !column.type.nullable) = true) <| by
    simp only [Option.any_eq_true, Bool.and_eq_true, Bool.not_eq_true']
    exact ⟨fun h => ⟨h.1, h.2.1, h.2.2.1, h.2.2.2.1, h.2.2.2.2⟩,
      fun h => ⟨h.name, h.columns, h.distinct, h.count, h.key⟩⟩

structure IndexIdentity where
  tableId : UInt64
  tableGeneration : UInt64
  indexId : UInt64
  generation : UInt64
  deriving DecidableEq, Repr

structure IndexDefinition where
  name : Bytes
  table : Bytes
  unique : Bool
  parts : List IndexPart
  deriving DecidableEq

structure IndexRecord where
  definition : IndexDefinition
  identity : IndexIdentity
  deriving DecidableEq

end TurboDb
