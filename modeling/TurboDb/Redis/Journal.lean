import TurboDb.Redis.ApplyBatch

/-!
The journal that the batch scripts keep, and how Redis holds it.

A journal is the list of the records applied so far, of which those up to the
floor are no longer kept, with the last compaction. As long as the outbox has its
own key, every write of the scripts leads from a journal to the next: the index of
a record is never the name of a field of the metadata, which may even share a key
with the payloads or the identities.
-/

namespace TurboDb.Redis

open ByteOrder Decimal Keyspace Effect List

namespace BatchRecord

def indexText (r : BatchRecord) : Bytes := numeral r.index.toNat

def termText (r : BatchRecord) : Bytes := numeral r.term.toNat

def identity (r : BatchRecord) : Bytes := identityText r.termText r.commandId

def fields (r : BatchRecord) : List Bytes :=
  eventFields r.indexText r.termText r.commandId r.payload

def event (r : BatchRecord) : Event := ⟨toLex (r.index.toNat, 0), r.fields⟩

end BatchRecord

open BatchRecord

namespace BatchKeys

def apart (keys : BatchKeys) : Bool :=
  keys.outbox ≠ keys.metadata && keys.outbox ≠ keys.journal && keys.outbox ≠ keys.identity

/-- Payloads and identities have different keys as well. -/
def separate (keys : BatchKeys) : Bool := keys.apart && keys.journal ≠ keys.identity

/-- What the journal key holds for a record: the identity is written last. -/
def storedAs (keys : BatchKeys) (r : BatchRecord) : Bytes :=
  if keys.journal = keys.identity then r.identity else r.payload

def Missing (keys : BatchKeys) (s : Keys) : Prop :=
  s keys.metadata = none ∧ s keys.journal = none ∧ s keys.identity = none ∧ s keys.outbox = none

end BatchKeys

structure Journal where
  records : List BatchRecord
  floor : Nat
  compaction : Option CompactRequest

/-- The indexes of the records count from a number on. -/
def NumberedFrom : Nat → List BatchRecord → Prop
  | _, [] => True
  | n, r :: rest => r.index.toNat = n ∧ NumberedFrom (n + 1) rest

namespace Journal

def empty : Journal := ⟨[], 0, none⟩

def applied (j : Journal) : Nat := j.records.length

def kept (j : Journal) (n : Nat) : Option BatchRecord :=
  if j.floor < n then j.records[n - 1]? else none

def push (j : Journal) (r : BatchRecord) : Journal := { j with records := j.records ++ [r] }

def extend (j : Journal) (batch : List BatchRecord) : Journal :=
  { j with records := j.records ++ batch }

/-- A record like this is kept under the index. -/
def stores (j : Journal) (keys : BatchKeys) (r : BatchRecord) : Bool :=
  (j.kept r.index.toNat).any fun old => old.identity = r.identity && keys.storedAs old = r.payload

/-- No other record was applied under the index, and what is kept of it is what
a record like this leaves. -/
def clear (j : Journal) (keys : BatchKeys) (r : BatchRecord) : Bool :=
  match j.records[r.index.toNat - 1]? with
  | none => true
  | some old => old = r && (r.index.toNat ≤ j.floor || keys.storedAs r = r.payload)

def retains (j : Journal) (keys : BatchKeys) (r : BatchRecord) : Bool :=
  j.kept r.index.toNat = some r && keys.storedAs r = r.payload

/-- The records of a batch behind the last applied one. -/
def fresh (j : Journal) (batch : List BatchRecord) : List BatchRecord :=
  batch.filter (j.applied < ·.index.toNat)

def reply (j : Journal) (keys : BatchKeys) (batch : List BatchRecord) : ReceiptKind :=
  if batch.any (fun r => r.index.toNat ≤ j.applied && !j.retains keys r) then .conflict
  else if batch.head?.any (fun r => j.applied + 1 < r.index.toNat) then .gap
  else if j.fresh batch = [] then .replayed
  else .applied

structure WellFormed (j : Journal) : Prop where
  numbered : NumberedFrom 1 j.records
  valid : ∀ r ∈ j.records, r.valid = true
  floor_le : j.floor ≤ j.applied

end Journal

/-- Redis holds the journal, and the metadata says that `committed` records
are applied. -/
structure Holds (keys : BatchKeys) (j : Journal) (committed : Nat) (s : Keys) : Prop where
  wellFormed : j.WellFormed
  metadata : (s.fields keys.metadata).isSome = true
  journal : (s.fields keys.journal).isSome = true
  identity : (s.fields keys.identity).isSome = true
  outbox : ∃ stream, s.stream keys.outbox = some stream ∧
    stream.events = j.records.map event ∧ stream.last = toLex (j.applied, 0)
  appliedIndex : s.field keys.metadata (ascii "applied_index") = storedNumber committed
  floor : s.field keys.metadata (ascii "journal_floor") = storedNumber j.floor
  first : s.field keys.metadata (ascii "journal_compaction_first_index") =
    j.compaction.map fun c => numeral c.firstIndex.toNat
  snapshotIndex : s.field keys.metadata (ascii "journal_compaction_snapshot_index") =
    j.compaction.map fun c => numeral c.snapshotIndex.toNat
  snapshotTerm : s.field keys.metadata (ascii "journal_compaction_snapshot_term") =
    j.compaction.map fun c => numeral c.snapshotTerm.toNat
  payloads : ∀ n, s.field keys.journal (numeral n) = (j.kept n).map keys.storedAs
  identities : ∀ n, s.field keys.identity (numeral n) = (j.kept n).map BatchRecord.identity
  names : ∀ key name, key = keys.journal ∨ key = keys.identity → key ≠ keys.metadata →
    (s.field key name).isSome = true → ∃ n, name = numeral n
  compacted : ∀ c, j.compaction = some c → c.keys = keys ∧ c.lastIndex.toNat = j.floor

variable {n : Nat} {batch : List BatchRecord} {r : BatchRecord} {keys : BatchKeys} {j : Journal}
  {committed : Nat} {s : Keys}

theorem numeral_ne {name : Bytes} (h : name.head?.all (!isDigit ·) = true) : numeral n ≠ name := by
  intro same
  cases digits : numeral n with
  | nil => exact numeral_ne_nil digits
  | cons b rest =>
    have digit : isDigit b := numeral_digits (n := n) (by simp [digits])
    rw [← same, digits] at h
    simp [digit] at h

theorem field_puts_numeral {s : Keys} {key other : Bytes} {pairs : List (Bytes × Bytes)}
    (named : pairs.all (fun pair => pair.1.head?.all (!isDigit ·)) = true) :
    (pairs.foldl (fun s pair => s.put key pair.1 pair.2) s).field other (numeral n) =
      s.field other (numeral n) := by
  have none : pairs.reverse.lookup (numeral n) = none := by
    rw [lookup_eq_none_iff]
    intro pair member
    have := all_eq_true.mp named pair (mem_reverse.mp member)
    exact bne_iff_ne.mpr (numeral_ne this)
  rw [field_puts, none, Option.none_or, ite_self]

/-- The zero byte ends the term of an identity. -/
theorem takeWhile_numeral (rest : Bytes) :
    (numeral n ++ 0 :: rest).takeWhile (· ≠ 0) = numeral n := by
  rw [takeWhile_append_of_pos (ne_of_mem_numeral rfl)]
  simp

theorem numeral_append_zero_inj {m : Nat} {rest rest' : Bytes} :
    numeral m ++ 0 :: rest = numeral n ++ 0 :: rest' ↔ m = n ∧ rest = rest' := by
  constructor
  · intro same
    have terms := congrArg (takeWhile (· ≠ 0)) same
    rw [takeWhile_numeral, takeWhile_numeral, numeral_inj] at terms
    subst terms
    exact ⟨rfl, (cons.inj (append_cancel_left same)).2⟩
  · rintro ⟨rfl, rfl⟩
    rfl

theorem identity_inj {r r' : BatchRecord} :
    r.identity = r'.identity ↔ r.term = r'.term ∧ r.commandId = r'.commandId := by
  rw [identity, identity, identityText, identityText, termText,
    termText, numeral_append_zero_inj, UInt64.toNat_inj]

theorem fields_inj {r r' : BatchRecord} : r.fields = r'.fields ↔ r = r' := by
  cases r
  cases r'
  simp [fields, eventFields, indexText, termText, UInt64.toNat_inj]

section Numbered

variable {records : List BatchRecord}

theorem numberedFrom_append :
    NumberedFrom n (records ++ batch) ↔ NumberedFrom n records ∧ NumberedFrom (n + records.length) batch := by
  induction records generalizing n with
  | nil => simp [NumberedFrom]
  | cons r rest ih =>
    simp only [cons_append, NumberedFrom, ih, length_cons, and_assoc]
    rw [Nat.add_assoc, Nat.add_comm 1]

theorem NumberedFrom.index {i : Nat} (h : NumberedFrom n records) (found : records[i]? = some r) :
    r.index.toNat = n + i := by
  induction records generalizing n i with
  | nil => cases found
  | cons head tail ih =>
    cases i with
    | zero =>
      cases found
      exact h.1
    | succ i =>
      have := ih h.2 (by simpa using found)
      omega

theorem NumberedFrom.lt (h : NumberedFrom n records) (member : r ∈ records) :
    n ≤ r.index.toNat ∧ r.index.toNat < n + records.length := by
  obtain ⟨i, found⟩ := mem_iff_getElem?.mp member
  have := h.index found
  obtain ⟨lt, _⟩ := List.getElem?_eq_some_iff.mp found
  omega

theorem numberedFrom_of_contiguous (h : contiguous (r :: batch)) :
    NumberedFrom r.index.toNat (r :: batch) := by
  refine ⟨rfl, ?_⟩
  induction batch generalizing r with
  | nil => trivial
  | cons next rest ih =>
    simp only [contiguous, Bool.and_eq_true, decide_eq_true_eq] at h
    obtain ⟨⟨last, following⟩, later⟩ := h
    have bound := r.index.toNat_lt
    have step : next.index.toNat = r.index.toNat + 1 := by
      rw [following, UInt64.toNat_add]
      change (r.index.toNat + 1) % 2 ^ 64 = _
      omega
    exact ⟨step, step ▸ ih later⟩

end Numbered

theorem Journal.WellFormed.applied_lt (h : j.WellFormed) : j.applied < 2 ^ 64 := by
  by_cases empty : j.records = []
  · simp [Journal.applied, empty]
  · have := h.numbered.index (getLast?_eq_getElem? (l := j.records) ▸ getLast?_eq_some_getLast empty)
    have bound := (j.records.getLast empty).index.toNat_lt
    rw [Journal.applied]
    omega

theorem keyTypeIs_run {key : Bytes} {kind : Kind} (h : s.kind key = .none ∨ s.kind key = kind) :
    keyTypeIs key kind s = .ok true s := by
  rw [keyTypeIs, run_bind_ok type_run, run_pure, decide_eq_true h]

theorem Holds.keysTyped (h : Holds keys j committed s) : keysTyped keys s = .ok true s := by
  obtain ⟨stream, found, _⟩ := h.outbox
  have outbox : (s.stream keys.outbox).isSome := by rw [found]; rfl
  rw [Redis.keysTyped, run_bind_ok (keyTypeIs_run (isSome_fields.mp h.metadata)),
    run_bind_ok (keyTypeIs_run (isSome_fields.mp h.journal)),
    run_bind_ok (keyTypeIs_run (isSome_fields.mp h.identity)),
    run_bind_ok (keyTypeIs_run (isSome_stream.mp outbox)), run_pure]
  rfl

theorem metadataNumber_run {name : String} {n : Nat} (h : Holds keys j committed s)
    (found : s.field keys.metadata (ascii name) = storedNumber n) :
    metadataNumber keys name s = .ok (numeral n) s := by
  rw [metadataNumber, run_bind_ok (hget_run h.metadata), run_pure, found, storedNumber_getD]

theorem batchArguments_cons :
    batchArguments (r :: batch) =
      r.indexText :: r.termText :: r.commandId :: r.payload :: batchArguments batch := rfl

theorem length_batchArguments : (batchArguments batch).length = 4 * batch.length := by
  induction batch with
  | nil => rfl
  | cons r batch ih =>
    rw [batchArguments_cons]
    simp only [length_cons, ih]
    omega

theorem numeral_toNat_ne_zero {x : UInt64} (h : x ≠ 0) : numeral x.toNat ≠ ascii "0" := by
  have zero : ascii "0" = numeral 0 := rfl
  rw [zero, ne_eq, numeral_inj]
  exact fun same => h (UInt64.toNat_inj.mp same)

theorem checkRecords_run {n : Nat} {previous : Option Bytes} (numbered : NumberedFrom n batch)
    (valid : ∀ r ∈ batch, r.valid)
    (follows : ∀ p, previous = some p → decimalIncrement p = numeral n) :
    checkRecords previous (batchArguments batch) = .ok () := by
  induction batch generalizing n previous with
  | nil => cases previous <;> rfl
  | cons r rest ih =>
    obtain ⟨index, later⟩ := numbered
    obtain ⟨first, validRest⟩ := forall_mem_cons.mp valid
    simp only [BatchRecord.valid, Bool.and_eq_true, decide_eq_true_eq] at first
    obtain ⟨⟨indexValid, termValid⟩, command⟩ := first
    have inRange : validU64 r.indexText := validU64_numeral.mpr r.index.toNat_lt
    have termInRange : validU64 r.termText := validU64_numeral.mpr r.term.toNat_lt
    have record : ¬ (validU64 r.indexText = false ∨ r.indexText = ascii "0" ∨
        validU64 r.termText = false ∨ r.termText = ascii "0" ∨ r.commandId = []) := by
      have := numeral_toNat_ne_zero indexValid
      have := numeral_toNat_ne_zero termValid
      simp_all [indexText, termText]
    have range : ¬ (previous.any (fun previous => r.indexText ≠ decimalIncrement previous) = true) := by
      cases previous with
      | none => simp
      | some p => simp [follows p rfl, indexText, index]
    rw [batchArguments_cons, checkRecords, reject, if_neg record, reject, if_neg range]
    refine ih later validRest ?_
    rintro p ⟨rfl⟩
    rw [indexText, decimalIncrement_numeral, index]

theorem Holds.batchBegin (h : Holds keys j committed s) {request : BatchRequest}
    (valid : luaApplyBatchValidate request) (bound : committed < 2 ^ 64) :
    batchBegin keys (batchArguments request.records) s = .ok (.ok (numeral committed)) s := by
  simp only [luaApplyBatchValidate, Bool.and_eq_true, decide_eq_true_eq, all_eq_true] at valid
  obtain ⟨⟨⟨⟨nonempty, _⟩, _⟩, records⟩, contiguous⟩ := valid
  have checked : checkRecords none (batchArguments request.records) = .ok () := by
    cases batch : request.records with
    | nil => exact absurd batch nonempty
    | cons r rest =>
      rw [batch] at records contiguous
      exact checkRecords_run (numberedFrom_of_contiguous contiguous) records nofun
  have counted : ¬ ((batchArguments request.records).length = 0 ∨
      (batchArguments request.records).length % 4 ≠ 0) := by
    have := length_pos_iff.mpr nonempty
    rw [length_batchArguments]
    omega
  rw [Redis.batchBegin, if_neg counted, run_bind_ok h.keysTyped]
  simp only [Bool.not_true, Bool.false_eq_true, if_false]
  rw [run_bind_ok (metadataNumber_run h h.appliedIndex), validU64_numeral.mpr bound, checked]
  rfl

theorem NumberedFrom.filter {k n : Nat} {records : List BatchRecord} (h : NumberedFrom k records)
    (le : k ≤ n) :
    records.filter (fun r => r.index.toNat = n) = records[n - k]?.toList := by
  induction records generalizing k with
  | nil => rfl
  | cons r rest ih =>
    obtain ⟨index, later⟩ := h
    by_cases here : k = n
    · have none : rest.filter (fun r => r.index.toNat = n) = [] := by
        rw [filter_eq_nil_iff]
        intro r' member
        have := (later.lt member).1
        simp
        omega
      simp [index, here, none]
    · have position : n - k = n - (k + 1) + 1 := by omega
      rw [filter_cons_of_neg (by simp [index, here]), ih later (by omega), position,
        getElem?_cons_succ]

theorem BatchRecord.index_pos (h : r.valid) : 0 < r.index.toNat := by
  simp only [valid, Bool.and_eq_true, decide_eq_true_eq] at h
  exact Nat.pos_of_ne_zero fun zero => h.1.1 (UInt64.toNat_inj.mp zero)

theorem Holds.xrange (h : Holds keys j committed s) (valid : r.valid) :
    xrange keys.outbox (eventId r.indexText) (eventId r.indexText) s =
      .ok (j.records[r.index.toNat - 1]?.toList.map fun old => (eventId old.indexText, old.fields)) s := by
  obtain ⟨stream, found, events, _⟩ := h.outbox
  have run := xrange_run r.index.toNat_lt found
  have same : (stream.events.filter fun e => e.id = toLex (r.index.toNat, 0)) =
      (j.records.filter fun old => old.index.toNat = r.index.toNat).map BatchRecord.event := by
    rw [events, filter_map]
    congr 2
    funext old
    simp [BatchRecord.event]
  have texts : (fun e : Event => (writeId e.id, e.fields)) ∘ BatchRecord.event =
      fun old => (eventId old.indexText, old.fields) := by
    funext old
    have zero : (45 : UInt8) :: numeral 0 = ascii "-0" := rfl
    simp only [Function.comp_apply, writeId, BatchRecord.event, eventId, ← zero]
    rfl
  rw [same, h.wellFormed.numbered.filter (BatchRecord.index_pos valid), map_map, texts] at run
  exact run

theorem eventMatches_iff {old : BatchRecord} :
    eventMatches (eventId old.indexText, old.fields) r.indexText r.termText r.commandId r.payload =
      decide (old = r) := by
  have fields : eventFields r.indexText r.termText r.commandId r.payload = r.fields := rfl
  rw [eventMatches, fields, Bool.eq_iff_iff]
  simp only [fields_inj, Bool.and_eq_true, decide_eq_true_eq]
  exact ⟨fun both => both.2, fun same => ⟨same ▸ rfl, same⟩⟩

theorem Journal.conflict_eq (j : Journal) (keys : BatchKeys) (r : BatchRecord) :
    let event := j.records[r.index.toNat - 1]?.toList.map fun old => (eventId old.indexText, old.fields)
    (((j.kept r.index.toNat).map identity).any (· ≠ identityText r.termText r.commandId) ||
      ((j.kept r.index.toNat).map keys.storedAs).any (· ≠ r.payload) ||
      event.length ≠ 0 && (event.length ≠ 1 ||
        event.any fun event => !eventMatches event r.indexText r.termText r.commandId r.payload)) =
      !j.clear keys r := by
  have identity : identityText r.termText r.commandId = r.identity := rfl
  rw [identity, Journal.kept, Journal.clear]
  cases j.records[r.index.toNat - 1]? with
  | none => simp
  | some old =>
    by_cases same : old = r
    · subst same
      by_cases kept : j.floor < old.index.toNat
      · simp [kept, eventMatches_iff, Nat.not_le.mpr kept]
      · simp [kept, eventMatches_iff, Nat.not_lt.mp kept]
    · simp [same, eventMatches_iff]

theorem Holds.prepareRecords (h : Holds keys j committed s) (applied : Bytes)
    (valid : ∀ r ∈ batch, r.valid) :
    prepareRecords keys applied (batchArguments batch) s =
      .ok (if batch.all (j.clear keys) then
        .ok (batch.map fun r => (r.indexText, decide (r.index.toNat ≤ j.applied)))
      else .error ⟨.conflict, applied⟩) s := by
  induction batch with
  | nil => rfl
  | cons r rest ih =>
    obtain ⟨first, validRest⟩ := forall_mem_cons.mp valid
    have positive := BatchRecord.index_pos first
    have known := h.identities r.index.toNat
    have stored := h.payloads r.index.toNat
    rw [← BatchRecord.indexText] at known stored
    rw [batchArguments_cons, Redis.prepareRecords, run_bind_ok (hget_run h.identity),
      run_bind_ok (hget_run h.journal), run_bind_ok (h.xrange first), known, stored]
    have conflict := j.conflict_eq keys r
    rw [conflict]
    by_cases clear : j.clear keys r
    · have found : decide ((j.records[r.index.toNat - 1]?.toList.map fun old =>
          (eventId old.indexText, old.fields)).length = 1) = decide (r.index.toNat ≤ j.applied) := by
        rw [decide_eq_decide, length_map, Journal.applied]
        by_cases old : r.index.toNat - 1 < j.records.length
        · simp [getElem?_eq_getElem old]
          omega
        · simp [getElem?_eq_none (Nat.not_lt.mp old)]
          omega
      rw [if_neg (by simp [clear]), run_bind_ok (ih validRest), run_pure, found]
      by_cases others : rest.all (j.clear keys)
      · rw [if_pos others, if_pos (by simpa [clear] using others)]
        rfl
      · rw [if_neg others, if_neg (by simpa [clear] using others)]
        rfl
    · rw [if_pos (by simp [clear]), if_neg (by simp [clear]), run_pure]

end TurboDb.Redis
