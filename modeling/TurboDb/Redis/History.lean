import TurboDb.Redis.JournalApply
import TurboDb.Redis.JournalCompact

/-!
Whole histories of batches and compactions from empty keys.

A history goes on from whatever a script that fails has written. As long as the
outbox has a key of its own, Redis holds a journal after every history. The client
only compares the hash tags of the four keys. Where two keys are equal, the type
checks of the script pass on missing keys and a later write of it fails, or an
identity replaces a payload.
-/

namespace TurboDb.Redis

open ByteOrder Decimal Keyspace Effect Journal BatchRecord List Bool

inductive BatchOp
  | apply (request : BatchRequest)
  | compact (request : CompactRequest)

/-- A request that the client accepts for these keys. -/
def BatchOp.valid (keys : BatchKeys) : BatchOp → Bool
  | .apply request => request.keys = keys && luaApplyBatchValidate request
  | .compact request => request.keys = keys && luaApplyBatchCompactValidate request

def BatchOp.script (keys : BatchKeys) : BatchOp → Script Receipt
  | .apply request => luaApplyBatch keys (batchArguments request.records)
  | .compact request => luaApplyBatchCompact keys request.arguments

/-- The keys after a history, and the compaction committed last. -/
structure Course where
  keyspace : Keys
  compaction : Option CompactRequest

def Course.last (c : Course) (op : BatchOp) (receipt : Receipt) : Option CompactRequest :=
  match op with
  | .apply _ => c.compaction
  | .compact request => if receipt.kind = .applied then some request else c.compaction

def Course.step (keys : BatchKeys) (c : Course) (op : BatchOp) : Course :=
  match op.script keys c.keyspace with
  | .ok receipt s => ⟨s, c.last op receipt⟩
  | .error _ s => ⟨s, c.compaction⟩

def Course.run (keys : BatchKeys) (c : Course) (ops : List BatchOp) : Course :=
  ops.foldl (Course.step keys) c

structure Course.Holds (keys : BatchKeys) (j : Journal) (c : Course) : Prop where
  keyspace : Redis.Holds keys j j.applied c.keyspace
  compaction : c.compaction = j.compaction

variable {keys : BatchKeys} {j : Journal} {s : Keys}

section Courses

variable {c : Course}

theorem BatchKeys.Missing.holds (missing : keys.Missing s) : Holds keys .empty 0 s := by
  obtain ⟨metadata, journal, identity, outbox⟩ := missing
  have noField {key : Bytes} (absent : s key = none) (name : Bytes) : s.field key name = none := by
    rw [Keys.field, Keys.fields, absent]
    rfl
  have noRecord (n : Nat) : empty.kept n = none := by
    rw [kept]
    split <;> rfl
  refine ⟨⟨trivial, by simp [empty], le_rfl⟩, ?_, ?_, ?_, ⟨.empty, ?_, rfl, rfl⟩,
    noField metadata _, noField metadata _, noField metadata _, noField metadata _, noField metadata _,
    fun n => ?_, fun n => ?_, ?_, by rintro _ ⟨⟩⟩
  · rw [Keys.fields, metadata]
    rfl
  · rw [Keys.fields, journal]
    rfl
  · rw [Keys.fields, identity]
    rfl
  · rw [Keys.stream, outbox]
  · rw [noField journal, noRecord]
    rfl
  · rw [noField identity, noRecord]
    rfl
  · intro key name records _ found
    have absent : s key = none := by
      rcases records with rfl | rfl
      · exact journal
      · exact identity
    rw [noField absent] at found
    cases found

theorem Course.step_ok (op : BatchOp) {receipt : Receipt}
    (run : op.script keys c.keyspace = .ok receipt s) : c.step keys op = ⟨s, c.last op receipt⟩ := by
  rw [Course.step, run]

/-- One script leads from a journal to the next: records are only added and the
floor only rises. -/
theorem Course.Holds.step (h : Course.Holds keys j c) (apart : keys.apart) {op : BatchOp}
    (valid : op.valid keys) :
    ∃ j', Course.Holds keys j' (c.step keys op) ∧ j.floor ≤ j'.floor ∧ j.records <+: j'.records := by
  cases op with
  | apply request =>
    simp only [BatchOp.valid, and_eq_true, decide_eq_true_eq] at valid
    obtain ⟨refused, applied⟩ := h.keyspace.luaApplyBatch valid.2
    by_cases reply : j.reply keys request.records = .applied
    · obtain ⟨s', run, holds⟩ := applied apart reply
      refine ⟨j.extend (j.fresh request.records), ?_, le_rfl, prefix_append _ _⟩
      rw [Course.step_ok (.apply request) run]
      exact ⟨holds, h.compaction⟩
    · refine ⟨j, ?_, le_rfl, prefix_rfl⟩
      rw [Course.step_ok (.apply request) (refused reply)]
      exact ⟨h.keyspace, h.compaction⟩
  | compact request =>
    simp only [BatchOp.valid, and_eq_true, decide_eq_true_eq] at valid
    obtain ⟨own, valid⟩ := valid
    obtain ⟨refused, applied⟩ := h.keyspace.luaApplyBatchCompact own valid
    by_cases reply : j.compactReply request = .applied
    · obtain ⟨s', run, holds⟩ := applied apart reply
      refine ⟨j.compact request, ?_, ?_, prefix_rfl⟩
      · rw [Course.step_ok (.compact request) run]
        exact ⟨holds, rfl⟩
      · obtain ⟨_, le, _⟩ := luaApplyBatchCompactValidate_bounds valid
        rw [compactReply] at reply
        split at reply
        · cases reply
        · change j.floor ≤ request.lastIndex.toNat
          omega
    · refine ⟨j, ?_, le_rfl, prefix_rfl⟩
      rw [Course.step_ok (.compact request) (refused reply)]
      exact ⟨h.keyspace, (if_neg reply).trans h.compaction⟩

theorem Course.Holds.run (h : Course.Holds keys j c) (apart : keys.apart) {ops : List BatchOp}
    (valid : ∀ op ∈ ops, op.valid keys) :
    ∃ j', Course.Holds keys j' (c.run keys ops) ∧ j.floor ≤ j'.floor ∧ j.records <+: j'.records := by
  induction ops generalizing c j with
  | nil => exact ⟨j, h, le_rfl, prefix_rfl⟩
  | cons op rest ih =>
    obtain ⟨first, later⟩ := forall_mem_cons.mp valid
    obtain ⟨j1, holds, floor, records⟩ := h.step apart first
    obtain ⟨j2, holds, floor', records'⟩ := ih holds later
    exact ⟨j2, holds, floor.trans floor', records.trans records'⟩

theorem BatchKeys.Missing.course (missing : keys.Missing s) : Course.Holds keys .empty ⟨s, none⟩ :=
  ⟨missing.holds, rfl⟩

end Courses

def firstRecord : BatchRecord := ⟨1, 1, [99], []⟩

def firstRequest (keys : BatchKeys) : BatchRequest := ⟨keys, [firstRecord]⟩

theorem luaApplyBatchValidate_single (tagged : keys.tagged) {r : BatchRecord}
    (valid : r.valid) : luaApplyBatchValidate ⟨keys, [r]⟩ := by
  simp [luaApplyBatchValidate, tagged, valid, contiguous, maxRecords]

theorem firstRequest_valid (tagged : keys.tagged) :
    luaApplyBatchValidate (firstRequest keys) :=
  luaApplyBatchValidate_single tagged (by decide)

/-- Where the outbox shares its key, the first record is written to the hashes
and the script fails before it is applied. -/
theorem BatchKeys.Missing.fault (missing : keys.Missing s) (tagged : keys.tagged)
    (shared : keys.apart = false) :
    ∃ fault s', luaApplyBatch keys (batchArguments (firstRequest keys).records) s = .error fault s' ∧
      (s'.field keys.journal (numeral 1)).isSome ∧
      s'.field keys.metadata (ascii "applied_index") = none := by
  have h := missing.holds
  have begun := h.batchBegin (firstRequest_valid tagged) (Nat.two_pow_pos 64)
  have valid : ∀ r ∈ [firstRecord], r.valid := by decide
  have prepares := h.prepareRecords (numeral 0) valid
  have run := luaApplyBatch_prepared begun prepares
  have unprepared : (lookup firstRecord.indexText
      ([firstRecord].map fun r => (r.indexText, decide (r.index.toNat ≤ empty.applied)))).getD
        false = false := by decide
  have applies := h.applyRecords_cons (r := firstRecord) rfl (Nat.le_refl 0) unprepared none []
  have identity : ((written keys firstRecord s).field keys.identity (numeral 1)).isSome := by
    rw [written, field_put, if_pos ⟨rfl, rfl⟩]
    rfl
  have payload : ((written keys firstRecord s).field keys.journal (numeral 1)).isSome := by
    rw [written, field_put]
    split
    · rfl
    · rw [field_put, if_pos ⟨rfl, rfl⟩]
      rfl
  have unapplied : (written keys firstRecord s).field keys.metadata (ascii "applied_index") = none :=
    (field_written (by decide)).trans h.appliedIndex
  cases typed : (written keys firstRecord s).stream keys.outbox with
  | none =>
    have adds : xadd keys.outbox (eventId firstRecord.indexText) firstRecord.fields
        (written keys firstRecord s) = .error .wrongType (written keys firstRecord s) :=
      xadd_fault (n := 1) (by decide) typed
    exact ⟨_, _, run.trans (run_bind_error (applies.trans (run_bind_error adds))), payload,
      unapplied⟩
  | some stream =>
    -- A stream is none of the hashes, so it is the metadata that shares the key.
    have ofJournal : keys.outbox ≠ keys.journal := by
      intro same
      rw [same, stream_of_field payload] at typed
      cases typed
    have ofIdentity : keys.outbox ≠ keys.identity := by
      intro same
      rw [same, stream_of_field identity] at typed
      cases typed
    have ofMetadata : keys.outbox = keys.metadata := by
      simpa [BatchKeys.apart, ofJournal, ofIdentity] using shared
    have later : stream.last < toLex (1, 0) := by
      obtain ⟨empty, found, _, last⟩ := h.outbox
      rw [written, stream_put ofIdentity, stream_put ofJournal, found] at typed
      cases typed
      rw [last]
      decide
    have adds : xadd keys.outbox (eventId firstRecord.indexText) firstRecord.fields
        (written keys firstRecord s) = _ := xadd_run (n := 1) (by decide) typed later
    have applied := run.trans (run_bind_ok (applies.trans (run_bind_ok adds)))
    refine ⟨_, _, applied.trans (run_bind_error (hset_fault (ofMetadata ▸ fields_putStream_self))),
      ?_, ?_⟩
    · rw [field_putStream ofJournal.symm]
      exact payload
    · rw [← ofMetadata, Keys.field, fields_putStream_self]
      rfl

theorem BatchKeys.Missing.first (missing : keys.Missing s) (tagged : keys.tagged)
    (apart : keys.apart) :
    ∃ s', luaApplyBatch keys (batchArguments (firstRequest keys).records) s =
        .ok ⟨.applied, numeral 1⟩ s' ∧ Holds keys ⟨[firstRecord], 0, none⟩ 1 s' :=
  (missing.holds.luaApplyBatch (firstRequest_valid tagged)).2 apart rfl

theorem BatchOp.first_valid (tagged : keys.tagged) :
    ∀ op ∈ [BatchOp.apply (firstRequest keys)], op.valid keys := by
  rw [forall_mem_singleton, BatchOp.valid, firstRequest_valid tagged]
  simp [firstRequest]

theorem BatchKeys.Missing.course_first (missing : keys.Missing s) (tagged : keys.tagged)
    (apart : keys.apart) :
    Course.Holds keys ⟨[firstRecord], 0, none⟩
      (Course.run keys ⟨s, none⟩ [.apply (firstRequest keys)]) := by
  obtain ⟨s', run, holds⟩ := missing.first tagged apart
  have step : Course.run keys ⟨s, none⟩ [.apply (firstRequest keys)] = ⟨s', none⟩ :=
    Course.step_ok (c := ⟨s, none⟩) (.apply (firstRequest keys)) run
  rw [step]
  exact ⟨holds, rfl⟩

/-- What the keys hold once the records of a log are applied. -/
structure Recorded (keys : BatchKeys) (log : List BatchRecord) (s : Keys) : Prop where
  indexes : ∀ i r, log[i]? = some r → r.index.toNat = i + 1
  appliedIndex : (s.field keys.metadata (ascii "applied_index")).getD (ascii "0") = numeral log.length
  payloads : ∀ i, s.field keys.journal (numeral (i + 1)) = log[i]?.map payload
  identities : ∀ i, s.field keys.identity (numeral (i + 1)) = log[i]?.map identity
  outbox : ∃ stream, s.stream keys.outbox = some stream ∧ stream.events = log.map event

/-- The answer to a batch and the records it adds to the log. -/
structure Answered (log batch : List BatchRecord) (kind : ReceiptKind) (added : List BatchRecord) :
    Prop where
  applied : kind = .applied ↔ added ≠ []
  replayed : kind = .replayed ↔ ∀ r ∈ batch, r ∈ log
  conflict : kind = .conflict ↔ ∃ r ∈ batch, ∃ old ∈ log, old.index = r.index ∧ old ≠ r
  gap : kind = .gap ↔ ∃ first, batch.head? = some first ∧ log.length + 1 < first.index.toNat
  known : kind = .applied ∨ kind = .replayed ∨ kind = .conflict ∨ kind = .gap
  added : added = [] ∨ added = batch.filter (log.length < ·.index.toNat)

/-- Every script of a history runs to its end, answers for the log before it and
adds to it; only an applied batch writes. -/
def Faithful (keys : BatchKeys) : Keys → List BatchRecord → List BatchRequest → Prop
  | s, log, [] => Recorded keys log s
  | s, log, request :: rest =>
    Recorded keys log s ∧ ∃ receipt s' added,
      luaApplyBatch keys (batchArguments request.records) s = .ok receipt s' ∧
      Answered log request.records receipt.kind added ∧
      (receipt.kind ≠ .applied → s' = s) ∧ Faithful keys s' (log ++ added) rest

section Batches

variable {r : BatchRecord}

theorem Holds.recorded (h : Holds keys j j.applied s) (separate : keys.journal ≠ keys.identity)
    (floor : j.floor = 0) : Recorded keys j.records s where
  indexes := by
    intro i r found
    rw [h.wellFormed.numbered.index found, Nat.add_comm]
  appliedIndex := by rw [h.appliedIndex, storedNumber_getD, applied]
  payloads := by
    intro i
    have own : keys.storedAs = payload := by
      funext r
      exact if_neg separate
    rw [h.payloads, kept_above (by omega), own, Nat.add_sub_cancel]
  identities := by
    intro i
    rw [h.identities, kept_above (by omega), Nat.add_sub_cancel]
  outbox := by
    obtain ⟨stream, found, events, _⟩ := h.outbox
    exact ⟨stream, found, events⟩

section H

variable (h : j.WellFormed) (separate : keys.journal ≠ keys.identity) (floor : j.floor = 0)
include h separate floor

theorem Journal.WellFormed.mem_records (valid : r.valid) :
    r ∈ j.records ↔ j.retains keys r := by
  have positive := index_pos valid
  have own : keys.storedAs r = r.payload := if_neg separate
  rw [retains, own, decide_eq_true rfl, Bool.and_true, decide_eq_true_eq,
    kept_above (by omega)]
  constructor
  · intro member
    obtain ⟨i, found⟩ := mem_iff_getElem?.mp member
    have := h.numbered.index found
    rw [← found]
    congr 1
    omega
  · exact mem_of_getElem?

theorem Journal.WellFormed.conflict_iff (valid : r.valid) :
    (∃ old ∈ j.records, old.index = r.index ∧ old ≠ r) ↔
      r.index.toNat ≤ j.applied ∧ j.retains keys r = false := by
  have positive := index_pos valid
  rw [← not_eq_true, ← h.mem_records separate floor valid, applied]
  constructor
  · rintro ⟨old, member, index, ne⟩
    obtain ⟨i, found⟩ := mem_iff_getElem?.mp member
    have position := h.numbered.index found
    obtain ⟨lt, _⟩ := List.getElem?_eq_some_iff.mp found
    rw [index] at position
    refine ⟨by omega, fun other => ?_⟩
    obtain ⟨i', found'⟩ := mem_iff_getElem?.mp other
    have := h.numbered.index found'
    have same : i' = i := by omega
    rw [same, found] at found'
    exact ne (Option.some.inj found')
  · rintro ⟨le, lost⟩
    have found := getElem?_eq_getElem (show r.index.toNat - 1 < j.records.length by omega)
    have index := h.numbered.index found
    refine ⟨_, mem_of_getElem? found, UInt64.toNat_inj.mp (by omega), ?_⟩
    rintro same
    exact lost (same ▸ mem_of_getElem? found)

theorem Journal.WellFormed.answered {first : BatchRecord} {rest : List BatchRecord}
    (valid : ∀ r ∈ first :: rest, r.valid)
    (numbered : NumberedFrom first.index.toNat (first :: rest)) :
    Answered j.records (first :: rest) (j.reply keys (first :: rest))
      (if j.reply keys (first :: rest) = .applied then j.fresh (first :: rest) else []) := by
  have conflict : (first :: rest).any (fun r => r.index.toNat ≤ j.applied && !j.retains keys r) = true ↔
      ∃ r ∈ first :: rest, ∃ old ∈ j.records, old.index = r.index ∧ old ≠ r := by
    rw [any_eq_true]
    refine exists_congr fun r => and_congr_right fun member => ?_
    rw [h.conflict_iff separate floor (valid r member)]
    simp
  have log : (∀ r ∈ first :: rest, r ∈ j.records) ↔ ∀ r ∈ first :: rest, j.retains keys r :=
    forall₂_congr fun r member => h.mem_records separate floor (valid r member)
  have within : ∀ r ∈ j.records, r.index.toNat ≤ j.applied := by
    intro r member
    have := (h.numbered.lt member).2
    rw [applied]
    omega
  have beyond : ∀ r ∈ first :: rest, first.index.toNat ≤ r.index.toNat :=
    fun r member => (numbered.lt member).1
  have head : (∃ f, (first :: rest).head? = some f ∧ j.records.length + 1 < f.index.toNat) ↔
      j.applied + 1 < first.index.toNat := by
    simp [applied]
  have old : j.fresh (first :: rest) = [] ↔ ∀ r ∈ first :: rest, r.index.toNat ≤ j.applied := by
    simp [fresh]
  have reply := reply.eq_1 j keys (first :: rest)
  rw [head?_cons, Option.any_some] at reply
  by_cases clash : (first :: rest).any (fun r => r.index.toNat ≤ j.applied && !j.retains keys r) = true
  · rw [if_pos clash] at reply
    obtain ⟨r, member, lost⟩ := any_eq_true.mp clash
    simp only [and_eq_true, decide_eq_true_eq, not_eq_true'] at lost
    have := beyond r member
    rw [reply, if_neg (by simp)]
    refine ⟨by simp, iff_of_false (by simp) fun all => ?_, iff_of_true rfl (conflict.mp clash),
      iff_of_false (by simp) fun far => ?_, by simp, .inl rfl⟩
    · exact absurd (log.mp all r member) (by simp [lost.2])
    · have := head.mp far
      omega
  · rw [if_neg clash] at reply
    by_cases far : j.applied + 1 < first.index.toNat
    · rw [if_pos (decide_eq_true far)] at reply
      rw [reply, if_neg (by simp)]
      refine ⟨by simp, iff_of_false (by simp) fun all => ?_, iff_of_false (by simp) (mt conflict.mpr clash),
        iff_of_true rfl (head.mpr far), by simp, .inl rfl⟩
      have := within first (all first mem_cons_self)
      omega
    · rw [if_neg (by simpa using far)] at reply
      by_cases none : j.fresh (first :: rest) = []
      · rw [if_pos none] at reply
        rw [reply, if_neg (by simp)]
        refine ⟨by simp, iff_of_true rfl (log.mpr fun r member => ?_),
          iff_of_false (by simp) (mt conflict.mpr clash), iff_of_false (by simp) (mt head.mp far), by simp,
          .inl rfl⟩
        have kept := any_eq_false.mp (eq_false_of_not_eq_true clash) r member
        simpa [old.mp none r member] using kept
      · rw [if_neg none] at reply
        rw [reply, if_pos rfl]
        refine ⟨iff_of_true rfl none, iff_of_false (by simp) fun all => ?_,
          iff_of_false (by simp) (mt conflict.mpr clash), iff_of_false (by simp) (mt head.mp far), by simp,
          .inr rfl⟩
        exact none (old.mpr fun r member => within r (all r member))

end H

theorem Holds.faithful (h : Holds keys j j.applied s) (separate : keys.separate)
    (floor : j.floor = 0) {requests : List BatchRequest}
    (valid : ∀ request ∈ requests, request.keys = keys ∧ luaApplyBatchValidate request) :
    Faithful keys s j.records requests := by
  simp only [BatchKeys.separate, and_eq_true, decide_eq_true_eq] at separate
  obtain ⟨apart, separate⟩ := separate
  induction requests generalizing j s with
  | nil => exact h.recorded separate floor
  | cons request rest ih =>
    obtain ⟨accepted, later⟩ := forall_mem_cons.mp valid
    obtain ⟨first, others, records, recordsValid, numbered⟩ := luaApplyBatchValidate_records accepted.2
    obtain ⟨refused, applied⟩ := h.luaApplyBatch accepted.2
    have answered := h.wellFormed.answered separate floor recordsValid numbered
    rw [← records] at answered
    refine ⟨h.recorded separate floor, ?_⟩
    by_cases reply : j.reply keys request.records = .applied
    · obtain ⟨s', run, holds⟩ := applied apart reply
      rw [if_pos reply, reply] at answered
      exact ⟨_, s', _, run, answered, fun other => absurd rfl other, ih holds floor later⟩
    · rw [if_neg reply] at answered
      refine ⟨_, s, _, refused reply, answered, fun _ => rfl, ?_⟩
      rw [append_nil]
      exact ih h floor later

theorem BatchKeys.Missing.not_faithful (missing : keys.Missing s) (tagged : keys.tagged)
    (shared : keys.apart = false) : ¬ Faithful keys s [] [firstRequest keys] := by
  rintro ⟨_, receipt, s', added, run, _⟩
  obtain ⟨fault, s1, fails, _⟩ := missing.fault tagged shared
  rw [fails] at run
  cases run

/-- A history of batches keeps its log exactly when the outbox, the payloads and
the identities have different keys and the outbox is not the metadata. -/
theorem batchHistory_faithful_iff (tagged : keys.tagged = true) :
    (∀ s, keys.Missing s → ∀ requests : List BatchRequest,
      (∀ request ∈ requests, request.keys = keys ∧ luaApplyBatchValidate request = true) →
        Faithful keys s [] requests) ↔ keys.separate = true := by
  constructor
  · intro faithful
    have missing : keys.Missing fun _ => none := ⟨rfl, rfl, rfl, rfl⟩
    have valid : ∀ request ∈ [firstRequest keys],
        request.keys = keys ∧ luaApplyBatchValidate request = true :=
      forall_mem_singleton.mpr ⟨rfl, firstRequest_valid tagged⟩
    by_cases apart : keys.apart
    · rw [BatchKeys.separate, apart, Bool.true_and, decide_eq_true_eq]
      intro same
      obtain ⟨_, receipt, s', added, run, answered, _, recorded⟩ := faithful _ missing _ valid
      obtain ⟨s₁, applies, holds⟩ := missing.first tagged apart
      rw [applies] at run
      cases run
      have stored := (recorded.payloads 0).symm.trans (holds.payloads 1)
      have own : keys.storedAs firstRecord = firstRecord.identity := if_pos same
      rcases answered.added with none | filtered
      · rw [none] at stored
        cases stored
      · rw [filtered] at stored
        exact absurd (Option.some.inj stored) (own ▸ by decide)
    · exact absurd (faithful _ missing _ valid)
        (missing.not_faithful tagged (eq_false_of_not_eq_true apart))
  · intro separate s missing requests valid
    exact missing.holds.faithful separate rfl valid

end Batches

def ordersKeys : BatchKeys :=
  ⟨ascii "raft:\x7borders\x7d:metadata", ascii "raft:\x7borders\x7d:journal",
    ascii "raft:\x7borders\x7d:identity", ascii "raft:\x7borders\x7d:outbox"⟩

theorem batchHistory_faithful_iff_orders : ordersKeys.tagged = true ∧
    ((∀ s, ordersKeys.Missing s → ∀ requests : List BatchRequest,
      (∀ request ∈ requests, request.keys = ordersKeys ∧ luaApplyBatchValidate request = true) →
        Faithful ordersKeys s [] requests) ↔ ordersKeys.separate = true) :=
  ⟨by decide, batchHistory_faithful_iff (by decide)⟩

/-- Accepted keys of which the last one is the second again. -/
def sharedKeys : BatchKeys := { ordersKeys with outbox := ordersKeys.journal }

theorem not_faithful_shared : luaApplyBatchValidate (firstRequest sharedKeys) = true ∧
    ¬ Faithful sharedKeys (fun _ => none) [] [firstRequest sharedKeys] := by
  have missing : sharedKeys.Missing fun _ => none := ⟨rfl, rfl, rfl, rfl⟩
  exact ⟨firstRequest_valid (by decide), missing.not_faithful (by decide) (by decide)⟩

/-- Reconciling reads only and foretells what applying would answer. -/
def Predicts (keys : BatchKeys) (request : BatchRequest) (s : Keys) : Prop :=
  ∃ receipt, luaApplyBatchReconcile keys (batchArguments request.records) s = .ok receipt s ∧
    (receipt.kind = .pending ↔ ∃ last s', request.records.getLast? = some last ∧
      luaApplyBatch keys (batchArguments request.records) s = .ok ⟨.applied, numeral last.index.toNat⟩ s') ∧
    ∀ kind, kind = .replayed ∨ kind = .conflict ∨ kind = .gap →
      (receipt.kind = kind ↔
        ∃ text s', luaApplyBatch keys (batchArguments request.records) s = .ok ⟨kind, text⟩ s')

theorem Journal.applied_extend {request : BatchRequest} (valid : luaApplyBatchValidate request)
    (reply : j.reply keys request.records = .applied) :
    ∃ last, request.records.getLast? = some last ∧
      (j.extend (j.fresh request.records)).applied = last.index.toNat := by
  obtain ⟨first, rest, records, _, numbered⟩ := luaApplyBatchValidate_records valid
  rw [records] at reply ⊢
  rw [Journal.reply, head?_cons, Option.any_some] at reply
  split_ifs at reply with conflict gap none
  rw [decide_eq_true_eq] at gap
  obtain ⟨whole, fresh⟩ := numbered.split j.applied
  rw [Nat.max_eq_right (by omega)] at fresh
  have ends := getLast?_eq_some_getLast none
  refine ⟨(j.fresh (first :: rest)).getLast none, ?_, ?_⟩
  · conv_lhs => rw [← whole]
    exact (getLast?_append_of_ne_nil _ none).trans ends
  · have positive := length_pos_iff.mpr none
    rw [getLast?_eq_getElem?] at ends
    rw [fresh.index ends, extend, applied, applied, length_append]
    omega

theorem Holds.predicts (h : Holds keys j j.applied s) (separate : keys.separate)
    {request : BatchRequest} (valid : luaApplyBatchValidate request) :
    Predicts keys request s := by
  simp only [BatchKeys.separate, and_eq_true, decide_eq_true_eq] at separate
  obtain ⟨apart, separate⟩ := separate
  refine ⟨_, h.luaApplyBatchReconcile valid, ?_⟩
  obtain ⟨refused, applied⟩ := h.luaApplyBatch valid
  rw [forecast_eq h.wellFormed separate]
  by_cases reply : j.reply keys request.records = .applied
  · obtain ⟨s', run, holds⟩ := applied apart reply
    obtain ⟨last, ends, index⟩ := applied_extend valid reply
    rw [if_pos reply]
    refine ⟨iff_of_true rfl ⟨last, s', ends, index ▸ run⟩, fun kind other => iff_of_false ?_ ?_⟩
    · rintro rfl
      simp at other
    · rintro ⟨text, s1, run'⟩
      rw [run] at run'
      cases run'
      simp at other
  · have known : j.reply keys request.records ≠ .pending := by
      rw [Journal.reply]
      split_ifs <;> simp
    rw [if_neg reply, refused reply]
    refine ⟨iff_of_false known ?_, fun kind other => ?_⟩
    · rintro ⟨last, s1, _, run⟩
      exact reply (congrArg Receipt.kind (EStateM.Result.ok.inj run).1)
    · constructor
      · rintro rfl
        exact ⟨_, _, rfl⟩
      · rintro ⟨text, s1, run⟩
        exact congrArg Receipt.kind (EStateM.Result.ok.inj run).1

theorem BatchKeys.Missing.not_predicts (missing : keys.Missing s) (tagged : keys.tagged)
    (shared : keys.apart = false) : ¬ Predicts keys (firstRequest keys) s := by
  rintro ⟨receipt, reconciles, pending, _⟩
  have foretold := reconciles.symm.trans
    (missing.holds.luaApplyBatchReconcile (firstRequest_valid tagged))
  obtain ⟨_, _, _, run⟩ := pending.mp (congrArg Receipt.kind (EStateM.Result.ok.inj foretold).1)
  obtain ⟨fault, s1, fails, _⟩ := missing.fault tagged shared
  rw [fails] at run
  cases run

/-- The first record with its own identity as the payload. -/
def disguisedRecord : BatchRecord := { firstRecord with payload := firstRecord.identity }

/-- Reconciling foretells applying after every history exactly when the keys are
separate. -/
theorem reconcile_predicts_iff (tagged : keys.tagged = true) :
    (∀ s, keys.Missing s → ∀ ops : List BatchOp, (∀ op ∈ ops, op.valid keys = true) →
      ∀ request : BatchRequest, request.keys = keys → luaApplyBatchValidate request = true →
        Predicts keys request (Course.run keys ⟨s, none⟩ ops).keyspace) ↔ keys.separate = true := by
  constructor
  · intro predicts
    have missing : keys.Missing fun _ => none := ⟨rfl, rfl, rfl, rfl⟩
    have valid := firstRequest_valid tagged
    by_cases apart : keys.apart
    · rw [BatchKeys.separate, apart, Bool.true_and, decide_eq_true_eq]
      intro same
      have holds := (missing.course_first tagged apart).keyspace
      -- The identity that replaced the payload passes for it.
      have accepted : luaApplyBatchValidate ⟨keys, [disguisedRecord]⟩ = true :=
        luaApplyBatchValidate_single tagged (by decide)
      obtain ⟨receipt, reconciles, _, predicted⟩ := predicts _ missing [.apply (firstRequest keys)]
        (BatchOp.first_valid tagged) _ rfl accepted
      have foretold := reconciles.symm.trans (holds.luaApplyBatchReconcile accepted)
      have stored : forecast ⟨[firstRecord], 0, none⟩ keys [disguisedRecord] = .replayed := by
        have own : keys.storedAs firstRecord = disguisedRecord.payload := if_pos same
        have kept : kept ⟨[firstRecord], 0, none⟩ disguisedRecord.index.toNat =
            some firstRecord := rfl
        simp [forecast, stores, own, kept]
        decide
      have reply : reply ⟨[firstRecord], 0, none⟩ keys [disguisedRecord] = .conflict := by
        refine reply_conflict mem_cons_self (by decide) ?_
        rw [retains, and_eq_false_iff]
        exact .inl (by decide)
      have refused := (holds.luaApplyBatch accepted).1 (by rw [reply]; decide)
      obtain ⟨_, _, run⟩ := (predicted .replayed (.inl rfl)).mp
        ((congrArg Receipt.kind (EStateM.Result.ok.inj foretold).1).trans stored)
      have kind := congrArg Receipt.kind (EStateM.Result.ok.inj (run.symm.trans refused)).1
      cases kind
    · exact absurd (predicts _ missing [] (by simp) _ rfl valid)
        (missing.not_predicts tagged (eq_false_of_not_eq_true apart))
  · intro separate s missing ops valid request _ accepted
    have apart : keys.apart = true := (and_eq_true _ _ ▸ separate).1
    obtain ⟨j, holds, _⟩ := missing.course.run apart valid
    exact holds.keyspace.predicts separate accepted

theorem reconcile_predicts_iff_orders : ordersKeys.tagged = true ∧
    ((∀ s, ordersKeys.Missing s → ∀ ops : List BatchOp, (∀ op ∈ ops, op.valid ordersKeys = true) →
      ∀ request : BatchRequest, request.keys = ordersKeys → luaApplyBatchValidate request = true →
        Predicts ordersKeys request (Course.run ordersKeys ⟨s, none⟩ ops).keyspace) ↔
      ordersKeys.separate = true) :=
  ⟨by decide, reconcile_predicts_iff (by decide)⟩

theorem not_predicts_shared : luaApplyBatchValidate (firstRequest sharedKeys) = true ∧
    ¬ Predicts sharedKeys (firstRequest sharedKeys) fun _ => none := by
  have missing : sharedKeys.Missing fun _ => none := ⟨rfl, rfl, rfl, rfl⟩
  exact ⟨firstRequest_valid (by decide), missing.not_predicts (by decide) (by decide)⟩

end TurboDb.Redis
