import TurboDb.Redis.Journal

/-!
Applying and reconciling a batch of records.

The script that applies looks for conflicts first, then compares the records up
to the applied index with what is stored and writes those behind it, and at last
moves the applied index. Only a record that is next reaches the first write, and
nothing behind it could fail: the journal grows by all fresh records or not at all.
-/

namespace TurboDb.Redis

open ByteOrder Decimal Keyspace Effect Journal BatchRecord List

variable {keys : BatchKeys} {j : Journal} {committed : Nat} {s : Keys} {r : BatchRecord}
  {batch : List BatchRecord}

variable {arguments : List Bytes} {k : Nat} {request : BatchRequest}

section Apply

variable {prepared : List (Bytes × Bool)}

theorem Journal.kept_push {n : Nat} (h : j.WellFormed) :
    (j.push r).kept n = if n = j.applied + 1 then some r else j.kept n := by
  have floor := h.floor_le
  rw [applied] at *
  change (if j.floor < n then (j.records ++ [r])[n - 1]? else none) =
    if n = j.records.length + 1 then some r else if j.floor < n then j.records[n - 1]? else none
  by_cases last : n = j.records.length + 1
  · subst last
    rw [if_pos rfl, if_pos (by omega), Nat.add_sub_cancel, getElem?_concat_length]
  · rw [if_neg last]
    by_cases above : j.floor < n
    · by_cases old : n - 1 < j.records.length
      · rw [getElem?_append_left old]
      · rw [getElem?_eq_none (Nat.not_lt.mp old), getElem?_eq_none]
        simp
        omega
    · rw [if_neg above, if_neg above]

theorem Journal.WellFormed.push (h : j.WellFormed) (valid : r.valid)
    (index : r.index.toNat = j.applied + 1) : (j.push r).WellFormed where
  numbered := by
    refine numberedFrom_append.mpr ⟨h.numbered, ?_, trivial⟩
    rw [index, Journal.applied, Nat.add_comm]
  valid := by
    intro r' member
    rcases mem_append.mp member with old | new
    · exact h.valid r' old
    · rw [mem_singleton.mp new]
      exact valid
  floor_le := by
    have := h.floor_le
    simp only [Journal.push, Journal.applied, length_append, length_singleton] at *
    omega

def written (keys : BatchKeys) (r : BatchRecord) (s : Keys) : Keys :=
  (s.put keys.journal r.indexText r.payload).put keys.identity r.indexText r.identity

/-- Writing a record below its own index changes no name of the metadata. -/
theorem field_written {key name : Bytes} (named : name.head?.all (!isDigit ·) = true) :
    (written keys r s).field key name = s.field key name := by
  have ne : name ≠ r.indexText := fun same => numeral_ne named same.symm
  rw [written, field_put, if_neg (fun both => ne both.2), field_put, if_neg (fun both => ne both.2)]

theorem isSome_fields_written {key : Bytes} (h : (s.fields key).isSome) :
    ((written keys r s).fields key).isSome :=
  isSome_fields_put (isSome_fields_put h)

theorem Holds.push (h : Holds keys j committed s) (apart : keys.apart) (valid : r.valid)
    (index : r.index.toNat = j.applied + 1) :
    ∃ s', xadd keys.outbox (eventId r.indexText) r.fields (written keys r s) = .ok () s' ∧
      Holds keys (j.push r) committed s' := by
  simp only [BatchKeys.apart, Bool.and_eq_true, decide_eq_true_eq] at apart
  obtain ⟨⟨ofMetadata, ofJournal⟩, ofIdentity⟩ := apart
  obtain ⟨stream, found, events, last⟩ := h.outbox
  have found' : (written keys r s).stream keys.outbox = some stream := by
    rw [written, stream_put ofIdentity, stream_put ofJournal, found]
  have later : stream.last < toLex (r.index.toNat, 0) := by
    rw [last, Prod.Lex.toLex_lt_toLex, index]
    exact .inl (Nat.lt_succ_self _)
  refine ⟨_, xadd_run r.index.toNat_lt found' later, ?_⟩
  have name {name : Bytes} (named : name.head?.all (!isDigit ·) = true) :
      ((written keys r s).putStream keys.outbox (stream.append _ r.fields later)).field keys.metadata name =
        s.field keys.metadata name := by
    rw [field_putStream ofMetadata.symm, field_written named]
  refine ⟨h.wellFormed.push valid index, ?_, ?_, ?_, ⟨_, stream_putStream, ?_, ?_⟩,
    (name (by decide)).trans h.appliedIndex, (name (by decide)).trans h.floor,
    (name (by decide)).trans h.first, (name (by decide)).trans h.snapshotIndex,
    (name (by decide)).trans h.snapshotTerm, fun n => ?_, fun n => ?_, ?_, h.compacted⟩
  · rw [fields_putStream ofMetadata.symm]
    exact isSome_fields_written h.metadata
  · rw [fields_putStream ofJournal.symm]
    exact isSome_fields_written h.journal
  · rw [fields_putStream ofIdentity.symm]
    exact isSome_fields_written h.identity
  · simp [Stream.append, Journal.push, events, BatchRecord.event]
  · simp [Stream.append, Journal.push, Journal.applied, index]
  · rw [field_putStream ofJournal.symm, written]
    simp only [field_put, h.payloads, indexText, numeral_inj, index,
      kept_push h.wellFormed]
    by_cases here : n = j.applied + 1
    · by_cases shared : keys.journal = keys.identity <;> simp [here, shared, BatchKeys.storedAs]
    · simp [here]
  · rw [field_putStream ofIdentity.symm, written]
    simp only [field_put, h.identities, indexText, numeral_inj, index,
      kept_push h.wellFormed]
    by_cases here : n = j.applied + 1 <;> simp [here]
  · intro key name ofRecords apart found
    have ne : key ≠ keys.outbox := by
      rintro rfl
      exact ofRecords.elim ofJournal ofIdentity
    rw [field_putStream ne, written] at found
    by_cases own : name = r.indexText
    · exact ⟨_, own⟩
    · rw [field_put, if_neg (fun both => own both.2), field_put, if_neg (fun both => own both.2)] at found
      exact h.names key name ofRecords apart found

theorem Holds.recordStored (h : Holds keys j committed s) :
    recordStored keys r.indexText r.termText r.commandId r.payload s = .ok (j.stores keys r) s := by
  have known := h.identities r.index.toNat
  have stored := h.payloads r.index.toNat
  rw [← indexText] at known stored
  rw [Redis.recordStored, run_bind_ok (hget_run h.identity), run_bind_ok (hget_run h.journal), run_pure,
    known, stored, stores]
  cases j.kept r.index.toNat with
  | none => rfl
  | some old =>
    simp only [Option.map_some, Option.some.injEq, Option.any_some]
    rfl

theorem decimalCompare_isLE {m n : Nat} :
    (decimalCompare (numeral m) (numeral n)).isLE = decide (m ≤ n) := by
  rw [decimalCompare_numeral, Bool.eq_iff_iff, decide_eq_true_eq, Ordering.isLE_iff_ne_gt,
    compare_gt_iff_gt]
  omega

theorem Holds.applyRecords_old (h : Holds keys j committed s) {progress : Progress}
    (old : ∀ r ∈ batch, r.index.toNat ≤ committed) :
    applyRecords keys (numeral committed) prepared progress (batchArguments batch ++ arguments) s =
      if batch.all (j.stores keys) then
        applyRecords keys (numeral committed) prepared progress arguments s
      else .ok (.error ⟨.conflict, numeral committed⟩) s := by
  induction batch with
  | nil => rfl
  | cons r rest ih =>
    obtain ⟨first, later⟩ := forall_mem_cons.mp old
    have le : (decimalCompare r.indexText (numeral committed)).isLE := by
      rw [indexText, decimalCompare_isLE, decide_eq_true_eq]
      exact first
    rw [batchArguments_cons, cons_append, cons_append, cons_append, cons_append,
      applyRecords, if_pos le, run_bind_ok h.recordStored, all_cons]
    by_cases stores : j.stores keys r
    · rw [if_neg (by simp [stores]), stores, Bool.true_and]
      exact ih later
    · rw [if_pos (by simp [stores]), if_neg (by simp [stores])]
      rfl

theorem Journal.extend_cons : (j.push r).extend batch = j.extend (r :: batch) := by
  simp [push, extend]

/-- The next record is written to both hashes before its event is added. -/
theorem Holds.applyRecords_cons (h : Holds keys j committed s) (index : r.index.toNat = j.applied + 1)
    (le : committed ≤ j.applied)
    (unprepared : (prepared.lookup r.indexText).getD false = false) (final : Option (Bytes × Bytes))
    (rest : List BatchRecord) :
    applyRecords keys (numeral committed) prepared ⟨numeral j.applied, final⟩
        (batchArguments (r :: rest)) s =
      (do
        xadd keys.outbox (eventId r.indexText) r.fields
        applyRecords keys (numeral committed) prepared ⟨r.indexText, some (r.termText, r.commandId)⟩
          (batchArguments rest) : Script (Except Receipt Progress)) (written keys r s) := by
  have beyond : ¬ (decimalCompare r.indexText (numeral committed)).isLE := by
    rw [indexText, decimalCompare_isLE, decide_eq_true_eq]
    omega
  have next : ¬ r.indexText ≠ decimalIncrement (numeral j.applied) := by
    rw [decimalIncrement_numeral, indexText, index, not_not]
  have journal : hset keys.journal [(r.indexText, r.payload)] s =
      .ok () (s.put keys.journal r.indexText r.payload) := hset_run h.journal
  have identity : hset keys.identity [(r.indexText, identityText r.termText r.commandId)]
      (s.put keys.journal r.indexText r.payload) = .ok () (written keys r s) :=
    hset_run (isSome_fields_put h.identity)
  rw [batchArguments_cons, applyRecords, if_neg beyond, if_neg next, run_bind_ok journal,
    run_bind_ok identity, if_pos (by simp [unprepared])]
  rfl

theorem Holds.applyRecords_new (h : Holds keys j committed s) (apart : keys.apart)
    (valid : ∀ r ∈ batch, r.valid) (numbered : NumberedFrom (j.applied + 1) batch)
    (le : committed ≤ j.applied)
    (unprepared : ∀ r ∈ batch, (prepared.lookup r.indexText).getD false = false)
    (final : Option (Bytes × Bytes)) :
    ∃ s', applyRecords keys (numeral committed) prepared ⟨numeral j.applied, final⟩
        (batchArguments batch) s =
        .ok (.ok ⟨numeral (j.extend batch).applied,
          (batch.getLast?.map fun r => (r.termText, r.commandId)).or final⟩) s' ∧
      Holds keys (j.extend batch) committed s' := by
  induction batch generalizing j s final with
  | nil =>
    have same : j.extend [] = j := by simp [extend]
    rw [same]
    exact ⟨s, rfl, h⟩
  | cons r rest ih =>
    obtain ⟨index, later⟩ := numbered
    obtain ⟨first, validRest⟩ := forall_mem_cons.mp valid
    obtain ⟨fresh, freshRest⟩ := forall_mem_cons.mp unprepared
    obtain ⟨s1, added, pushed⟩ := h.push apart first index
    have applied : (j.push r).applied = j.applied + 1 := by simp [Journal.push, Journal.applied]
    obtain ⟨s', run, holds⟩ := ih pushed validRest (applied ▸ later) (by omega) freshRest
      (some (r.termText, r.commandId))
    refine ⟨s', ?_, extend_cons ▸ holds⟩
    rw [h.applyRecords_cons index le fresh, run_bind_ok added]
    rw [applied, extend_cons, ← index, ← indexText] at run
    refine run.trans ?_
    cases rest with
    | nil => simp
    | cons second rest =>
      rfl

end Apply

theorem Journal.clear_and_stores (positive : 0 < r.index.toNat) (le : r.index.toNat ≤ j.applied) :
    (j.clear keys r && j.stores keys r) = j.retains keys r := by
  obtain ⟨old, found⟩ : ∃ old, j.records[r.index.toNat - 1]? = some old := by
    rw [applied] at le
    exact ⟨_, getElem?_eq_getElem (by omega)⟩
  rw [clear, stores, retains, kept, found]
  by_cases same : old = r
  · subst same
    by_cases kept : j.floor < old.index.toNat
    · simp [kept, Nat.not_le.mpr kept]
    · simp [kept]
  · simp [same]

theorem Journal.clear_of_fresh (new : j.applied < r.index.toNat) : j.clear keys r := by
  rw [clear, getElem?_eq_none]
  rw [applied] at new
  omega

theorem NumberedFrom.split (h : NumberedFrom k batch) (a : Nat) :
    batch.filter (·.index.toNat ≤ a) ++ batch.filter (a < ·.index.toNat) = batch ∧
      NumberedFrom (max k (a + 1)) (batch.filter (a < ·.index.toNat)) := by
  induction batch generalizing k with
  | nil => exact ⟨rfl, trivial⟩
  | cons r rest ih =>
    have beyond : ∀ r' ∈ r :: rest, k ≤ r'.index.toNat := fun r' member => (h.lt member).1
    obtain ⟨index, later⟩ := h
    by_cases old : r.index.toNat ≤ a
    · obtain ⟨same, numbered⟩ := ih later
      simp only [old, Nat.not_lt.mpr old, decide_true, decide_false, filter_cons_of_pos,
        cons_append, same, true_and, Bool.false_eq_true, not_false_eq_true,
        filter_cons_of_neg]
      rwa [Nat.max_eq_right (by omega)] at numbered ⊢
    · have none : (r :: rest).filter (·.index.toNat ≤ a) = [] := by
        rw [filter_eq_nil_iff]
        intro r' member
        have := beyond r' member
        simp
        omega
      have all : (r :: rest).filter (a < ·.index.toNat) = r :: rest := by
        rw [filter_eq_self]
        intro r' member
        have := beyond r' member
        simp
        omega
      rw [none, all, nil_append, Nat.max_eq_left (by omega)]
      exact ⟨rfl, index, later⟩

theorem lookup_prepared {a : Nat} {r : BatchRecord} (member : r ∈ batch) :
    (batch.map fun r => (r.indexText, decide (r.index.toNat ≤ a))).lookup r.indexText =
      some (decide (r.index.toNat ≤ a)) := by
  induction batch with
  | nil => cases member
  | cons first rest ih =>
    rw [map_cons]
    by_cases same : r.indexText = first.indexText
    · have index : r.index.toNat = first.index.toNat := numeral_inj.mp same
      rw [same, lookup_cons_self, index]
    · rw [lookup_cons, beq_false_of_ne same]
      refine ih ?_
      cases mem_cons.mp member with
      | inl here => exact absurd (here ▸ rfl) same
      | inr later => exact later

theorem batchArguments_append {others : List BatchRecord} :
    batchArguments (batch ++ others) = batchArguments batch ++ batchArguments others :=
  flatMap_append

theorem Holds.commit (h : Holds keys j committed s) (apart : keys.apart)
    (positive : 0 < j.applied) (term commandId : Bytes) :
    ∃ s', hset keys.metadata [(ascii "applied_index", numeral j.applied), (ascii "term", term),
        (ascii "command_id", commandId)] s = .ok () s' ∧ Holds keys j j.applied s' := by
  simp only [BatchKeys.apart, Bool.and_eq_true, decide_eq_true_eq] at apart
  refine ⟨_, hset_run h.metadata, h.wellFormed, isSome_fields_puts h.metadata,
    isSome_fields_puts h.journal, isSome_fields_puts h.identity, ?_, ?_, ?_, ?_, ?_, ?_, fun n => ?_,
    fun n => ?_, ?_, h.compacted⟩
  · rw [stream_puts apart.1.1]
    exact h.outbox
  · rw [field_puts, if_pos rfl, storedNumber, if_neg (Nat.ne_of_gt positive)]
    rfl
  · rw [field_puts, if_pos rfl]
    exact h.floor
  · rw [field_puts, if_pos rfl]
    exact h.first
  · rw [field_puts, if_pos rfl]
    exact h.snapshotIndex
  · rw [field_puts, if_pos rfl]
    exact h.snapshotTerm
  · rw [field_puts_numeral rfl]
    exact h.payloads n
  · rw [field_puts_numeral rfl]
    exact h.identities n
  · intro key name ofRecords apart found
    rw [field_puts, if_neg apart] at found
    exact h.names key name ofRecords apart found

theorem luaApplyBatchValidate_records (valid : luaApplyBatchValidate request) :
    ∃ first rest, request.records = first :: rest ∧ (∀ r ∈ first :: rest, r.valid) ∧
      NumberedFrom first.index.toNat (first :: rest) := by
  simp only [luaApplyBatchValidate, Bool.and_eq_true, decide_eq_true_eq, all_eq_true] at valid
  obtain ⟨⟨⟨⟨nonempty, _⟩, _⟩, records⟩, contiguous⟩ := valid
  cases batch : request.records with
  | nil => exact absurd batch nonempty
  | cons first rest =>
    rw [batch] at records contiguous
    exact ⟨first, rest, rfl, records, numberedFrom_of_contiguous contiguous⟩

theorem Journal.reply_conflict (member : r ∈ batch) (old : r.index.toNat ≤ j.applied)
    (lost : j.retains keys r = false) : j.reply keys batch = .conflict := by
  rw [reply, if_pos (any_eq_true.mpr ⟨r, member, by simp [old, lost]⟩)]

theorem Journal.reply_retained
    (retained : ∀ r ∈ batch, r.index.toNat ≤ j.applied → j.retains keys r) :
    j.reply keys batch =
      if batch.head?.any (fun r => j.applied + 1 < r.index.toNat) then .gap
      else if j.fresh batch = [] then .replayed
      else .applied := by
  rw [reply, if_neg]
  rw [Bool.not_eq_true, any_eq_false]
  intro r member
  by_cases old : r.index.toNat ≤ j.applied
  · simp [retained r member old]
  · simp [old]

/-- The loop that applies compares the old records and goes on with the fresh ones. -/
theorem Holds.applyRecords (h : Holds keys j j.applied s) (numbered : NumberedFrom k batch)
    (prepared : List (Bytes × Bool)) :
    applyRecords keys (numeral j.applied) prepared ⟨numeral j.applied, none⟩ (batchArguments batch) s =
      if (batch.filter (·.index.toNat ≤ j.applied)).all (j.stores keys) then
        applyRecords keys (numeral j.applied) prepared ⟨numeral j.applied, none⟩
          (batchArguments (j.fresh batch)) s
      else .ok (.error ⟨.conflict, numeral j.applied⟩) s := by
  have split := (numbered.split j.applied).1
  have old : ∀ r ∈ batch.filter (·.index.toNat ≤ j.applied), r.index.toNat ≤ j.applied := by
    intro r member
    exact of_decide_eq_true (mem_filter.mp member).2
  conv_lhs => rw [← split, batchArguments_append]
  rw [h.applyRecords_old old, fresh]

/-- Behind the preparation, the script ends as the loop that applies the records does. -/
theorem luaApplyBatch_prepared {applied : Bytes} {prepared : List (Bytes × Bool)}
    (begun : batchBegin keys arguments s = .ok (.ok applied) s)
    (prepares : prepareRecords keys applied arguments s = .ok (.ok prepared) s) :
    luaApplyBatch keys arguments s = (do
      match ← applyRecords keys applied prepared ⟨applied, none⟩ arguments with
      | .error refused => return refused
      | .ok ⟨cursor, some (term, commandId)⟩ => do
        hset keys.metadata [(ascii "applied_index", cursor), (ascii "term", term),
          (ascii "command_id", commandId)]
        return ⟨.applied, cursor⟩
      | .ok ⟨_, none⟩ => return ⟨.replayed, applied⟩ : Script Receipt) s := by
  rw [Redis.luaApplyBatch, run_bind_ok begun]
  exact run_bind_ok prepares

theorem applyRecords_gap {keys : BatchKeys} {a : ℕ} {prepared : List (Bytes × Bool)} {r : BatchRecord}
    {rest : List BatchRecord} {s : Keys} (gap : a + 1 < r.index.toNat) :
    Redis.applyRecords keys (numeral a) prepared ⟨numeral a, none⟩ (batchArguments (r :: rest)) s
      = .ok (.error ⟨.gap, numeral a⟩) s := by
  have beyond : ¬ (decimalCompare r.indexText (numeral a)).isLE := by
    rw [indexText, decimalCompare_isLE, decide_eq_true_eq]
    omega
  have far : r.indexText ≠ decimalIncrement (numeral a) := by
    rw [decimalIncrement_numeral, indexText, ne_eq, numeral_inj]
    omega
  rw [batchArguments_cons, Redis.applyRecords, if_neg beyond, if_pos far, run_pure]

/-- When no record is refused, every fresh one is written and the applied index
moves to the last of them. -/
theorem Holds.luaApplyBatch_fresh (h : Holds keys j j.applied s) (apart : keys.apart)
    (valid : ∀ r ∈ batch, r.valid) (numbered : NumberedFrom (j.applied + 1) (j.fresh batch))
    (nonempty : j.fresh batch ≠ [])
    (begun : Redis.batchBegin keys (batchArguments batch) s = .ok (.ok (numeral j.applied)) s)
    (prepares : Redis.prepareRecords keys (numeral j.applied) (batchArguments batch) s =
      .ok (.ok (batch.map fun r => (r.indexText, decide (r.index.toNat ≤ j.applied)))) s)
    (applies : Redis.applyRecords keys (numeral j.applied)
        (batch.map fun r => (r.indexText, decide (r.index.toNat ≤ j.applied))) ⟨numeral j.applied, none⟩
        (batchArguments batch) s =
      Redis.applyRecords keys (numeral j.applied)
        (batch.map fun r => (r.indexText, decide (r.index.toNat ≤ j.applied))) ⟨numeral j.applied, none⟩
        (batchArguments (j.fresh batch)) s) :
    ∃ s', Redis.luaApplyBatch keys (batchArguments batch) s =
        .ok ⟨.applied, numeral (j.extend (j.fresh batch)).applied⟩ s' ∧
      Holds keys (j.extend (j.fresh batch)) (j.extend (j.fresh batch)).applied s' := by
  have fresh : ∀ r ∈ j.fresh batch, r ∈ batch ∧ ¬ r.index.toNat ≤ j.applied := by
    intro r member
    obtain ⟨member, beyond⟩ := mem_filter.mp member
    exact ⟨member, Nat.not_le.mpr (of_decide_eq_true beyond)⟩
  have unprepared : ∀ r ∈ j.fresh batch,
      ((batch.map fun r => (r.indexText, decide (r.index.toNat ≤ j.applied))).lookup r.indexText).getD
        false = false := by
    intro r member
    rw [lookup_prepared (fresh r member).1, Option.getD_some, decide_eq_false (fresh r member).2]
  obtain ⟨s1, run, holds⟩ := h.applyRecords_new apart
    (fun r member => valid r (fresh r member).1) numbered le_rfl unprepared none
  rw [getLast?_eq_some_getLast nonempty] at run
  have positive : 0 < (j.extend (j.fresh batch)).applied := by
    have := length_pos_iff.mpr nonempty
    rw [extend, applied, length_append]
    omega
  obtain ⟨s2, commits, done⟩ := holds.commit apart positive
    ((j.fresh batch).getLast nonempty).termText ((j.fresh batch).getLast nonempty).commandId
  rw [luaApplyBatch_prepared begun prepares, run_bind_ok (applies.trans run)]
  exact ⟨s2, run_bind_ok commits, done⟩

theorem Holds.luaApplyBatch (h : Holds keys j j.applied s) (valid : luaApplyBatchValidate request) :
    (j.reply keys request.records ≠ .applied →
      luaApplyBatch keys (batchArguments request.records) s =
        .ok ⟨j.reply keys request.records, numeral j.applied⟩ s) ∧
    (keys.apart → j.reply keys request.records = .applied →
      ∃ s', luaApplyBatch keys (batchArguments request.records) s =
          .ok ⟨.applied, numeral (j.extend (j.fresh request.records)).applied⟩ s' ∧
        Holds keys (j.extend (j.fresh request.records))
          (j.extend (j.fresh request.records)).applied s') := by
  obtain ⟨first, rest, records, recordsValid, numbered⟩ := luaApplyBatchValidate_records valid
  have begun := h.batchBegin valid h.wellFormed.applied_lt
  rw [records] at begun ⊢
  have prepares := h.prepareRecords (numeral j.applied) recordsValid
  by_cases clear : (first :: rest).all (j.clear keys)
  · rw [if_pos clear] at prepares
    have run := luaApplyBatch_prepared begun prepares
    have both : ∀ r ∈ first :: rest, r.index.toNat ≤ j.applied →
        j.retains keys r = j.stores keys r := by
      intro r member old
      rw [← clear_and_stores (index_pos (recordsValid r member)) old,
        all_eq_true.mp clear r member, Bool.true_and]
    have applies := h.applyRecords numbered ((first :: rest).map fun r =>
      (r.indexText, decide (r.index.toNat ≤ j.applied)))
    by_cases retained : ((first :: rest).filter (·.index.toNat ≤ j.applied)).all (j.stores keys)
    · have allRetained : ∀ r ∈ first :: rest, r.index.toNat ≤ j.applied → j.retains keys r = true := by
        intro r member old
        rw [both r member old]
        exact all_eq_true.mp retained r (mem_filter.mpr ⟨member, decide_eq_true old⟩)
      rw [if_pos retained] at applies
      rw [reply_retained allRetained, head?_cons, Option.any_some]
      have fresh : NumberedFrom (max first.index.toNat (j.applied + 1)) (j.fresh (first :: rest)) :=
        (numbered.split j.applied).2
      by_cases none : j.fresh (first :: rest) = []
      · have old : ¬ j.applied + 1 < first.index.toNat := by
          intro beyond
          have member : first ∈ j.fresh (first :: rest) :=
            mem_filter.mpr ⟨mem_cons_self, decide_eq_true (by omega)⟩
          rw [none] at member
          cases member
        rw [none] at applies
        rw [if_neg (by simpa using old), if_pos none]
        exact ⟨fun _ => run.trans (run_bind_ok applies), fun _ same => nomatch same⟩
      · by_cases gap : j.applied + 1 < first.index.toNat
        · obtain ⟨next, later, new⟩ := exists_cons_of_ne_nil none
          rw [new] at applies fresh
          rw [Nat.max_eq_left (by omega)] at fresh
          rw [if_pos (decide_eq_true gap)]
          have stops := applies.trans (applyRecords_gap (fresh.1 ▸ gap))
          exact ⟨fun _ => run.trans (run_bind_ok stops), fun _ same => nomatch same⟩
        · rw [Nat.max_eq_right (by omega)] at fresh
          rw [if_neg (by simpa using gap), if_neg none]
          exact ⟨fun refused => absurd rfl refused, fun apart _ =>
            h.luaApplyBatch_fresh apart recordsValid fresh none begun prepares applies⟩
    · rw [if_neg retained] at applies
      obtain ⟨r, member, lost⟩ := all_eq_false.mp (Bool.eq_false_of_not_eq_true retained)
      obtain ⟨member, old⟩ := mem_filter.mp member
      rw [decide_eq_true_eq] at old
      have conflict : j.reply keys (first :: rest) = .conflict := by
        refine reply_conflict member old ?_
        rw [both r member old, Bool.eq_false_of_not_eq_true lost]
      rw [conflict]
      exact ⟨fun _ => run.trans (run_bind_ok applies), fun _ same => nomatch same⟩
  · rw [if_neg clear] at prepares
    obtain ⟨r, member, dirty⟩ := all_eq_false.mp (Bool.eq_false_of_not_eq_true clear)
    rw [Bool.not_eq_true] at dirty
    have old : r.index.toNat ≤ j.applied := by
      by_contra new
      rw [clear_of_fresh (Nat.not_le.mp new)] at dirty
      cases dirty
    have conflict : j.reply keys (first :: rest) = .conflict := by
      refine reply_conflict member old ?_
      rw [← clear_and_stores (index_pos (recordsValid r member)) old, dirty,
        Bool.false_and]
    rw [conflict]
    rw [Redis.luaApplyBatch, run_bind_ok begun]
    exact ⟨fun _ => run_bind_ok prepares, fun _ same => nomatch same⟩

/-- The answer that reconciling gives: it only looks at what is stored. -/
def Journal.forecast (j : Journal) (keys : BatchKeys) (batch : List BatchRecord) : ReceiptKind :=
  if batch.any (fun r => r.index.toNat ≤ j.applied && !j.stores keys r) then .conflict
  else if batch.head?.any (fun r => j.applied + 1 < r.index.toNat) then .gap
  else if j.fresh batch = [] then .replayed
  else .pending

theorem Journal.forecast_cons (numbered : NumberedFrom k (r :: batch)) :
    j.forecast keys (r :: batch) =
      if r.index.toNat ≤ j.applied then
        if j.stores keys r then j.forecast keys batch else .conflict
      else if r.index.toNat = j.applied + 1 then .pending else .gap := by
  have beyond : ∀ r' ∈ batch, r.index.toNat < r'.index.toNat := by
    intro r' member
    have := (numbered.2.lt member).1
    have := numbered.1
    omega
  by_cases old : r.index.toNat ≤ j.applied
  · rw [if_pos old]
    by_cases stored : j.stores keys r
    · have fresh : j.fresh (r :: batch) = j.fresh batch :=
        filter_cons_of_neg (by simpa using old)
      have head : batch.head?.any (fun r' => j.applied + 1 < r'.index.toNat) = false := by
        cases batch with
        | nil => rfl
        | cons next rest =>
          have := numbered.2.1
          have := numbered.1
          simp
          omega
      rw [if_pos stored, forecast, forecast, fresh, head, any_cons, stored,
        Bool.not_true, Bool.and_false, Bool.false_or, head?_cons, Option.any_some,
        decide_eq_false (by omega)]
    · rw [if_neg stored, forecast, if_pos]
      simp [old, stored]
  · have none : (r :: batch).any (fun r => r.index.toNat ≤ j.applied && !j.stores keys r) = false := by
      rw [any_eq_false]
      intro r' member
      have : ¬ r'.index.toNat ≤ j.applied := by
        cases mem_cons.mp member with
        | inl same => exact same ▸ old
        | inr later =>
          have := beyond r' later
          omega
      simp [this]
    have fresh : j.fresh (r :: batch) ≠ [] := by
      rw [fresh, filter_cons_of_pos (by simpa using old)]
      exact cons_ne_nil _ _
    rw [if_neg old, forecast, none, if_neg Bool.false_ne_true, if_neg fresh, head?_cons,
      Option.any_some]
    by_cases next : r.index.toNat = j.applied + 1
    · simp [next]
    · rw [if_pos (decide_eq_true (by omega)), if_neg next]

theorem Holds.reconcileRecords (h : Holds keys j j.applied s) (numbered : NumberedFrom k batch) :
    reconcileRecords keys (numeral j.applied) (batchArguments batch) s =
      .ok ⟨j.forecast keys batch, numeral j.applied⟩ s := by
  induction batch generalizing k with
  | nil => rfl
  | cons r rest ih =>
    rw [forecast_cons numbered, batchArguments_cons, Redis.reconcileRecords,
      indexText, decimalCompare_isLE]
    by_cases old : r.index.toNat ≤ j.applied
    · rw [if_pos (decide_eq_true old), if_pos old, ← indexText,
        run_bind_ok h.recordStored]
      by_cases stored : j.stores keys r
      · rw [if_neg (by simp [stored]), if_pos stored]
        exact ih numbered.2
      · rw [if_pos (by simp [stored]), if_neg stored, run_pure]
    · rw [if_neg (by simpa using old), if_neg old, decimalIncrement_numeral]
      simp only [ne_eq, numeral_inj]
      by_cases next : r.index.toNat = j.applied + 1
      · rw [if_neg (not_not.mpr next), if_pos next, run_pure]
      · rw [if_pos next, if_neg next, run_pure]

theorem Holds.luaApplyBatchReconcile (h : Holds keys j j.applied s)
    (valid : luaApplyBatchValidate request) :
    luaApplyBatchReconcile keys (batchArguments request.records) s =
      .ok ⟨j.forecast keys request.records, numeral j.applied⟩ s := by
  obtain ⟨first, rest, records, _, numbered⟩ := luaApplyBatchValidate_records valid
  rw [Redis.luaApplyBatchReconcile, run_bind_ok (h.batchBegin valid h.wellFormed.applied_lt), records]
  exact h.reconcileRecords numbered

/-- Where payloads and identities have their own keys, a record is stored as it
is or not at all. -/
theorem Journal.stores_eq_retains (h : j.WellFormed) (separate : keys.journal ≠ keys.identity)
    (r : BatchRecord) : j.stores keys r = j.retains keys r := by
  have own (old : BatchRecord) : keys.storedAs old = old.payload := if_neg separate
  rw [stores, retains, own, decide_eq_true rfl, Bool.and_true]
  cases found : j.kept r.index.toNat with
  | none => rfl
  | some old =>
    have index : old.index = r.index := by
      rw [kept] at found
      split at found
      · have := h.numbered.index found
        exact UInt64.toNat_inj.mp (by omega)
      · cases found
    cases old
    cases r
    simp_all [identity_inj, Bool.and_assoc]

/-- Reconciling foretells the answer of applying. -/
theorem Journal.forecast_eq (h : j.WellFormed) (separate : keys.journal ≠ keys.identity) :
    j.forecast keys batch =
      if j.reply keys batch = .applied then .pending else j.reply keys batch := by
  rw [forecast, reply]
  simp only [stores_eq_retains h separate]
  split_ifs <;> simp_all

end TurboDb.Redis
