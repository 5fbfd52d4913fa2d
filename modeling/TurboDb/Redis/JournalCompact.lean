import TurboDb.Redis.Journal

/-!
Compacting the journal.

A compaction removes the payloads and identities of a range that begins right
above the floor and is covered by a snapshot of an applied record. The events
stay in the outbox. The last request is kept in the metadata, so that reconciling
can tell whether it was committed.
-/

namespace TurboDb.Redis

open ByteOrder Decimal Keyspace Effect CompactRequest

namespace Journal

def compact (j : Journal) (request : CompactRequest) : Journal :=
  { j with floor := request.lastIndex.toNat, compaction := some request }

def compactReply (j : Journal) (request : CompactRequest) : ReceiptKind :=
  if j.applied < request.snapshotIndex.toNat ∨ request.firstIndex.toNat ≠ j.floor + 1 then .gap
  else if j.records[request.snapshotIndex.toNat - 1]?.any (·.term = request.snapshotTerm) then .applied
  else .conflict

def compactForecast (j : Journal) (request : CompactRequest) : ReceiptKind :=
  if j.floor = request.lastIndex.toNat then
    if j.compaction = some request then .replayed else .conflict
  else if j.compactReply request = .applied then .pending
  else j.compactReply request

end Journal

def CompactRequest.compaction (request : CompactRequest) (j : Journal) : Compaction where
  first := numeral request.firstIndex.toNat
  last := numeral request.lastIndex.toNat
  snapshotIndex := numeral request.snapshotIndex.toNat
  snapshotTerm := numeral request.snapshotTerm.toNat
  maxRecords := numeral maxRecords
  applied := numeral j.applied
  floor := numeral j.floor

def CompactRequest.range (request : CompactRequest) : List Bytes :=
  (List.range' request.firstIndex.toNat
    (request.lastIndex.toNat + 1 - request.firstIndex.toNat)).map numeral

theorem decimalCompare_isLT {m n : Nat} :
    (decimalCompare (numeral m) (numeral n)).isLT = decide (m < n) := by
  rw [decimalCompare_numeral, Bool.eq_iff_iff, decide_eq_true_eq, Ordering.isLT_iff_eq_lt,
    compare_lt_iff_lt]

variable {floor : Bytes} {fields : List Bytes} {name : Bytes}

section Compact

variable {keys : BatchKeys} {j : Journal} {s : Keys} {request : CompactRequest}
variable {n : Nat}

theorem luaApplyBatchCompactValidate_bounds (valid : luaApplyBatchCompactValidate request) :
    0 < request.firstIndex.toNat ∧ request.firstIndex.toNat ≤ request.lastIndex.toNat ∧
      request.lastIndex.toNat ≤ request.snapshotIndex.toNat ∧
      request.lastIndex.toNat - request.firstIndex.toNat < maxRecords ∧ request.snapshotTerm ≠ 0 := by
  simp only [luaApplyBatchCompactValidate, Bool.and_eq_true, decide_eq_true_eq] at valid
  obtain ⟨⟨⟨⟨⟨⟨first, le⟩, count⟩, _⟩, term⟩, snapshot⟩, _⟩ := valid
  rw [UInt64.toNat_sub_of_le _ _ le] at count
  exact ⟨Nat.pos_of_ne_zero fun zero => first (UInt64.toNat_inj.mp zero), le, snapshot, count, term⟩

theorem Holds.compactBegin (h : Holds keys j j.applied s)
    (valid : luaApplyBatchCompactValidate request) :
    compactBegin keys request.arguments s = .ok (.ok (request.compaction j)) s := by
  obtain ⟨positive, le, snapshot, _, term⟩ := luaApplyBatchCompactValidate_bounds valid
  have nonzero {x : UInt64} (ne : x ≠ 0) : (numeral x.toNat = ascii "0") = False :=
    eq_false (numeral_toNat_ne_zero ne)
  have first : request.firstIndex ≠ 0 := by
    rintro zero
    rw [zero] at positive
    cases positive
  have index : request.snapshotIndex ≠ 0 := by
    rintro zero
    rw [zero] at snapshot
    have : request.lastIndex.toNat ≤ 0 := snapshot
    omega
  have range (x : UInt64) : validU64 (numeral x.toNat) := validU64_numeral.mpr x.toNat_lt
  have records : validU64 (numeral maxRecords) := validU64_numeral.mpr (by decide)
  have some : numeral maxRecords ≠ ascii "0" := by decide
  have floor : j.floor < 2 ^ 64 := Nat.lt_of_le_of_lt h.wellFormed.floor_le h.wellFormed.applied_lt
  rw [arguments, Redis.compactBegin, if_neg, run_bind_ok h.keysTyped]
  · simp only [Bool.not_true, Bool.false_eq_true, if_false]
    rw [run_bind_ok (metadataNumber_run h h.appliedIndex), run_bind_ok (metadataNumber_run h h.floor),
      validU64_numeral.mpr floor, validU64_numeral.mpr h.wellFormed.applied_lt]
    rfl
  · simp [range, nonzero first, nonzero index, nonzero term, records, some, decimalCompare_isLT]
    omega

theorem CompactRequest.follows_iff :
    (request.compaction j).follows ↔
      ¬ (j.applied < request.snapshotIndex.toNat ∨ request.firstIndex.toNat ≠ j.floor + 1) := by
  have last : maxU64 = numeral (2 ^ 64 - 1) := maxU64_eq
  have bound := request.firstIndex.toNat_lt
  simp only [Compaction.follows, compaction, decimalCompare_isLT, last,
    decimalIncrement_numeral, numeral_inj, Bool.and_eq_true, Bool.not_eq_true', decide_eq_false_iff_not,
    decide_eq_true_eq, ne_eq]
  omega

theorem take_identity {old : BatchRecord} {t : Nat} :
    old.identity.take (numeral t ++ [0]).length = numeral t ++ [0] ↔ old.term.toNat = t := by
  constructor
  · intro begins
    have whole := List.take_append_drop (numeral t ++ [0]).length old.identity
    rw [begins, List.append_assoc, List.singleton_append] at whole
    exact (numeral_append_zero_inj.mp whole).1.symm
  · rintro rfl
    have same : old.identity = numeral old.term.toNat ++ [0] ++ old.commandId := by
      rw [List.append_assoc]
      rfl
    rw [same, List.take_left]

theorem Journal.kept_above (above : j.floor < n) : j.kept n = j.records[n - 1]? :=
  if_pos above

theorem Journal.exists_kept (above : j.floor < n) (le : n ≤ j.applied) :
    ∃ r, j.kept n = some r := by
  rw [Journal.applied] at le
  rw [Journal.kept_above above]
  exact ⟨_, List.getElem?_eq_getElem (by omega)⟩

section H

variable (h : Holds keys j j.applied s)
include h

theorem Holds.snapshotMatches (above : j.floor < request.snapshotIndex.toNat) :
    snapshotMatches keys (request.compaction j) s =
      .ok (j.records[request.snapshotIndex.toNat - 1]?.any (·.term = request.snapshotTerm)) s := by
  have found : s.field keys.identity (request.compaction j).snapshotIndex = _ :=
    h.identities request.snapshotIndex.toNat
  rw [Journal.kept_above above] at found
  refine (run_bind_ok (hget_run h.identity)).trans ?_
  rw [found]
  cases record : j.records[request.snapshotIndex.toNat - 1]? with
  | none => rfl
  | some old =>
    have valid := h.wellFormed.valid old (List.mem_of_getElem? record)
    simp only [BatchRecord.valid, Bool.and_eq_true, decide_eq_true_eq] at valid
    have nonempty := List.length_pos_iff.mpr valid.2
    rw [Option.map_some, Option.any_some]
    change EStateM.Result.ok _ _ = _
    congr 1
    change (decide ((numeral request.snapshotTerm.toNat ++ [0]).length < old.identity.length) &&
      decide (old.identity.take (numeral request.snapshotTerm.toNat ++ [0]).length =
        numeral request.snapshotTerm.toNat ++ [0])) = _
    rw [Bool.eq_iff_iff, Bool.and_eq_true, decide_eq_true_eq, decide_eq_true_eq, decide_eq_true_eq,
      take_identity, UInt64.toNat_inj]
    refine ⟨fun both => both.2, fun same => ⟨?_, same⟩⟩
    rw [BatchRecord.identity, identityText, BatchRecord.termText, same]
    simp only [List.length_append, List.length_cons, List.length_nil]
    omega

theorem Holds.compactTurn {n last : Nat} {next : Script (Except Receipt (List Bytes))}
    (above : j.floor < n) (le : n ≤ j.applied) :
    compactTurn keys (numeral last) floor (numeral n) fields next s =
      if n = last then .ok (.ok (fields ++ [numeral n])) s else next s := by
  obtain ⟨r, kept⟩ := Journal.exists_kept above le
  rw [Redis.compactTurn, run_bind_ok (hget_run h.journal), run_bind_ok (hget_run h.identity),
    h.payloads, h.identities, kept, if_neg (by simp)]
  simp only [numeral_inj]
  split <;> rfl

theorem Holds.compactWalk {first last remaining : Nat} (above : j.floor < first) (le : first ≤ last)
    (applied : last ≤ j.applied) (enough : last - first ≤ remaining) :
    compactWalk keys (numeral last) floor remaining (numeral first) fields s =
      .ok (.ok (fields ++ (List.range' first (last + 1 - first)).map numeral)) s := by
  have only : last + 1 - last = 1 := by omega
  induction remaining generalizing first fields with
  | zero =>
    have same : first = last := by omega
    rw [Redis.compactWalk, h.compactTurn above (by omega), if_pos same, same, only]
    rfl
  | succ remaining ih =>
    rw [Redis.compactWalk, h.compactTurn above (by omega)]
    by_cases same : first = last
    · rw [if_pos same, same, only]
      rfl
    · have bound := h.wellFormed.applied_lt
      have count : last + 1 - first = last + 1 - (first + 1) + 1 := by omega
      rw [if_neg same, decimalIncrement_numeral, validU64_numeral.mpr (by omega), if_neg (by simp),
        ih (by omega) (by omega) (by omega), count, List.range'_succ]
      simp

theorem Holds.compactCheck (valid : luaApplyBatchCompactValidate request) :
    compactCheck keys (request.compaction j) s =
      .ok (if j.compactReply request = .applied then .ok request.range
        else .error ⟨j.compactReply request, numeral j.floor⟩) s := by
  obtain ⟨positive, le, snapshot, count, _⟩ := luaApplyBatchCompactValidate_bounds valid
  by_cases follows : (request.compaction j).follows
  · have ends := follows_iff.mp follows
    rw [not_or, not_not] at ends
    have reply : j.compactReply request =
        if j.records[request.snapshotIndex.toNat - 1]?.any (·.term = request.snapshotTerm) then .applied
        else .conflict := by
      rw [Journal.compactReply, if_neg (follows_iff.mp follows)]
    rw [Redis.compactCheck, follows, if_neg (by simp),
      run_bind_ok (h.snapshotMatches (by omega)), reply]
    by_cases covered :
        j.records[request.snapshotIndex.toNat - 1]?.any (·.term = request.snapshotTerm) = true
    · rw [covered, if_neg (by simp), if_pos rfl, if_pos rfl]
      have above : j.floor < request.firstIndex.toNat := by omega
      have records : value (numeral maxRecords) - 1 = maxRecords - 1 := by rw [value_numeral]
      change Redis.compactWalk keys _ (numeral j.floor) (value (numeral maxRecords) - 1) _ [] s = _
      exact h.compactWalk above le (by omega) (by omega)
    · rw [Bool.eq_false_of_not_eq_true covered]
      rfl
  · have ends := (not_congr follows_iff).mp follows
    rw [not_not] at ends
    have reply : j.compactReply request = .gap := by rw [Journal.compactReply, if_pos ends]
    rw [Redis.compactCheck, Bool.eq_false_of_not_eq_true follows, if_pos Bool.not_false, reply]
    rfl

end H

theorem CompactRequest.mem_range : numeral n ∈ request.range ↔
      request.firstIndex.toNat ≤ n ∧ n ≤ request.lastIndex.toNat := by
  rw [range, List.mem_map_of_injective numeral_injective, List.mem_range'_1]
  omega

theorem CompactRequest.not_mem_range (named : name.head?.all (!isDigit ·) = true) :
    name ∉ request.range := by
  intro member
  obtain ⟨n, _, same⟩ := List.mem_map.mp member
  exact numeral_ne named same

theorem Journal.kept_compact (first : request.firstIndex.toNat = j.floor + 1)
    (le : request.firstIndex.toNat ≤ request.lastIndex.toNat) :
    (j.compact request).kept n = if numeral n ∈ request.range then none else j.kept n := by
  simp only [mem_range, Journal.kept]
  change (if request.lastIndex.toNat < n then j.records[n - 1]? else none) = _
  by_cases above : request.lastIndex.toNat < n
  · rw [if_pos above, if_neg (by omega), if_pos (by omega)]
  · by_cases inside : request.firstIndex.toNat ≤ n
    · rw [if_neg above, if_pos (by omega)]
    · rw [if_neg above, if_neg (by omega), if_neg (by omega)]

def CompactRequest.written (request : CompactRequest) (keys : BatchKeys) (s : Keys) : Keys :=
  [(ascii "journal_floor", numeral request.lastIndex.toNat),
    (ascii "journal_compaction_first_index", numeral request.firstIndex.toNat),
    (ascii "journal_compaction_snapshot_index", numeral request.snapshotIndex.toNat),
    (ascii "journal_compaction_snapshot_term", numeral request.snapshotTerm.toNat)].foldl
      (fun s pair => s.put keys.metadata pair.1 pair.2)
      ((s.cut keys.journal request.range).cut keys.identity request.range)

theorem CompactRequest.field_written_numeral {key : Bytes}
    (records : key = keys.journal ∨ key = keys.identity) :
    (request.written keys s).field key (numeral n) =
      if numeral n ∈ request.range then none else s.field key (numeral n) := by
  rw [CompactRequest.written, field_puts_numeral rfl, field_cut, field_cut]
  by_cases inside : numeral n ∈ request.range
  · rcases records with same | same <;> simp [inside, same]
  · simp [inside]

theorem CompactRequest.field_written (named : name.head?.all (!isDigit ·) = true) :
    (request.written keys s).field keys.metadata name =
      ([(ascii "journal_floor", numeral request.lastIndex.toNat),
        (ascii "journal_compaction_first_index", numeral request.firstIndex.toNat),
        (ascii "journal_compaction_snapshot_index", numeral request.snapshotIndex.toNat),
        (ascii "journal_compaction_snapshot_term", numeral request.snapshotTerm.toNat)].reverse.lookup
          name).or (s.field keys.metadata name) := by
  have outside : name ∉ request.range := not_mem_range named
  rw [CompactRequest.written, field_puts, if_pos rfl, field_cut, if_neg (fun both => outside both.2),
    field_cut, if_neg (fun both => outside both.2)]

theorem Holds.compact (h : Holds keys j j.applied s) (apart : keys.apart)
    (own : request.keys = keys) (valid : luaApplyBatchCompactValidate request)
    (first : request.firstIndex.toNat = j.floor + 1)
    (applied : request.snapshotIndex.toNat ≤ j.applied) :
    Holds keys (j.compact request) j.applied (request.written keys s) := by
  obtain ⟨positive, le, snapshot, _, _⟩ := luaApplyBatchCompactValidate_bounds valid
  simp only [BatchKeys.apart, Bool.and_eq_true, decide_eq_true_eq] at apart
  obtain ⟨⟨ofMetadata, ofJournal⟩, ofIdentity⟩ := apart
  have typed {key : Bytes} (h : (s.fields key).isSome = true) :
      ((request.written keys s).fields key).isSome = true :=
    isSome_fields_puts (isSome_fields_cut (isSome_fields_cut h))
  refine ⟨⟨h.wellFormed.numbered, h.wellFormed.valid, snapshot.trans applied⟩, typed h.metadata,
    typed h.journal, typed h.identity, ?_, ?_, ?_, ?_, ?_, ?_, fun n => ?_, fun n => ?_, ?_, ?_⟩
  · rw [CompactRequest.written, stream_puts ofMetadata, stream_cut ofIdentity, stream_cut ofJournal]
    exact h.outbox
  · rw [CompactRequest.field_written (by decide)]
    exact h.appliedIndex
  · rw [CompactRequest.field_written (by decide), storedNumber, if_neg]
    · rfl
    · exact Nat.ne_of_gt (positive.trans_le le)
  · rw [CompactRequest.field_written (by decide)]
    rfl
  · rw [CompactRequest.field_written (by decide)]
    rfl
  · rw [CompactRequest.field_written (by decide)]
    rfl
  · rw [field_written_numeral (.inl rfl), h.payloads, Journal.kept_compact first le]
    split <;> rfl
  · rw [field_written_numeral (.inr rfl), h.identities, Journal.kept_compact first le]
    split <;> rfl
  · intro key name records ne found
    rw [CompactRequest.written, field_puts, if_neg ne, field_cut, field_cut] at found
    refine h.names key name records ne ?_
    split at found
    · cases found
    · split at found
      · cases found
      · exact found
  · rintro c ⟨rfl⟩
    exact ⟨own, rfl⟩

section H

variable (h : Holds keys j j.applied s) (own : request.keys = keys)
include h own

theorem Holds.luaApplyBatchCompact (valid : luaApplyBatchCompactValidate request) :
    (j.compactReply request ≠ .applied →
      luaApplyBatchCompact keys request.arguments s =
        .ok ⟨j.compactReply request, numeral j.floor⟩ s) ∧
    (keys.apart → j.compactReply request = .applied →
      ∃ s', luaApplyBatchCompact keys request.arguments s =
          .ok ⟨.applied, numeral request.lastIndex.toNat⟩ s' ∧
        Holds keys (j.compact request) j.applied s') := by
  have check := h.compactCheck valid
  rw [Redis.luaApplyBatchCompact, run_bind_ok (h.compactBegin valid)]
  constructor
  · intro refused
    rw [if_neg refused] at check
    exact run_bind_ok check
  · intro apart reply
    rw [if_pos reply] at check
    rw [Journal.compactReply] at reply
    split at reply
    · cases reply
    · rename_i follows
      rw [not_or, not_not, Nat.not_lt] at follows
      refine ⟨_, ?_, h.compact apart own valid follows.2 follows.1⟩
      refine (run_bind_ok check).trans ?_
      exact (run_bind_ok (hdel_run h.journal)).trans
        ((run_bind_ok (hdel_run (isSome_fields_cut h.identity))).trans
          (run_bind_ok (hset_run (isSome_fields_cut (isSome_fields_cut h.metadata)))))

theorem Holds.compaction_iff (ended : j.floor = request.lastIndex.toNat) :
    (j.compaction.map (fun c => numeral c.firstIndex.toNat) = some (numeral request.firstIndex.toNat) ∧
      j.compaction.map (fun c => numeral c.snapshotIndex.toNat) =
        some (numeral request.snapshotIndex.toNat)) ∧
      j.compaction.map (fun c => numeral c.snapshotTerm.toNat) =
        some (numeral request.snapshotTerm.toNat) ↔ j.compaction = some request := by
  cases last : j.compaction with
  | none => simp
  | some c =>
    obtain ⟨ofKeys, floor⟩ := h.compacted c last
    have lastIndex : c.lastIndex = request.lastIndex := UInt64.toNat_inj.mp (floor.trans ended)
    simp only [Option.map_some, Option.some.injEq, numeral_inj, UInt64.toNat_inj]
    cases c
    cases request
    simp_all [and_assoc]

theorem Holds.luaApplyBatchCompactReconcile (valid : luaApplyBatchCompactValidate request) :
    luaApplyBatchCompactReconcile keys request.arguments s =
      .ok ⟨j.compactForecast request, numeral j.floor⟩ s := by
  rw [Redis.luaApplyBatchCompactReconcile, run_bind_ok (h.compactBegin valid)]
  refine (run_bind_ok (hget_run h.metadata)).trans ?_
  refine (run_bind_ok (hget_run h.metadata)).trans ?_
  refine (run_bind_ok (hget_run h.metadata)).trans ?_
  rw [h.first, h.snapshotIndex, h.snapshotTerm]
  have floor : ((request.compaction j).floor = (request.compaction j).last) =
      (j.floor = request.lastIndex.toNat) := propext numeral_inj
  simp only [floor, Journal.compactForecast]
  by_cases ended : j.floor = request.lastIndex.toNat
  · rw [if_pos ended, if_pos ended]
    have same := h.compaction_iff own ended
    by_cases last : j.compaction = some request
    · rw [if_pos last, if_pos (by simpa [compaction, ← and_assoc] using same.mpr last)]
      have text : (request.compaction j).last = numeral j.floor := congrArg numeral ended.symm
      rw [run_pure, text]
    · rw [if_neg last, if_neg]
      · rfl
      · intro found
        exact last (same.mp (by simpa [compaction, ← and_assoc] using found))
  · rw [if_neg ended, if_neg ended]
    refine (run_bind_ok (h.compactCheck valid)).trans ?_
    by_cases reply : j.compactReply request = .applied
    · rw [if_pos reply, if_pos reply]
      rfl
    · rw [if_neg reply, if_neg reply]
      rfl

end H

theorem Journal.compactForecast_pending (valid : luaApplyBatchCompactValidate request) :
    j.compactForecast request = .pending ↔ j.compactReply request = .applied := by
  obtain ⟨_, le, _⟩ := luaApplyBatchCompactValidate_bounds valid
  rw [Journal.compactForecast]
  by_cases ended : j.floor = request.lastIndex.toNat
  · have reply : j.compactReply request = .gap := by
      rw [Journal.compactReply, if_pos (.inr (by omega))]
    rw [if_pos ended, reply]
    split <;> simp
  · rw [if_neg ended]
    by_cases reply : j.compactReply request = .applied
    · simp [reply]
    · rw [if_neg reply]
      refine iff_of_false ?_ reply
      rw [Journal.compactReply]
      split_ifs <;> simp

theorem Holds.compactForecast_replayed (h : Holds keys j j.applied s) :
    j.compactForecast request = .replayed ↔ j.compaction = some request := by
  rw [Journal.compactForecast]
  by_cases last : j.compaction = some request
  · rw [if_pos (h.compacted request last).2.symm, if_pos last]
    exact iff_of_true rfl last
  · rw [if_neg last, Journal.compactReply]
    refine iff_of_false ?_ last
    split_ifs <;> simp

end Compact

end TurboDb.Redis
