import TurboDb.Redis.History

/-!
What a history of batches and compactions retains.

The payloads and identities of the indexes above the floor and up to the applied
index are kept and no others, the floor only rises, and reconciling a compaction
tells whether it is still to be done or was the last one done. A metadata key
shared with either puts its names among the indexes.
-/

namespace TurboDb.Redis

open ByteOrder Decimal Keyspace Effect

/-- The outbox and the metadata have keys of their own. -/
def BatchKeys.exclusive (keys : BatchKeys) : Bool :=
  keys.apart && keys.metadata ≠ keys.journal && keys.metadata ≠ keys.identity

/-- The hashes hold the indexes above the floor and up to the applied one. -/
structure Retained (keys : BatchKeys) (floor applied : Nat) (s : Keys) : Prop where
  appliedIndex : (s.field keys.metadata (ascii "applied_index")).getD (ascii "0") = numeral applied
  journalFloor : (s.field keys.metadata (ascii "journal_floor")).getD (ascii "0") = numeral floor
  floor_le : floor ≤ applied
  payloads : ∀ name, (s.field keys.journal name).isSome = true ↔
    ∃ n, floor < n ∧ n ≤ applied ∧ name = numeral n
  identities : ∀ name, (s.field keys.identity name).isSome = true ↔
    ∃ n, floor < n ∧ n ≤ applied ∧ name = numeral n

/-- What a compaction and reconciling it do after a history. -/
structure Compacts (keys : BatchKeys) (c : Course) (request : CompactRequest) : Prop where
  refused : (∀ text s, luaApplyBatchCompact keys request.arguments c.keyspace ≠ .ok ⟨.applied, text⟩ s) →
    (c.step keys (.compact request)).keyspace = c.keyspace
  pending : (∃ text s, luaApplyBatchCompactReconcile keys request.arguments c.keyspace =
      .ok ⟨.pending, text⟩ s) ↔
    ∃ text s, luaApplyBatchCompact keys request.arguments c.keyspace = .ok ⟨.applied, text⟩ s
  replayed : (∃ text s, luaApplyBatchCompactReconcile keys request.arguments c.keyspace =
      .ok ⟨.replayed, text⟩ s) ↔ c.compaction = some request

/-- A history keeps what is above the floor, and goes on so whatever follows. -/
structure Retains (keys : BatchKeys) (c : Course) : Prop where
  retained : ∃ floor applied, Retained keys floor applied c.keyspace ∧
    ∀ later : List BatchOp, (∀ op ∈ later, op.valid keys = true) →
      ∃ floor' applied', Retained keys floor' applied' (c.run keys later).keyspace ∧
        floor ≤ floor' ∧ applied ≤ applied' ∧
        ∀ n ≤ floor, (c.run keys later).keyspace.field keys.journal (numeral n) = none ∧
          (c.run keys later).keyspace.field keys.identity (numeral n) = none
  compacts : ∀ request, (BatchOp.compact request).valid keys = true → Compacts keys c request

section Retention

variable {keys : BatchKeys} {j : Journal} {c : Course} {s : Keys}

theorem Journal.isSome_kept {n : Nat} :
    (j.kept n).isSome ↔ j.floor < n ∧ n ≤ j.applied := by
  by_cases above : j.floor < n
  · rw [Journal.kept_above above, Journal.applied, Option.isSome_iff_ne_none, ne_eq,
      List.getElem?_eq_none_iff]
    omega
  · rw [Journal.kept, if_neg above]
    simp [above]

theorem Holds.retained (h : Holds keys j j.applied s) (exclusive : keys.exclusive) :
    Retained keys j.floor j.applied s := by
  simp only [BatchKeys.exclusive, Bool.and_eq_true, decide_eq_true_eq] at exclusive
  obtain ⟨⟨_, ofJournal⟩, ofIdentity⟩ := exclusive
  refine ⟨?_, ?_, h.wellFormed.floor_le, fun name => ⟨fun found => ?_, ?_⟩,
    fun name => ⟨fun found => ?_, ?_⟩⟩
  · rw [h.appliedIndex, storedNumber_getD]
  · rw [h.floor, storedNumber_getD]
  · obtain ⟨n, rfl⟩ := h.names _ name (.inl rfl) ofJournal.symm found
    rw [h.payloads, Option.isSome_map, Journal.isSome_kept] at found
    exact ⟨n, found.1, found.2, rfl⟩
  · rintro ⟨n, above, le, rfl⟩
    rw [h.payloads, Option.isSome_map, Journal.isSome_kept]
    exact ⟨above, le⟩
  · obtain ⟨n, rfl⟩ := h.names _ name (.inr rfl) ofIdentity.symm found
    rw [h.identities, Option.isSome_map, Journal.isSome_kept] at found
    exact ⟨n, found.1, found.2, rfl⟩
  · rintro ⟨n, above, le, rfl⟩
    rw [h.identities, Option.isSome_map, Journal.isSome_kept]
    exact ⟨above, le⟩

theorem Course.Holds.compacts (h : Course.Holds keys j c) (apart : keys.apart)
    {request : CompactRequest} (valid : (BatchOp.compact request).valid keys) :
    Compacts keys c request := by
  simp only [BatchOp.valid, Bool.and_eq_true, decide_eq_true_eq] at valid
  obtain ⟨own, valid⟩ := valid
  obtain ⟨refused, applied⟩ := h.keyspace.luaApplyBatchCompact own valid
  have reconciles := h.keyspace.luaApplyBatchCompactReconcile own valid
  have applies : (∃ text s, luaApplyBatchCompact keys request.arguments c.keyspace =
      .ok ⟨.applied, text⟩ s) ↔ j.compactReply request = .applied := by
    constructor
    · rintro ⟨text, s, run⟩
      by_contra other
      rw [refused other] at run
      exact other (congrArg Receipt.kind (EStateM.Result.ok.inj run).1)
    · intro reply
      obtain ⟨s', run, _⟩ := applied apart reply
      exact ⟨_, _, run⟩
  have foretells {kind : ReceiptKind} :
      (∃ text s, luaApplyBatchCompactReconcile keys request.arguments c.keyspace = .ok ⟨kind, text⟩ s) ↔
        j.compactForecast request = kind := by
    rw [reconciles]
    constructor
    · rintro ⟨text, s, run⟩
      exact congrArg Receipt.kind (EStateM.Result.ok.inj run).1
    · rintro rfl
      exact ⟨_, _, rfl⟩
  refine ⟨fun never => ?_, ?_, ?_⟩
  · have other : j.compactReply request ≠ .applied := by
      intro reply
      obtain ⟨text, s, run⟩ := applies.mpr reply
      exact never text s run
    rw [Course.step_ok (.compact request) (refused other)]
  · rw [foretells, applies, Journal.compactForecast_pending valid]
  · rw [foretells, h.keyspace.compactForecast_replayed, h.compaction]

theorem Course.Holds.retains (h : Course.Holds keys j c) (exclusive : keys.exclusive) :
    Retains keys c := by
  have apart : keys.apart := by
    simp only [BatchKeys.exclusive, Bool.and_eq_true] at exclusive
    exact exclusive.1.1
  refine ⟨⟨j.floor, j.applied, h.keyspace.retained exclusive, fun later valid => ?_⟩,
    fun request valid => h.compacts apart valid⟩
  obtain ⟨j', holds, floor, records⟩ := h.run apart valid
  have none {n : Nat} (le : n ≤ j.floor) : j'.kept n = none := by
    rw [Journal.kept, if_neg (by omega)]
  refine ⟨j'.floor, j'.applied, holds.keyspace.retained exclusive, floor, records.length_le,
    fun n le => ⟨?_, ?_⟩⟩
  · rw [holds.keyspace.payloads, none le]
    rfl
  · rw [holds.keyspace.identities, none le]
    rfl

theorem BatchKeys.Missing.not_retains (missing : keys.Missing s) (tagged : keys.tagged)
    (shared : keys.apart = false) :
    ¬ Retains keys (Course.run keys ⟨s, none⟩ [.apply (firstRequest keys)]) := by
  obtain ⟨fault, s', fails, stored, unapplied⟩ := missing.fault tagged shared
  have step : Course.run keys ⟨s, none⟩ [.apply (firstRequest keys)] = ⟨s', none⟩ := by
    rw [Course.run, List.foldl_cons, List.foldl_nil, Course.step, BatchOp.script, fails]
  rw [step]
  rintro ⟨⟨floor, applied, retained, _⟩, _⟩
  obtain ⟨n, above, le, _⟩ := (retained.payloads _).mp stored
  have zero := retained.appliedIndex
  rw [unapplied] at zero
  have : 0 = applied := numeral_inj.mp zero
  omega

/-- Histories keep what is above the floor exactly when the outbox and the
metadata have keys of their own. -/
theorem history_retains_iff (tagged : keys.tagged = true) :
    (∀ s, keys.Missing s → ∀ ops : List BatchOp, (∀ op ∈ ops, op.valid keys = true) →
      Retains keys (Course.run keys ⟨s, none⟩ ops)) ↔ keys.exclusive = true := by
  constructor
  · intro retains
    have missing : keys.Missing fun _ => none := ⟨rfl, rfl, rfl, rfl⟩
    have first := retains _ missing [.apply (firstRequest keys)] (BatchOp.first_valid tagged)
    by_cases apart : keys.apart
    · have holds := (missing.course_first tagged apart).keyspace
      obtain ⟨⟨floor, applied, retained, _⟩, _⟩ := first
      rw [BatchKeys.exclusive, apart, Bool.true_and, Bool.and_eq_true, decide_eq_true_eq,
        decide_eq_true_eq]
      -- Where the metadata shares a key, the applied index stands among the indexes.
      constructor
      · intro same
        obtain ⟨n, _, _, name⟩ := (retained.payloads (ascii "applied_index")).mp
          (same ▸ holds.appliedIndex ▸ rfl)
        exact numeral_ne (by decide) name.symm
      · intro same
        obtain ⟨n, _, _, name⟩ := (retained.identities (ascii "applied_index")).mp
          (same ▸ holds.appliedIndex ▸ rfl)
        exact numeral_ne (by decide) name.symm
    · exact absurd first (missing.not_retains tagged (Bool.eq_false_of_not_eq_true apart))
  · intro exclusive s missing ops valid
    have apart : keys.apart = true := by
      simp only [BatchKeys.exclusive, Bool.and_eq_true] at exclusive
      exact exclusive.1.1
    obtain ⟨j, holds, _⟩ := missing.course.run apart valid
    exact holds.retains exclusive

theorem history_retains_iff_orders : ordersKeys.tagged = true ∧
    ((∀ s, ordersKeys.Missing s → ∀ ops : List BatchOp, (∀ op ∈ ops, op.valid ordersKeys = true) →
      Retains ordersKeys (Course.run ordersKeys ⟨s, none⟩ ops)) ↔ ordersKeys.exclusive = true) :=
  ⟨by decide, history_retains_iff (by decide)⟩

theorem not_retains_shared : luaApplyBatchValidate (firstRequest sharedKeys) = true ∧
    ¬ Retains sharedKeys
      (Course.run sharedKeys ⟨fun _ => none, none⟩ [.apply (firstRequest sharedKeys)]) := by
  have missing : sharedKeys.Missing fun _ => none := ⟨rfl, rfl, rfl, rfl⟩
  exact ⟨firstRequest_valid (by decide), missing.not_retains (by decide) (by decide)⟩

end Retention

end TurboDb.Redis
