import TurboDb.Redis.Script

/-!
The script that applies one command.

It compares the requested index with the applied one and, when it is next,
writes a field of the state, the metadata and an event of the outbox, in this
order. Nothing before the first write looks at the outbox: where the event cannot
be added, the index counts as applied without one.
-/

namespace TurboDb.Redis

open ByteOrder Decimal Keyspace Effect List

structure ApplyKeys where
  metadata : Bytes
  state : Bytes
  outbox : Bytes
  deriving DecidableEq

structure ApplyRequest where
  keys : ApplyKeys
  index : UInt64
  term : UInt64
  commandId : Bytes
  field : Bytes
  value : Bytes
  deriving DecidableEq

def ApplyKeys.tagged (keys : ApplyKeys) : Bool :=
  match luaApplyTag keys.metadata, luaApplyTag keys.state, luaApplyTag keys.outbox with
  | some metadata, some state, some outbox => metadata = state && metadata = outbox
  | _, _, _ => false

def luaApplyValidate (request : ApplyRequest) : Bool :=
  request.index ≠ 0 && request.term ≠ 0 && request.commandId ≠ [] && request.field ≠ [] &&
    request.keys.tagged

section Script

variable (keys : ApplyKeys)

def luaApplyCheck (requested term commandId : Bytes) : Script (Except Receipt Unit) := do
  let applied := (← hget keys.metadata (ascii "applied_index")).getD (ascii "0")
  reject (canonical applied = false) (.script "invalid applied_index metadata")
  match decimalCompare requested applied with
  | .lt => return .error ⟨.gap, applied⟩
  | .eq => do
    let appliedTerm ← hget keys.metadata (ascii "term")
    let appliedCommandId ← hget keys.metadata (ascii "command_id")
    if appliedTerm ≠ some term ∨ appliedCommandId ≠ some commandId then
      return .error ⟨.conflict, applied⟩
    return .error ⟨.replayed, applied⟩
  | .gt =>
    if requested ≠ decimalIncrement applied then return .error ⟨.gap, applied⟩
    return .ok ()

def applyMetadata (requested term commandId : Bytes) : List (Bytes × Bytes) :=
  [(ascii "applied_index", requested), (ascii "term", term), (ascii "command_id", commandId)]

def applyEvent (requested term commandId field value : Bytes) : List Bytes :=
  [ascii "index", requested, ascii "term", term, ascii "command_id", commandId, ascii "field", field,
    ascii "value", value]

/-- The script, at the time that its event is added. -/
def luaApply (now : UInt64) (requested term commandId field value : Bytes) : Script Receipt := do
  match ← luaApplyCheck keys requested term commandId with
  | .error refused => return refused
  | .ok () => do
    hset keys.state [(field, value)]
    hset keys.metadata (applyMetadata requested term commandId)
    xaddNow keys.outbox now.toNat (applyEvent requested term commandId field value)
    return ⟨.applied, requested⟩

end Script

namespace ApplyRequest

def indexText (request : ApplyRequest) : Bytes := numeral request.index.toNat

def termText (request : ApplyRequest) : Bytes := numeral request.term.toNat

def run (request : ApplyRequest) (now : UInt64) : Script Receipt :=
  luaApply request.keys now request.indexText request.termText request.commandId request.field
    request.value

def metadata (request : ApplyRequest) : List (Bytes × Bytes) :=
  applyMetadata request.indexText request.termText request.commandId

def event (request : ApplyRequest) : List Bytes :=
  applyEvent request.indexText request.termText request.commandId request.field request.value

/-- The requested index follows the applied one. -/
def next (request : ApplyRequest) (s : Keys) : Bool :=
  (s.fields request.keys.metadata).isSome &&
    (s.field request.keys.metadata (ascii "applied_index")).getD (ascii "0") =
      numeral (request.index.toNat - 1)

/-- The request is next and the state can be written. -/
def due (request : ApplyRequest) (s : Keys) : Bool :=
  request.next s && (s.fields request.keys.state).isSome

def room (request : ApplyRequest) (s : Keys) : Bool :=
  request.keys.outbox ≠ request.keys.metadata && request.keys.outbox ≠ request.keys.state &&
    (s.stream request.keys.outbox).any fun stream => stream.last ≠ toLex (2 ^ 64 - 1, 2 ^ 64 - 1)

/-- The metadata leaves the field of the state as it is. -/
def kept (request : ApplyRequest) : Bool :=
  request.keys.state ≠ request.keys.metadata ||
    (request.metadata.reverse.lookup request.field).all (· = request.value)

structure Effects (request : ApplyRequest) (s s' : Keys) : Prop where
  state : s'.field request.keys.state request.field = some request.value
  metadata : ∀ pair ∈ request.metadata, s'.field request.keys.metadata pair.1 = some pair.2
  outbox : ∃ stream stream', s.stream request.keys.outbox = some stream ∧
    s'.stream request.keys.outbox = some stream' ∧
    ∃ id, stream'.events = stream.events ++ [⟨id, request.event⟩]

/-- One run has all three effects or changes nothing. -/
def Atomic (request : ApplyRequest) (now : UInt64) (s : Keys) : Prop :=
  request.Effects s (final (request.run now s)) ∨ final (request.run now s) = s

end ApplyRequest

open ApplyRequest

variable {request : ApplyRequest} {now : UInt64} {s : Keys}

theorem luaApplyCheck_next (positive : 0 < request.index.toNat) (next : request.next s) :
    luaApplyCheck request.keys request.indexText request.termText request.commandId s =
      .ok (.ok ()) s := by
  simp only [ApplyRequest.next, Bool.and_eq_true, decide_eq_true_eq] at next
  obtain ⟨hash, applied⟩ := next
  have later : decimalCompare request.indexText (numeral (request.index.toNat - 1)) = .gt := by
    rw [ApplyRequest.indexText, decimalCompare_numeral, compare_gt_iff_gt]
    omega
  have follows : ¬ request.indexText ≠ decimalIncrement (numeral (request.index.toNat - 1)) := by
    rw [decimalIncrement_numeral, Nat.sub_add_cancel positive, not_not, ApplyRequest.indexText]
  rw [luaApplyCheck, run_bind_ok (hget_run hash), applied,
    run_bind_ok (run_reject (by simp [canonical_numeral])), later]
  exact congrFun (if_neg follows) s

theorem luaApplyCheck_other (positive : 0 < request.index.toNat) (other : request.next s = false) :
    (∃ refused, luaApplyCheck request.keys request.indexText request.termText request.commandId s =
      .ok (.error refused) s) ∨
    ∃ fault, luaApplyCheck request.keys request.indexText request.termText request.commandId s =
      .error fault s := by
  cases hash : s.fields request.keys.metadata with
  | none => exact .inr ⟨_, run_bind_error (hget_fault hash)⟩
  | some fields =>
    have hash : (s.fields request.keys.metadata).isSome := hash ▸ rfl
    simp only [ApplyRequest.next, hash, Bool.true_and, decide_eq_false_iff_not] at other
    rw [luaApplyCheck, run_bind_ok (hget_run hash)]
    by_cases number : canonical
        ((s.field request.keys.metadata (ascii "applied_index")).getD (ascii "0")) = true
    · have text := canonical_iff.mp number
      rw [text, numeral_inj] at other
      rw [text, run_bind_ok (run_reject (by simp [canonical_numeral])), indexText,
        decimalCompare_numeral]
      refine .inl ?_
      cases order : compare request.index.toNat _ with
      | lt => exact ⟨_, rfl⟩
      | eq =>
        dsimp only
        rw [run_bind_ok (hget_run hash), run_bind_ok (hget_run hash)]
        split
        · exact ⟨_, rfl⟩
        · exact ⟨_, rfl⟩
      | gt =>
        refine ⟨_, congrFun (if_pos ?_) s⟩
        rw [decimalIncrement_numeral, ne_eq, numeral_inj]
        omega
    · refine .inr ⟨.script "invalid applied_index metadata", run_bind_error ?_⟩
      rw [reject, if_pos (Bool.eq_false_of_not_eq_true number), run_throw]

def ApplyRequest.marked (request : ApplyRequest) (s : Keys) : Keys :=
  request.metadata.foldl (fun s pair => s.put request.keys.metadata pair.1 pair.2)
    (s.put request.keys.state request.field request.value)

theorem ApplyRequest.run_other (positive : 0 < request.index.toNat) (other : request.due s = false) :
    final (request.run now s) = s := by
  rw [run, luaApply]
  by_cases next : request.next s
  · have typed : s.fields request.keys.state = none := by
      simpa [due, next] using other
    rw [run_bind_ok (luaApplyCheck_next positive next)]
    exact congrArg final (run_bind_error (hset_fault typed))
  · rcases luaApplyCheck_other positive (Bool.eq_false_of_not_eq_true next) with ⟨refused, check⟩ | ⟨fault, check⟩
    · rw [run_bind_ok check]
      rfl
    · rw [run_bind_error check]
      rfl

/-- A due request writes the state and the metadata before it adds the event. -/
theorem ApplyRequest.run_due (positive : 0 < request.index.toNat) (due : request.due s) :
    request.run now s =
      (do
        xaddNow request.keys.outbox now.toNat request.event
        return ⟨.applied, request.indexText⟩ : Script Receipt) (request.marked s) := by
  simp only [ApplyRequest.due, Bool.and_eq_true] at due
  have metadata : (s.fields request.keys.metadata).isSome := by
    have := due.1
    simp only [ApplyRequest.next, Bool.and_eq_true] at this
    exact this.1
  rw [ApplyRequest.run, luaApply, run_bind_ok (luaApplyCheck_next positive due.1)]
  refine (run_bind_ok (hset_run due.2)).trans ?_
  exact run_bind_ok (hset_run (isSome_fields_put metadata))

theorem ApplyRequest.field_marked {name : Bytes} :
    (request.marked s).field request.keys.metadata name =
      (request.metadata.reverse.lookup name).or
        ((s.put request.keys.state request.field request.value).field request.keys.metadata name) := by
  rw [marked, field_puts, if_pos rfl]

theorem ApplyRequest.state_marked :
    (request.marked s).field request.keys.state request.field =
      if request.keys.state = request.keys.metadata then
        (request.metadata.reverse.lookup request.field).or (some request.value)
      else some request.value := by
  have written : (s.put request.keys.state request.field request.value).field request.keys.state
      request.field = some request.value := by
    rw [field_put, if_pos ⟨rfl, rfl⟩]
  rw [marked, field_puts, written]

/-- The field of the state stays unless the metadata has another value for it. -/
theorem ApplyRequest.state_marked_iff :
    (request.marked s).field request.keys.state request.field = some request.value ↔
      request.kept := by
  rw [state_marked, kept]
  by_cases same : request.keys.state = request.keys.metadata
  · cases request.metadata.reverse.lookup request.field with
    | none => simp
    | some value => simp [same]
  · simp [same]

theorem ApplyRequest.metadata_marked :
    ∀ pair ∈ request.metadata, (request.marked s).field request.keys.metadata pair.1 = some pair.2 := by
  intro pair member
  rw [field_marked]
  simp only [metadata, applyMetadata, mem_cons, not_mem_nil, or_false] at member
  rcases member with rfl | rfl | rfl <;> rfl

theorem ApplyRequest.stream_marked (ofMetadata : request.keys.outbox ≠ request.keys.metadata)
    (ofState : request.keys.outbox ≠ request.keys.state) :
    (request.marked s).stream request.keys.outbox = s.stream request.keys.outbox := by
  rw [marked, stream_puts ofMetadata, stream_put ofState]

theorem ApplyRequest.stream_shared
    (shared : request.keys.outbox = request.keys.metadata ∨ request.keys.outbox = request.keys.state) :
    (request.marked s).stream request.keys.outbox = none := by
  rcases shared with same | same
  · rw [same]
    have applied := metadata_marked (s := s)
      (ascii "applied_index", request.indexText) mem_cons_self
    exact stream_of_field (Option.isSome_of_eq_some applied)
  · rw [same]
    have found : ((request.marked s).field request.keys.state request.field).isSome := by
      rw [state_marked]
      split
      · cases request.metadata.reverse.lookup request.field <;> rfl
      · rfl
    exact stream_of_field found

section Positive

variable (positive : 0 < request.index.toNat) (due : request.due s)
include positive due

theorem ApplyRequest.ne_of_marked {s' : Keys}
    (marks : ∀ pair ∈ request.metadata, s'.field request.keys.metadata pair.1 = some pair.2) :
    s' ≠ s := by
  rintro rfl
  simp only [ApplyRequest.due, ApplyRequest.next, Bool.and_eq_true, decide_eq_true_eq] at due
  have applied := due.1.2
  rw [marks (ascii "applied_index", request.indexText) mem_cons_self, Option.getD_some,
    ApplyRequest.indexText, numeral_inj] at applied
  omega

/-- Where the event cannot be added, a due request has only its first two effects. -/
theorem ApplyRequest.not_atomic_of_full (full : request.room s = false) :
    ¬ request.Atomic now s := by
  have stuck : ∀ stream, (request.marked s).stream request.keys.outbox = some stream →
      s.stream request.keys.outbox = some stream ∧
        stream.last = toLex (2 ^ 64 - 1, 2 ^ 64 - 1) := by
    intro stream found
    by_cases ofMetadata : request.keys.outbox = request.keys.metadata
    · rw [stream_shared (.inl ofMetadata)] at found
      cases found
    · by_cases ofState : request.keys.outbox = request.keys.state
      · rw [stream_shared (.inr ofState)] at found
        cases found
      · rw [stream_marked ofMetadata ofState] at found
        exact ⟨found, by simpa [room, ofMetadata, ofState, found] using full⟩
  obtain ⟨fault, adds⟩ : ∃ fault, xaddNow request.keys.outbox now.toNat request.event
      (request.marked s) = .error fault (request.marked s) :=
    xaddNow_fault fun stream found => (stuck stream found).2
  have ends : final (request.run now s) = request.marked s := by
    rw [run_due positive due, run_bind_error adds]
    rfl
  rintro (effects | same)
  · obtain ⟨stream, stream', before, after, id, events⟩ := effects.outbox
    rw [ends] at after
    have same := (stuck stream' after).1.symm.trans before
    cases same
    simpa using congrArg length events
  · exact ne_of_marked positive due metadata_marked (ends ▸ same)

/-- Where the event can be added, a due request has all effects on metadata and
outbox. -/
theorem ApplyRequest.run_room (room : request.room s) :
    ∃ stream, s.stream request.keys.outbox = some stream ∧
      request.run now s = .ok ⟨.applied, request.indexText⟩
        ((request.marked s).putStream request.keys.outbox
          (stream.append (nextId stream.last now.toNat) request.event (lt_nextId _ _))) := by
  simp only [ApplyRequest.room, Bool.and_eq_true, decide_eq_true_eq, Option.any_eq_true] at room
  obtain ⟨⟨ofMetadata, ofState⟩, stream, found, last⟩ := room
  have found' := (ApplyRequest.stream_marked (s := s) ofMetadata ofState).trans found
  refine ⟨stream, found, ?_⟩
  rw [ApplyRequest.run_due positive due, run_bind_ok (xaddNow_run found' last)]
  rfl

end Positive

/-- A run is all or nothing exactly when a due request finds room in the outbox
and keeps its field. -/
theorem ApplyRequest.atomic_iff (positive : 0 < request.index.toNat) :
    request.Atomic now s ↔
      (request.due s → request.room s ∧ request.kept) := by
  by_cases due : request.due s
  · by_cases room : request.room s = true
    · obtain ⟨stream, found, run⟩ := run_room positive due room
      obtain ⟨⟨ofMetadata, ofState⟩, _⟩ : (request.keys.outbox ≠ request.keys.metadata ∧
          request.keys.outbox ≠ request.keys.state) ∧ _ := by
        simpa only [ApplyRequest.room, Bool.and_eq_true, decide_eq_true_eq] using room
      have marks : ∀ pair ∈ request.metadata,
          (final (request.run now s)).field request.keys.metadata pair.1 = some pair.2 := by
        intro pair member
        rw [run]
        exact (field_putStream ofMetadata.symm).trans (metadata_marked pair member)
      have state : (final (request.run now s)).field request.keys.state request.field =
          some request.value ↔ request.kept = true := by
        rw [run, ← state_marked_iff (s := s)]
        exact Eq.congr_left (field_putStream ofState.symm)
      constructor
      · rintro (effects | same) _
        · exact ⟨room, state.mp effects.state⟩
        · exact absurd same (ne_of_marked positive due marks)
      · intro both
        refine .inl ⟨state.mpr (both due).2, marks, stream,
          stream.append (nextId stream.last now.toNat) request.event (lt_nextId _ _), found, ?_, _, rfl⟩
        rw [run]
        exact stream_putStream
    · refine iff_of_false (not_atomic_of_full positive due
        (Bool.eq_false_of_not_eq_true room)) fun both => room (both due).1
  · exact iff_of_true (.inr (run_other positive (Bool.eq_false_of_not_eq_true due)))
      fun holds => absurd holds due

namespace ApplyKeys

def Missing (keys : ApplyKeys) (s : Keys) : Prop :=
  s keys.metadata = none ∧ s keys.state = none ∧ s keys.outbox = none

def apart (keys : ApplyKeys) : Bool := keys.outbox ≠ keys.metadata && keys.outbox ≠ keys.state

/-- Every index up to the applied one has one event. -/
def OneEventEach (keys : ApplyKeys) (s : Keys) : Prop :=
  ∃ n stream, (s.field keys.metadata (ascii "applied_index")).getD (ascii "0") = numeral n ∧
    s.stream keys.outbox = some stream ∧
    ∀ m, 0 < m → m ≤ n → stream.events.countP (fun e => e.fields[1]? = some (numeral m)) = 1

end ApplyKeys

/-- Requests run one after the other, each at its time, from whatever the one
before left. -/
def runApplies (s : Keys) (history : List (ApplyRequest × UInt64)) : Keys :=
  history.foldl (fun s step => final (step.1.run step.2 s)) s

/-- The keys after a history that has applied some indexes. -/
structure Logged (keys : ApplyKeys) (n : Nat) (s : Keys) : Prop where
  bound : n < 2 ^ 64
  metadata : (s.fields keys.metadata).isSome = true
  state : (s.fields keys.state).isSome = true
  appliedIndex : s.field keys.metadata (ascii "applied_index") = storedNumber n
  outbox : ∃ stream, s.stream keys.outbox = some stream ∧
    stream.events.map (fun e => e.fields[1]?) = (range n).map (fun i => some (numeral (i + 1))) ∧
    (ofLex stream.last).2 ≤ n

section Histories

variable {keys : ApplyKeys} {n : Nat}

theorem ApplyKeys.Missing.logged (missing : keys.Missing s) : Logged keys 0 s := by
  obtain ⟨metadata, state, outbox⟩ := missing
  refine ⟨Nat.two_pow_pos 64, ?_, ?_, ?_, .empty, ?_, rfl, Nat.le_refl 0⟩
  · rw [Keys.fields, metadata]
    rfl
  · rw [Keys.fields, state]
    rfl
  · rw [Keys.field, Keys.fields, metadata]
    rfl
  · rw [Keys.stream, outbox]

theorem luaApplyValidate_index (valid : luaApplyValidate request) : 0 < request.index.toNat := by
  simp only [luaApplyValidate, Bool.and_eq_true, decide_eq_true_eq] at valid
  exact Nat.pos_of_ne_zero fun zero => valid.1.1.1.1 (UInt64.toNat_inj.mp zero)

theorem seq_nextId_le {last : StreamId} {now : Nat} : (ofLex (nextId last now)).2 ≤ (ofLex last).2 + 1 := by
  rw [nextId]
  split
  · exact Nat.zero_le _
  · split
    · exact Nat.zero_le _
    · exact le_rfl

/-- A due request adds the next event; the counter of its identifier stays below
the number of events, so there is always room. -/
theorem Logged.apply (h : Logged keys n s) (apart : keys.apart) (own : request.keys = keys)
    (index : request.index.toNat = n + 1) : Logged keys (n + 1) (final (request.run now s)) := by
  subst own
  simp only [ApplyKeys.apart, Bool.and_eq_true, decide_eq_true_eq] at apart
  obtain ⟨ofMetadata, ofState⟩ := apart
  have positive : 0 < request.index.toNat := by omega
  have bound := request.index.toNat_lt
  obtain ⟨stream, found, indexes, last⟩ := h.outbox
  have due : request.due s := by
    rw [due, ApplyRequest.next, h.metadata, h.state, h.appliedIndex, storedNumber_getD, index,
      Nat.add_sub_cancel, decide_eq_true rfl]
    rfl
  have room : request.room s := by
    have notLast : stream.last ≠ toLex (2 ^ 64 - 1, 2 ^ 64 - 1) := by
      intro same
      rw [same] at last
      change 2 ^ 64 - 1 ≤ n at last
      omega
    simp only [room, found, Option.any_some, Bool.and_eq_true, decide_eq_true_eq]
    exact ⟨⟨ofMetadata, ofState⟩, notLast⟩
  obtain ⟨stream', found', run⟩ := run_room positive due room
  cases found.symm.trans found'
  have typed {key : Bytes} (hash : (s.fields key).isSome = true) :
      ((request.marked s).fields key).isSome = true :=
    isSome_fields_puts (isSome_fields_put hash)
  rw [run, final]
  refine ⟨by omega, ?_, ?_, ?_, _, stream_putStream, ?_, ?_⟩
  · rw [fields_putStream ofMetadata.symm]
    exact typed h.metadata
  · rw [fields_putStream ofState.symm]
    exact typed h.state
  · rw [field_putStream ofMetadata.symm, storedNumber, if_neg (Nat.succ_ne_zero n), ← index]
    exact metadata_marked (ascii "applied_index", request.indexText) mem_cons_self
  · have text : some request.indexText = some (numeral (n + 1)) := congrArg (some ∘ numeral) index
    rw [Stream.append, map_append, indexes, range_succ, map_append]
    exact congrArg (_ ++ [·]) text
  · exact seq_nextId_le.trans (Nat.succ_le_succ last)

theorem Logged.run (h : Logged keys n s) (apart : keys.apart)
    {history : List (ApplyRequest × UInt64)}
    (valid : ∀ step ∈ history, step.1.keys = keys ∧ luaApplyValidate step.1) :
    ∃ n', Logged keys n' (runApplies s history) := by
  induction history generalizing n s with
  | nil => exact ⟨n, h⟩
  | cons step rest ih =>
    obtain ⟨⟨own, accepted⟩, later⟩ := forall_mem_cons.mp valid
    have positive := luaApplyValidate_index accepted
    by_cases due : step.1.due s
    · have index : step.1.index.toNat = n + 1 := by
        simp only [ApplyRequest.due, ApplyRequest.next, Bool.and_eq_true, decide_eq_true_eq, own,
          h.appliedIndex, storedNumber_getD, numeral_inj] at due
        omega
      exact ih (h.apply apart own index) later
    · have same : final (step.1.run step.2 s) = s :=
        ApplyRequest.run_other positive (Bool.eq_false_of_not_eq_true due)
      rw [runApplies, foldl_cons, same]
      exact ih h later

theorem Logged.oneEventEach (h : Logged keys n s) : keys.OneEventEach s := by
  obtain ⟨stream, found, indexes, _⟩ := h.outbox
  refine ⟨n, stream, ?_, found, fun m positive le => ?_⟩
  · rw [h.appliedIndex, storedNumber_getD]
  · have counted := congrArg (countP (· = some (numeral m))) indexes
    rw [countP_map, countP_map] at counted
    refine counted.trans ?_
    have position : ((fun x : Option Bytes => decide (x = some (numeral m))) ∘
        fun i => some (numeral (i + 1))) = fun i => i == m - 1 := by
      funext i
      rw [Function.comp_apply, Bool.eq_iff_iff, decide_eq_true_eq, Option.some.injEq, numeral_inj,
        beq_iff_eq]
      omega
    rw [position]
    exact count_eq_one_of_mem nodup_range (mem_range.mpr (by omega))

/-- Where the outbox shares its key, the first index is applied without an event. -/
theorem ApplyKeys.Missing.not_oneEventEach (missing : keys.Missing s) (shared : keys.apart = false)
    (own : request.keys = keys) (index : request.index = 1) :
    ¬ keys.OneEventEach (runApplies s [(request, now)]) := by
  subst own
  have h := missing.logged
  have due : request.due s := by
    rw [due, ApplyRequest.next, h.metadata, h.state, h.appliedIndex, storedNumber_getD, index]
    rfl
  have outbox : (request.marked s).stream request.keys.outbox = none := by
    refine stream_shared ?_
    simpa [ApplyKeys.apart, or_iff_not_imp_left] using shared
  have ends : runApplies s [(request, now)] = request.marked s := by
    obtain ⟨fault, adds⟩ : ∃ fault, xaddNow request.keys.outbox now.toNat request.event
        (request.marked s) = .error fault (request.marked s) :=
      xaddNow_fault fun stream found => by rw [outbox] at found; cases found
    rw [runApplies, foldl_cons, foldl_nil,
      run_due (index ▸ Nat.one_pos) due, run_bind_error adds]
    rfl
  rintro ⟨_, stream, _, found, _⟩
  rw [ends, outbox] at found
  cases found

end Histories

/-- A run of the script is all or nothing exactly when a due request finds room
in the outbox and keeps its field, and every history applies each index with one
event exactly when the outbox has a key of its own. -/
theorem luaApply_effects_iff (request : ApplyRequest) (now : UInt64) (s : Keys) (keys : ApplyKeys) :
    (luaApplyValidate request = true →
      (request.Atomic now s ↔
        (request.due s = true → request.room s = true ∧ request.kept = true))) ∧
    (keys.tagged = true →
      ((∀ s, keys.Missing s → ∀ history : List (ApplyRequest × UInt64),
        (∀ step ∈ history, step.1.keys = keys ∧ luaApplyValidate step.1 = true) →
          keys.OneEventEach (runApplies s history)) ↔ keys.apart = true)) := by
  refine ⟨fun valid => atomic_iff (luaApplyValidate_index valid),
    fun tagged => ⟨fun each => ?_, fun apart s missing history valid => ?_⟩⟩
  · by_contra shared
    have missing : keys.Missing fun _ => none := ⟨rfl, rfl, rfl⟩
    have valid : ∀ step ∈ [((⟨keys, 1, 1, [99], [102], []⟩ : ApplyRequest), (0 : UInt64))],
        step.1.keys = keys ∧ luaApplyValidate step.1 = true :=
      forall_mem_singleton.mpr ⟨rfl, by simp [luaApplyValidate, tagged]⟩
    exact missing.not_oneEventEach (Bool.eq_false_of_not_eq_true shared) rfl rfl
      (each _ missing _ valid)
  · obtain ⟨n, logged⟩ := missing.logged.run apart valid
    exact logged.oneEventEach

def ordersRequest : ApplyRequest where
  keys := ⟨ascii "raft:\x7borders\x7d:meta", ascii "raft:\x7borders\x7d:state",
    ascii "raft:\x7borders\x7d:outbox"⟩
  index := 1
  term := 1
  commandId := ascii "c"
  field := ascii "f"
  value := ascii "v"

/-- An outbox that holds a string leaves the first two effects of the request. -/
theorem ordersRequest_not_atomic : luaApplyValidate ordersRequest = true ∧
    ¬ ordersRequest.Atomic 0
      (Function.update (fun _ => none) ordersRequest.keys.outbox (some (.string []))) :=
  ⟨by decide, not_atomic_of_full (by decide) (by decide) (by decide)⟩

end TurboDb.Redis
