import TurboDb.Mysql.DispatchOwned
import TurboDb.Mysql.PacketRoundTrip
import TurboDb.Mysql.ReplyGrammar
import TurboDb.Mysql.RowRoundTrip

/-!
Every accepted command is answered by one reply.

What was sent and what the phase still allows to be sent make a word of the
grammar; when something fails, an ERR packet takes the place of the next one. It
always fits the scratch, so that no reply is given up half way.
-/

namespace TurboDb.Mysql

open ByteOrder Effect Grammar SqlEvent List

def Response.answer : Response → Option (Except Fault SqlRow)
  | .row values _ => some (.ok ⟨.row, some values⟩)
  | _ => none

def Phase.reading : Phase → Bool
  | .count | .columns | .metadataEnd | .rows => true
  | _ => false

def Phase.counted : Phase → Bool
  | .columns | .metadataEnd | .rows | .ending => true
  | _ => false

def Phase.over : Phase → Bool
  | .idle | .terminal => true
  | _ => false

variable {σ : Type} (S : Setting σ) (deprecated : Bool)

/-- What is to be sent makes a word with what has been sent. -/
def Expects (kind : Option CommandKind) (items : List Response) (d : Dispatch) : Prop :=
  if d.phase.active then ∃ k, kind = some k ∧ Behind items (replyWords deprecated k) (rest S.sdk d)
  else Behind items (replies deprecated kind) (rest S.sdk d)

/-- The rows that were fetched are those that are sent, up to the end of the result. -/
structure RowsSent (items : List Response) (outgoing : Option Response) (since : List SqlEvent)
    (d : Dispatch) : Prop where
  sent : (items ++ outgoing.toList).filterMap Response.answer <+: since.filterMap answer
  active : d.phase.active = true → d.phase ≠ .ending →
    since.filterMap answer = (items ++ outgoing.toList).filterMap Response.answer
  ending : d.phase = .ending → ∃ values, since.filterMap answer =
    (items ++ outgoing.toList).filterMap Response.answer ++ [.ok ⟨.done, values⟩]
  counted : d.phase.active = true → d.phase.counted = false → ∀ n, .count n ∉ items
  past : d.phase.over = true → (∀ r ∈ items, ¬IsErr r) → (∃ n, .count n ∈ items) →
    ∃ values, since.filterMap answer =
      items.filterMap Response.answer ++ [.ok ⟨.done, values⟩]

/-- A reply under way: what has been sent, what is in the scratch and what the engine did. -/
structure Course (kind : Option CommandKind) (items : List Response) (outgoing : Option Response)
    (since : List SqlEvent) (w : DispatchWorld σ) : Prop where
  tracked : Tracked S since w
  owner : w.d.response.result.isSome = w.d.phase.reading
  inPhase : InPhase S.sdk w.d
  scratch : w.d.scratch = true
  room : minReplyBytes ≤ w.d.capacity
  eof : w.d.deprecateEof = deprecated
  pending : w.d.pending = outgoing.isSome
  emitted : w.d.emitted = true → outgoing.isSome = true
  payload : ∀ r, outgoing = some r → Fits S.sdk w.d r ∧
    dispatchEncode S.locale w.d.capacity r = .ok w.d.payload
  code : w.d.phase = .error → w.d.errorCode ≠ 0
  expects : Expects S deprecated kind items w.d
  held : w.d.phase.preparing = true → Held since w
  balanced : w.d.phase.preparing = false →
    (w.d.phase.over = true → ∃ r ∈ items, IsErr r) → Balanced since
  rows : RowsSent items outgoing since w.d

def errBytes (code : UInt16) (sqlstate message : Bytes) : Bytes :=
  Wire.write 1 responseErrMarker.toUInt64 ++ Wire.write 2 code.toUInt64 ++ Wire.write 1 35 ++
    sqlstate ++ message

theorem dispatchEncode_err (locale : Locale) {capacity : Nat} {code : UInt16}
    (diagnostic : Failure) (named : code ≠ 0) (room : minReplyBytes ≤ capacity) :
    ∃ payload, dispatchEncode locale capacity (.err code (Decimal.ascii (dispatchSqlstate code))
      (some (diagnosticMessage diagnostic))) = .ok payload := by
  have short : (diagnosticMessage diagnostic).length ≤ 511 := by
    rw [diagnosticMessage, length_take]
    exact Nat.min_le_left _ _
  have state : (Decimal.ascii (dispatchSqlstate code)).all sqlstateByte = true ∧
      (Decimal.ascii (dispatchSqlstate code)).length = 5 := by
    unfold dispatchSqlstate
    split_ifs <;> decide
  have wrote : ∀ keeps capacity, Wrote keeps capacity
      (errBytes code (Decimal.ascii (dispatchSqlstate code)) (diagnosticMessage diagnostic))
      (responseWrite locale (.err code (Decimal.ascii (dispatchSqlstate code))
        (some (diagnosticMessage diagnostic)))
        ⟨if keeps then some [] else none, 0, capacity, .ok⟩) := by
    intro keeps capacity
    rw [responseWrite, errWrite]
    rw [if_neg named, if_neg (Nat.not_lt.mpr (short.trans (by decide))),
      if_neg (by simp [state])]
    exact (((((Wrote.start keeps capacity).emit _).emit _).emit _).emit _).emit _
  have writes := responseEncode_of_wrote wrote ⟨some [], capacity, 0⟩
  rw [Output.filled, if_pos] at writes
  · exact ⟨_, by rw [dispatchEncode, writes]; rfl⟩
  · simp only [errBytes, length_append, Wire.length_write, state.2]
    rw [minReplyBytes, errmsgMax] at room
    omega

variable {sdk : Sdk σ} {w w' : DispatchWorld σ} {since : List SqlEvent} {kind : Option CommandKind}
  {items : List Response} {r : Response}

theorem engine_look_leaves {α : Type} (f : σ → Except Fault α) :
    Leaves id (DispatchWorld.engine (Env.look f)) := by
  intro w
  unfold DispatchWorld.engine Env.look
  cases f w.env.engine <;> rfl

theorem inRegistry_leaves {α : Type} {x : RegistryM σ α}
    (leaves : Leaves id x) : Leaves id (DispatchWorld.inRegistry x) := by
  intro w
  have same : final (x ⟨w.d.registry, w.env⟩) = ⟨w.d.registry, w.env⟩ := leaves _
  exact (inRegistry_final x w).trans (by rw [same]; rfl)

theorem dispatchSource_leaves (index : Nat) (parameter : Bool) :
    Leaves id (dispatchSource sdk index parameter) := by
  intro w
  unfold dispatchSource
  cases w.d.response.result with
  | some result => exact engine_look_leaves _ w
  | none =>
    split_ifs
    · exact inRegistry_leaves ((registryStatement_leaves _).bind fun _ => lift_look_leaves _) w
    · exact inRegistry_leaves ((registryStatement_leaves _).bind fun _ => lift_look_leaves _) w

theorem dispatchMetadata_leaves (index : Nat) (parameter : Bool) :
    Leaves id (dispatchMetadata sdk index parameter) :=
  (dispatchSource_leaves index parameter).bind fun _ => leaves_get.bind fun _ => leaves_attempt

theorem dispatchMeasure_leaves (locale : Locale) (parameter : Bool) (left index : Nat) :
    Leaves id (dispatchMeasure sdk locale parameter left index) := by
  induction left generalizing index with
  | zero => exact leaves_pure _
  | succ left ih =>
    exact (dispatchMetadata_leaves index parameter).bind fun _ =>
      leaves_get.bind fun _ => leaves_attempt.bind fun _ => ih (index + 1)

theorem dispatchPreflight_leaves (locale : Locale) : Leaves id (dispatchPreflight sdk locale) := by
  intro w
  unfold dispatchPreflight
  cases w.d.response.result with
  | some result => exact dispatchMeasure_leaves locale false _ 0 w
  | none =>
    exact (dispatchMeasure_leaves locale true _ 0).bind
      (fun _ => dispatchMeasure_leaves locale false _ 0) w

theorem dispatchState_leaves : Leaves id (dispatchState sdk) :=
  (engine_look_leaves _).bind fun _ => leaves_reject.bind fun _ => leaves_pure _

theorem dispatchRowKinds_leaves (result : Handle) (i : Nat) (values : List Value) :
    Leaves id (dispatchRowKinds sdk result i values) := by
  induction values generalizing i with
  | nil => exact leaves_pure _
  | cons value values ih =>
    exact (engine_look_leaves _).bind fun _ => leaves_reject.bind fun _ => ih (i + 1)

theorem dispatchTerminator_spec (sdk : Sdk σ) (last : Bool) (w : DispatchWorld σ) :
    final (dispatchTerminator sdk last w) = w ∧
      ∀ {r w'}, dispatchTerminator sdk last w = .ok r w' →
        if w.d.phase = .ok ∨ (last && w.d.deprecateEof) = true then
          ∃ packet, packet.header = (if last && w.d.deprecateEof then responseEofMarker else 0) ∧
            r = .ok packet w.d.deprecateEof
        else IsEof r := by
  rw [dispatchTerminator, run_bind]
  obtain ⟨flags, observed⟩ | ⟨e, observed⟩ := dispatchState_leaves.same w
  swap
  · rw [observed]
    exact ⟨rfl, nofun⟩
  · rw [observed]
    dsimp only
    rw [run_bind_ok run_get]
    by_cases ok : w.d.phase = .ok ∨ (last && w.d.deprecateEof) = true
    · rw [if_pos ok]
      refine ⟨rfl, fun h => ?_⟩
      rw [if_pos ok]
      cases h
      exact ⟨_, rfl, rfl⟩
    · rw [if_neg ok]
      refine ⟨rfl, fun h => ?_⟩
      rw [if_neg ok]
      cases h
      exact ⟨_, rfl⟩

theorem dispatchResponse_spec (other : w.d.phase ≠ .rows) :
    final (dispatchResponse sdk w) = w ∧
      ∀ {r w'}, dispatchResponse sdk w = .ok r w' → Fits sdk w.d r := by
  have column (parameter : Bool) :
      final ((Response.column <$> dispatchMetadata sdk w.d.index parameter) w) = w ∧
        ∀ {r w'}, (Response.column <$> dispatchMetadata sdk w.d.index parameter) w = .ok r w' →
          IsColumn r := by
    refine ⟨(dispatchMetadata_leaves _ _).map _ w, fun {r w'} h => ?_⟩
    rw [run_map] at h
    cases made : dispatchMetadata sdk w.d.index parameter w with
    | ok definition w1 =>
      rw [made] at h
      cases h
      exact ⟨_, rfl⟩
    | error e w1 =>
      rw [made] at h
      cases h
  have terminator (last : Bool) := dispatchTerminator_spec sdk last w
  unfold dispatchResponse Fits
  cases phase : w.d.phase with
  | rows => exact absurd phase other
  | idle | terminal => exact ⟨rfl, nofun⟩
  | prepare | count => exact ⟨rfl, fun h => by cases h; rfl⟩
  | error => exact ⟨rfl, fun h => by cases h; exact ⟨_, _, _, rfl⟩⟩
  | parameters => exact column true
  | prepareColumns | columns => exact column false
  | parameterEnd | prepareEnd | metadataEnd =>
    refine ⟨(terminator false).1, fun h => ?_⟩
    simpa [phase] using (terminator false).2 h
  | ok =>
    refine ⟨(terminator false).1, fun h => ?_⟩
    simpa [phase, IsOk] using (terminator false).2 h
  | ending =>
    refine ⟨(terminator true).1, fun h => ?_⟩
    have spec := (terminator true).2 h
    cases eof : w.d.deprecateEof <;> simpa [phase, eof, IsTerminator] using spec

section Rows

variable {S}

theorem Tracked.extend {w' : DispatchWorld σ} {more : List SqlEvent} (tracked : Tracked S since w)
    (registry : w'.d.registry = w.d.registry)
    (result : w'.d.response.result = w.d.response.result)
    (live : S.live w'.env.engine = S.live w.env.engine)
    (opened : more.filterMap opened = [])
    (released : more.filterMap released = []) : Tracked S (since ++ more) w' := by
  refine ⟨?_, ?_, ?_, ?_⟩
  · rw [registry]
    exact tracked.registry
  · rw [live, result]
    exact tracked.live
  · rw [result, filterMap_append, filterMap_append, opened, released, append_nil,
      append_nil]
    exact tracked.results
  · rw [filterMap_append, opened, append_nil]
    exact tracked.once

structure Turned (S : Setting σ) (since more : List SqlEvent) (w w' : DispatchWorld σ) : Prop where
  log : w'.env.log = w.env.log ++ more
  tracked : Tracked S (since ++ more) w'
  statement : more.filterMap statement = []
  withdrawn : more.filterMap withdrawn = []
  same : w'.d = w.d ∨ w'.d = { w.d with response.result := none } ∨
    w'.d = { w.d with response.result := none, phase := .ending }

/-- A turn hands out a row, or finds the end of the result and gives it back. -/
def Yields (more : List SqlEvent) (w : DispatchWorld σ)
    (result : EStateM.Result Failure (DispatchWorld σ) Response) : Prop :=
  ∀ {r w'}, result = .ok r w' →
    (w'.d = w.d ∧ ∃ values, r = .row values w.d.binary ∧
      more.filterMap answer = [.ok ⟨.row, some values⟩]) ∨
    (w'.d = { w.d with response.result := none, phase := .ending } ∧
      IsTerminator w.d.deprecateEof r ∧
      ∃ values, more.filterMap answer = [.ok ⟨.done, values⟩])

theorem dispatchRowsDone_spec (tracked : Tracked S since w) :
    ∃ more, Turned S since more w (final (dispatchRowsDone S.sdk w)) ∧
      more.filterMap answer = [] ∧
      ∀ {r w'}, dispatchRowsDone S.sdk w = .ok r w' →
        w'.d = { w.d with response.result := none, phase := .ending } ∧
          IsTerminator w.d.deprecateEof r := by
  obtain ⟨more, log, d, released, statement, withdrawn, answer⟩ := tracked.release
  refine ⟨more, ?_⟩
  rw [dispatchRowsDone, run_bind]
  cases freed : dispatchRelease S.sdk w with
  | error e w1 =>
    rw [freed] at log d released
    exact ⟨⟨log, released, statement, withdrawn, .inr (.inl d)⟩, answer, nofun⟩
  | ok a w1 =>
    rw [freed] at log d released
    dsimp only [final] at log d released
    dsimp only
    rw [run_bind_ok run_modify]
    have ending : { w1.d with phase := .ending } =
        { w.d with response.result := none, phase := .ending } := by rw [d]
    obtain ⟨same, ended⟩ :=
      dispatchTerminator_spec S.sdk true { w1 with d := { w1.d with phase := .ending } }
    refine ⟨⟨?_, ?_, statement, withdrawn, .inr (.inr ?_)⟩, answer, fun {r w'} done => ?_⟩
    · rw [same]
      exact log
    · rw [same]
      exact released.congr rfl rfl rfl
    · rw [same]
      exact ending
    · have spec := ended done
      rw [done] at same
      obtain rfl : w' = _ := same
      refine ⟨ending, ?_⟩
      rw [d] at spec
      cases eof : w.d.deprecateEof <;> simpa [eof, IsTerminator] using spec

theorem dispatchRowFetched_spec (tracked : Tracked S since w) (result : Handle) (row : SqlRow) :
    ∃ more, Turned S since more w (final (dispatchRowFetched S.sdk result row w)) ∧
      more.filterMap answer = [] ∧
      ∀ {r w'}, dispatchRowFetched S.sdk result row w = .ok r w' →
        (w'.d = w.d ∧ ∃ values, r = .row values w.d.binary ∧ row = ⟨.row, some values⟩) ∨
        (w'.d = { w.d with response.result := none, phase := .ending } ∧
          IsTerminator w.d.deprecateEof r ∧ row.state = .done) := by
  have stays : Turned S since [] w w :=
    ⟨(append_nil _).symm, by rwa [append_nil], rfl, rfl, .inl rfl⟩
  obtain ⟨state, values⟩ := row
  unfold dispatchRowFetched
  cases state with
  | done =>
    obtain ⟨more, turned, answer, ended⟩ := dispatchRowsDone_spec tracked
    refine ⟨more, turned, answer, fun done => .inr ?_⟩
    obtain ⟨d, last⟩ := ended done
    exact ⟨d, last, rfl⟩
  | cancelled => exact ⟨[], stays, rfl, nofun⟩
  | row =>
    cases values with
    | none => exact ⟨[], stays, rfl, nofun⟩
    | some values =>
      dsimp only
      by_cases width : values.length ≠ S.sdk.resultColumns result
      · rw [if_pos width]
        exact ⟨[], stays, rfl, nofun⟩
      · rw [if_neg width]
        obtain ⟨a, checked⟩ | ⟨e, checked⟩ := (dispatchRowKinds_leaves result 0 values).same w
        · rw [checked]
          refine ⟨[], stays, rfl, fun done => .inl ?_⟩
          cases done
          exact ⟨rfl, values, rfl, rfl⟩
        · rw [checked]
          exact ⟨[], stays, rfl, nofun⟩

theorem dispatchRow_spec {result : Handle} (tracked : Tracked S since w)
    (held : w.d.response.result = some result) :
    ∃ more, Turned S since more w (final (dispatchRow S.sdk w)) ∧
      Yields more w (dispatchRow S.sdk w) := by
  rw [dispatchRow, run_bind_ok run_get, held, run_bind_ok run_given, run_bind]
  have spec := Env.call_spec (S.sdk.next result) (.fetched result) w.env
  have kept := S.lawful.next result w.env.engine
  unfold DispatchWorld.engine
  generalize Env.call (S.sdk.next result) (.fetched result) w.env = called at spec
  cases called with
  | error e env =>
    obtain ⟨fault, rfl, engine, log⟩ := spec
    rw [engine] at kept
    exact ⟨_, ⟨log, tracked.extend rfl rfl kept rfl rfl, rfl, rfl, .inl rfl⟩, nofun⟩
  | ok row env =>
    obtain ⟨engine, log⟩ := spec
    rw [engine] at kept
    have fetched : Tracked S (since ++ [.fetched result (.ok row)]) ⟨w.d, env⟩ :=
      tracked.extend rfl rfl kept rfl rfl
    obtain ⟨more, turned, answer, yields⟩ := dispatchRowFetched_spec fetched result row
    refine ⟨.fetched result (.ok row) :: more, ?_, fun {r w'} done => ?_⟩
    · obtain ⟨log', tracked', statement, withdrawn, same⟩ := turned
      refine ⟨?_, ?_, statement, withdrawn, same⟩
      · rw [log']
        rw [log]
        simp
      · simpa using tracked'
    · have answers : (SqlEvent.fetched result (.ok row) :: more).filterMap SqlEvent.answer =
          [.ok row] := by
        simp [SqlEvent.answer, answer]
      rw [answers]
      rcases yields done with ⟨d, values, rfl, rfl⟩ | ⟨d, last, finished⟩
      · exact .inl ⟨d, values, rfl, rfl⟩
      · refine .inr ⟨d, last, row.values, ?_⟩
        rw [← finished]

end Rows

section Fill

variable {S deprecated}
variable {payload : Bytes} {more : List SqlEvent}

/-- A row packet and a count have each a phase of their own. -/
theorem Fits.place {sdk : Sdk σ} {d : Dispatch} (fits : Fits sdk d r) :
    (∀ values binary, r = .row values binary → d.phase = .rows) ∧
      ∀ n, r = .count n → d.phase = .count := by
  unfold Fits at fits
  cases phase : d.phase <;> rw [phase] at fits
  case idle | terminal => exact fits.elim
  case rows =>
    obtain ⟨_, rfl⟩ := fits
    exact ⟨fun _ _ _ => rfl, nofun⟩
  case count =>
    subst fits
    exact ⟨nofun, fun _ _ => rfl⟩
  case prepare =>
    subst fits
    exact ⟨nofun, nofun⟩
  case parameters | prepareColumns | columns | parameterEnd | prepareEnd | metadataEnd =>
    obtain ⟨_, rfl⟩ := fits
    exact ⟨nofun, nofun⟩
  case ok =>
    obtain ⟨_, -, rfl⟩ := fits
    exact ⟨nofun, nofun⟩
  case error =>
    obtain ⟨_, _, _, rfl⟩ := fits
    exact ⟨nofun, nofun⟩
  case ending =>
    rw [IsTerminator] at fits
    split_ifs at fits
    · obtain ⟨_, -, rfl⟩ := fits
      exact ⟨nofun, nofun⟩
    · obtain ⟨_, rfl⟩ := fits
      exact ⟨nofun, nofun⟩

theorem Fits.answer {sdk : Sdk σ} {d : Dispatch} (fits : Fits sdk d r) (other : d.phase ≠ .rows) :
    r.answer = none := by
  cases r with
  | row values binary => exact absurd (fits.place.1 values binary rfl) other
  | _ => rfl

theorem expects_active {d : Dispatch} (active : d.phase.active) :
    Expects S deprecated kind items d ↔
      ∃ k, kind = some k ∧ Behind items (replyWords deprecated k) (rest S.sdk d) := by
  rw [Expects, if_pos active]

theorem Course.keep (course : Course S deprecated kind items none since w)
    (fits : Fits S.sdk w.d r) (encoded : dispatchEncode S.locale w.d.capacity r = .ok payload)
    (other : w.d.phase ≠ .rows) :
    Course S deprecated kind items (some r) since (dispatchKeep payload w) := by
  have quiet : (items ++ [r]).filterMap Response.answer = items.filterMap Response.answer := by
    simp [fits.answer other]
  obtain ⟨sent, active, ending, counted, past⟩ := course.rows
  rw [Option.toList_none, append_nil] at sent active ending
  refine ⟨course.tracked.congr rfl rfl rfl, course.owner, ?_, course.scratch, course.room,
    course.eof, rfl, fun _ => rfl, ?_, course.code, course.expects, course.held, course.balanced, ?_⟩
  · exact course.inPhase
  · rintro r' ⟨rfl⟩
    exact ⟨fits, encoded⟩
  · refine ⟨?_, ?_, ?_, counted, past⟩
    · rwa [Option.toList_some, quiet]
    · rwa [Option.toList_some, quiet]
    · rwa [Option.toList_some, quiet]

theorem course_fail (tracked : Tracked S since w) (owes : Owes since w) (failure : Failure)
    (expects : Behind items (replies deprecated kind) (letter IsErr))
    (scratch : w.d.scratch) (room : minReplyBytes ≤ w.d.capacity)
    (eof : w.d.deprecateEof = deprecated)
    (sent : items.filterMap Response.answer <+: since.filterMap answer) :
    ∃ more, (dispatchFail S.sdk failure w).env.log = w.env.log ++ more ∧
      Course S deprecated kind items none (since ++ more) (dispatchFail S.sdk failure w) ∧
      (dispatchFail S.sdk failure w).d.phase = .error ∧
      (dispatchFail S.sdk failure w).d.sequence = w.d.sequence := by
  obtain ⟨more, log, tracked', balanced, answer, same, result, phase, pending, emitted, code⟩ :=
    tracked.fail owes failure
  refine ⟨more, log, ?_, phase, same.sequence⟩
  refine ⟨tracked', by rw [result, phase]; rfl, ?_, same.scratch.trans scratch,
    by rw [same.capacity]; exact room, same.deprecated.trans eof, pending,
    fun h => absurd h (by simp [emitted]), nofun, fun _ => code, ?_,
    fun h => absurd h (by simp [phase, Phase.preparing]), fun _ _ => balanced, ?_⟩
  · trivial
  · rw [Expects, phase]
    simpa [Phase.active, rest, phase] using expects
  · refine ⟨?_, ?_, ?_, ?_, ?_⟩
    · simpa [filterMap_append, answer] using sent
    all_goals exact fun h => by cases h

theorem Course.err (course : Course S deprecated kind items none since w)
    (phase : w.d.phase = .error) :
    ∃ payload r, dispatchPayload S.sdk S.locale w = .ok payload w ∧
      Course S deprecated kind items (some r) since (dispatchKeep payload w) := by
  obtain ⟨payload, encoded⟩ := dispatchEncode_err S.locale w.d.diagnostic (course.code phase)
    course.room
  refine ⟨payload, _, ?_, course.keep ?_ encoded (by rw [phase]; decide)⟩
  · rw [dispatchPayload, run_bind, dispatchResponse, phase]
    dsimp only
    rw [run_bind_ok run_get, run_attempt_ok encoded]
  · rw [Fits, phase]
    exact ⟨_, _, _, rfl⟩

inductive Produced (S : Setting σ) (deprecated : Bool) (kind : Option CommandKind)
    (items : List Response) (since : List SqlEvent) (w : DispatchWorld σ) : Prop
  | kept (more : List SqlEvent) (r : Response) (payload : Bytes) (w' : DispatchWorld σ)
      (made : dispatchPayload S.sdk S.locale w = .ok payload w')
      (log : w'.env.log = w.env.log ++ more) (same : SameReply w.d w'.d)
      (quiet : w'.d.emitted = w.d.emitted)
      (course : Course S deprecated kind items (some r) (since ++ more) (dispatchKeep payload w'))
  | failed (more : List SqlEvent) (e : Failure) (w' : DispatchWorld σ)
      (refused : dispatchPayload S.sdk S.locale w = .error e w') (active : w'.d.phase ≠ .error)
      (log : w'.env.log = w.env.log ++ more) (same : SameReply w.d w'.d)
      (tracked : Tracked S (since ++ more) w') (owes : Owes (since ++ more) w')
      (sent : items.filterMap Response.answer <+: (since ++ more).filterMap answer)

theorem dispatchPayload_ok (said : dispatchResponse S.sdk w = .ok r w')
    (encoded : dispatchEncode S.locale w'.d.capacity r = .ok payload) :
    dispatchPayload S.sdk S.locale w = .ok payload w' := by
  rw [dispatchPayload, run_bind_ok said, run_bind_ok run_get, run_attempt_ok encoded]

theorem dispatchPayload_refused {e : Failure} (said : dispatchResponse S.sdk w = .ok r w')
    (refused : dispatchEncode S.locale w'.d.capacity r = .error e) :
    dispatchPayload S.sdk S.locale w = .error e w' := by
  rw [dispatchPayload, run_bind_ok said, run_bind_ok run_get, run_attempt_error refused]

theorem dispatchPayload_error {e : Failure} (failed : dispatchResponse S.sdk w = .error e w') :
    dispatchPayload S.sdk S.locale w = .error e w' := by
  rw [dispatchPayload, run_bind_error failed]

section Course

variable (course : Course S deprecated kind items none since w) (active : w.d.phase.active)
include course active

theorem Course.owes : Owes since w := by
  refine ⟨course.held, fun other => course.balanced other fun past => ?_⟩
  cases phase : w.d.phase <;> rw [phase] at active past <;> cases active <;> cases past

theorem Course.produce (other : w.d.phase ≠ .rows) : Produced S deprecated kind items since w := by
  have spec : final (dispatchResponse S.sdk w) = w ∧ _ := dispatchResponse_spec other
  obtain ⟨same, fits⟩ := spec
  have notError : w.d.phase ≠ .error := fun h => by rw [h] at active; cases active
  have sent : items.filterMap Response.answer <+: (since ++ []).filterMap answer := by
    simpa using course.rows.sent
  have failed (e : Failure) (refused : dispatchPayload S.sdk S.locale w = .error e w) :
      Produced S deprecated kind items since w :=
    .failed [] e w refused notError (append_nil _).symm ⟨rfl, rfl, rfl, rfl⟩
      (by rw [append_nil]; exact course.tracked)
      (by rw [append_nil]; exact course.owes active) sent
  obtain ⟨r, said⟩ | ⟨e, said⟩ := ends_at same
  swap
  · exact failed e (dispatchPayload_error said)
  · cases encoded : dispatchEncode S.locale w.d.capacity r with
    | error e => exact failed e (dispatchPayload_refused said encoded)
    | ok payload =>
      refine .kept [] r payload w (dispatchPayload_ok said encoded)
        (append_nil _).symm ⟨rfl, rfl, rfl, rfl⟩ rfl ?_
      rw [append_nil]
      exact course.keep (fits said) encoded other

end Course

theorem Turned.failed
    (turned : Turned S since more w w') (course : Course S deprecated kind items none since w)
    (phase : w.d.phase = .rows) :
    w'.d.phase ≠ .error ∧ SameReply w.d w'.d ∧ Owes (since ++ more) w' := by
  have balanced : Balanced (since ++ more) := by
    have before : Balanced since := course.balanced (by rw [phase]; rfl)
      (fun past => by rw [phase] at past; cases past)
    rw [Balanced, filterMap_append, filterMap_append, turned.statement, turned.withdrawn,
      append_nil, append_nil]
    exact before
  have same : w'.d.phase ≠ .error ∧ w'.d.phase.preparing = false ∧ SameReply w.d w'.d := by
    rcases turned.same with same | same | same <;> rw [same]
    · exact ⟨by rw [phase]; decide, by rw [phase]; rfl, ⟨rfl, rfl, rfl, rfl⟩⟩
    · exact ⟨by rw [phase]; decide, by rw [phase]; rfl, ⟨rfl, rfl, rfl, rfl⟩⟩
    · exact ⟨by simp, rfl, ⟨rfl, rfl, rfl, rfl⟩⟩
  exact ⟨same.1, same.2.2, fun h => absurd h (by simp [same.2.1]), fun _ => balanced⟩

section Course

variable (course : Course S deprecated kind items none since w)
include course

theorem Course.keepRow (phase : w.d.phase = .rows) {values : List Value}
    (turned : Turned S since more w w') (same : w'.d = w.d)
    (fetched : more.filterMap answer = [.ok ⟨.row, some values⟩])
    (encoded : dispatchEncode S.locale w'.d.capacity (.row values w.d.binary) = .ok payload) :
    Course S deprecated kind items (some (.row values w.d.binary)) (since ++ more)
      (dispatchKeep payload w') := by
  obtain ⟨-, -, owes⟩ := turned.failed course phase
  have active : w.d.phase.active := by rw [phase]; rfl
  have answers : (since ++ more).filterMap answer =
      (items ++ [Response.row values w.d.binary]).filterMap Response.answer := by
    rw [filterMap_append, filterMap_append, fetched,
      course.rows.active active (by rw [phase]; decide), Option.toList_none, append_nil]
    rfl
  obtain ⟨d, env⟩ := w'
  obtain rfl : d = w.d := same
  refine ⟨turned.tracked.congr rfl rfl rfl, course.owner, course.inPhase, course.scratch, course.room,
    course.eof, rfl, fun _ => rfl, ?_, course.code, course.expects, ?_, ?_, ?_⟩
  · rintro r' ⟨rfl⟩
    rw [dispatchKeep, Fits]
    simp only [phase]
    exact ⟨⟨values, rfl⟩, encoded⟩
  · exact fun h => absurd h (by simp [dispatchKeep, phase, Phase.preparing])
  · exact fun _ _ => owes.2 (by rw [phase]; rfl)
  · refine ⟨by rw [answers]; rfl, fun _ _ => answers, ?_, ?_, ?_⟩
    · exact fun h => absurd (phase.symm.trans h) (by decide)
    · exact fun _ h => absurd h (by simp [dispatchKeep, phase, Phase.counted])
    · exact fun h => absurd h (by simp [dispatchKeep, phase, Phase.over])

theorem Course.keepTerminator (phase : w.d.phase = .rows) {values : Option (List Value)}
    (turned : Turned S since more w w')
    (same : w'.d = { w.d with response.result := none, phase := .ending })
    (last : IsTerminator w.d.deprecateEof r)
    (fetched : more.filterMap answer = [.ok ⟨.done, values⟩])
    (encoded : dispatchEncode S.locale w'.d.capacity r = .ok payload) :
    Course S deprecated kind items (some r) (since ++ more) (dispatchKeep payload w') := by
  obtain ⟨-, -, owes⟩ := turned.failed course phase
  obtain ⟨d, env⟩ := w'
  obtain rfl : d = { w.d with response.result := none, phase := .ending } := same
  have active : w.d.phase.active := by rw [phase]; rfl
  have fits : Fits S.sdk { w.d with response.result := none, phase := .ending } r := last
  have answers : (since ++ more).filterMap answer =
      (items ++ [r]).filterMap Response.answer ++ [.ok ⟨.done, values⟩] := by
    have quiet : r.answer = none := fits.answer nofun
    rw [filterMap_append, filterMap_append, fetched,
      course.rows.active active (by rw [phase]; decide), Option.toList_none, append_nil]
    simp [quiet]
  refine ⟨turned.tracked.congr rfl rfl rfl, rfl, trivial, course.scratch, course.room, course.eof, rfl,
    fun _ => rfl, ?_, nofun, ?_, nofun, fun _ _ => owes.2 rfl, ?_⟩
  · rintro r' ⟨rfl⟩
    exact ⟨fits, encoded⟩
  · obtain ⟨k, named, behind⟩ := (expects_active active).mp course.expects
    refine (expects_active rfl).mpr ⟨k, named, behind.mono ?_⟩
    simp only [rest, phase]
    exact le_star_mul
  · exact ⟨by rw [answers]; exact prefix_append _ _, fun _ h => absurd rfl h,
      fun _ => ⟨values, answers⟩, fun _ h => Bool.noConfusion h, fun h => Bool.noConfusion h⟩

theorem Course.produceRow (phase : w.d.phase = .rows) :
    Produced S deprecated kind items since w := by
  obtain ⟨result, held⟩ : ∃ result, w.d.response.result = some result :=
    Option.isSome_iff_exists.mp (by rw [course.owner, phase]; rfl)
  obtain ⟨more, turned, yields⟩ := dispatchRow_spec course.tracked held
  have said : dispatchResponse S.sdk w = dispatchRow S.sdk w := by rw [dispatchResponse, phase]
  have sent : items.filterMap Response.answer <+: (since ++ more).filterMap answer := by
    rw [filterMap_append]
    exact List.IsPrefix.trans (by simpa using course.rows.sent) (prefix_append _ _)
  have failed {e : Failure} {w' : DispatchWorld σ} (turned : Turned S since more w w')
      (refused : dispatchPayload S.sdk S.locale w = .error e w') :
      Produced S deprecated kind items since w := by
    obtain ⟨active, same, owes⟩ := turned.failed course phase
    exact .failed more e w' refused active turned.log same turned.tracked owes sent
  cases row : dispatchRow S.sdk w with
  | error e w' =>
    rw [row] at turned said
    exact failed turned (dispatchPayload_error said)
  | ok r w' =>
    rw [row] at turned said
    cases encoded : dispatchEncode S.locale w'.d.capacity r with
    | error e => exact failed turned (dispatchPayload_refused said encoded)
    | ok payload =>
      have made := dispatchPayload_ok said encoded
      have same := (turned.failed course phase).2.1
      rcases yields row with ⟨d, values, rfl, fetched⟩ | ⟨d, last, values, fetched⟩
      · exact .kept more _ payload w' made turned.log same (by rw [d])
          (course.keepRow phase turned d fetched encoded)
      · exact .kept more _ payload w' made turned.log same (by rw [d])
          (course.keepTerminator phase turned d last fetched encoded)

theorem Course.fill (going : w.d.phase.over = false) (quiet : w.d.emitted = false) :
    ∃ more r w', dispatchFill S.sdk S.locale w = .ok () w' ∧ w'.env.log = w.env.log ++ more ∧
      w'.d.sequence = w.d.sequence ∧ w'.d.emitted = false ∧
      Course S deprecated kind items (some r) (since ++ more) w' := by
  have empty : w.d.pending = false := course.pending
  unfold dispatchFill
  rw [if_neg (by simp [empty])]
  by_cases error : w.d.phase = .error
  · obtain ⟨payload, r, made, kept⟩ := course.err error
    rw [made]
    exact ⟨[], r, _, rfl, (append_nil _).symm, rfl, quiet, by rwa [append_nil]⟩
  have active : w.d.phase.active := by
    cases phase : w.d.phase <;> rw [phase] at going error <;> first | rfl | simp_all [Phase.over]
  have produced : Produced S deprecated kind items since w := by
    by_cases rows : w.d.phase = .rows
    exacts [course.produceRow rows, course.produce active rows]
  cases produced with
  | kept more r payload w' made log same silent course' =>
    rw [made]
    exact ⟨more, r, _, rfl, log, same.sequence, silent.trans quiet, course'⟩
  | failed more e w' refused other log same tracked owes sent =>
    obtain ⟨k, rfl, behind⟩ := (expects_active active).mp course.expects
    have broken : Behind items (replies deprecated (some k)) (letter IsErr) :=
      behind.interrupt (proper_rest active course.inPhase)
    obtain ⟨more', log', failed, phase, sequence⟩ := course_fail tracked owes e broken
      (same.scratch.trans course.scratch)
      (by rw [same.capacity]; exact course.room) (same.deprecated.trans course.eof) sent
    obtain ⟨payload, r, made, kept⟩ := failed.err phase
    rw [refused]
    dsimp only
    rw [if_neg other, made]
    refine ⟨more ++ more', r, _, rfl, ?_, sequence.trans same.sequence, ?_, ?_⟩
    · rw [← append_assoc, ← log]
      exact log'
    · exact Bool.eq_false_iff.mpr fun h => by simpa using failed.emitted h
    · rwa [← append_assoc]

end Course

end Fill

section Acknowledge

variable {d : Dispatch}

def Phase.next : Phase → List Phase
  | .prepare => [.parameters, .prepareColumns, .idle]
  | .parameters => [.parameters, .parameterEnd, .prepareColumns, .idle]
  | .parameterEnd => [.prepareColumns, .idle]
  | .prepareColumns => [.prepareColumns, .prepareEnd, .idle]
  | .prepareEnd | .ending | .ok => [.idle]
  | .count => [.columns]
  | .columns => [.columns, .metadataEnd, .rows]
  | .metadataEnd | .rows => [.rows]
  | .error => [.idle, .terminal]
  | .idle | .terminal => [.terminal]

theorem dispatchNext_mem (sdk : Sdk σ) (d : Dispatch) : (dispatchNext sdk d).1 ∈ d.phase.next := by
  have columns : dispatchPrepareColumns d = .prepareColumns ∨ dispatchPrepareColumns d = .idle := by
    unfold dispatchPrepareColumns
    split_ifs
    exacts [.inl rfl, .inr rfl]
  unfold dispatchNext
  cases d.phase with
  | prepare => rcases columns with h | h <;> dsimp only <;> rw [h] <;> split_ifs <;> decide
  | parameters =>
    rw [apply_ite Prod.fst]
    rcases columns with h | h <;> dsimp only <;> rw [h] <;> split_ifs <;> decide
  | parameterEnd => rcases columns with h | h <;> dsimp only <;> rw [h] <;> decide
  | prepareColumns | columns | error => dsimp only; split_ifs <;> decide
  | prepareEnd | ending | ok | count | metadataEnd | rows | idle | terminal => dsimp only; decide

theorem Phase.next_spec (p q : Phase) (mem : q ∈ p.next) :
    (p.over = false → q.reading = p.reading) ∧ q ≠ .error ∧ q ≠ .ending ∧ q ≠ .count ∧
      (q.active → p.active ∧ p ≠ .ending) ∧
      (q.preparing → p.preparing) ∧
      (p.preparing → q.preparing = false → q.over) ∧
      (q.active → q.counted = false → p.preparing) ∧
      (q.over → p.over = false →
        p = .ending ∨ p = .error ∨ p.active ∧ p.counted = false ∧ p ≠ .count) := by
  revert q
  cases p <;> decide

theorem uint16_pos {n : UInt16} (some : n ≠ 0) : 0 < n.toNat :=
  Nat.pos_of_ne_zero fun h => some (UInt16.toNat_inj.mp h)

theorem bounds_prepareColumns : Bounds sdk d (dispatchPrepareColumns d) 0 := by
  unfold dispatchPrepareColumns
  split_ifs with some
  exacts [uint16_pos some, trivial]

theorem InPhase.acknowledged (inPhase : InPhase sdk d) :
    InPhase sdk (dispatchAcknowledged sdk d) := by
  change Bounds sdk d (dispatchNext sdk d).1 (dispatchNext sdk d).2
  unfold InPhase at inPhase
  unfold dispatchNext
  cases phase : d.phase with
  | prepare =>
    dsimp only
    split_ifs with some
    exacts [uint16_pos some, bounds_prepareColumns]
  | parameters =>
    rw [phase] at inPhase
    have inside : d.index < d.prepared.parameterCount.toNat := inPhase
    dsimp only
    split_ifs with last deprecated
    · exact bounds_prepareColumns
    · exact ⟨Bool.eq_false_iff.mpr deprecated, rfl⟩
    · exact Nat.lt_of_le_of_ne inside last
  | parameterEnd =>
    rw [phase] at inPhase
    have zero : d.index = 0 := inPhase.2
    rw [zero]
    exact bounds_prepareColumns
  | prepareColumns =>
    rw [phase] at inPhase
    have inside : d.index < d.prepared.columnCount.toNat := inPhase
    dsimp only
    split_ifs with last deprecated
    · trivial
    · exact Bool.eq_false_iff.mpr deprecated
    · exact Nat.lt_of_le_of_ne inside last
  | columns =>
    rw [phase] at inPhase
    have inside : d.index < dispatchColumns sdk d.response.result := inPhase
    dsimp only
    split_ifs with last deprecated
    · trivial
    · exact Bool.eq_false_iff.mpr deprecated
    · exact Nat.lt_of_le_of_ne inside last
  | count => rwa [phase] at inPhase
  | error => split_ifs <;> trivial
  | prepareEnd | metadataEnd | rows | ending | ok | idle | terminal => trivial

theorem Fits.going {r : Response} (fits : Fits sdk d r) : d.phase.over = false := by
  unfold Fits at fits
  cases phase : d.phase with
  | idle | terminal => rw [phase] at fits; exact fits.elim
  | _ => rfl

variable {S deprecated}

section Course

variable (course : Course S deprecated kind items (some r) since w)
include course

/-- What has been sent and what remains to be sent still make a reply. -/
theorem Course.expects_next :
    Expects S deprecated kind (items ++ [r]) (dispatchAcknowledged S.sdk w.d) := by
  obtain ⟨fits, -⟩ := course.payload r rfl
  have advance := fits.advance course.inPhase
  obtain ⟨-, -, -, -, active, -⟩ := Phase.next_spec _ _ (dispatchNext_mem S.sdk w.d)
  have expects := course.expects
  by_cases next : (dispatchAcknowledged S.sdk w.d).phase.active
  · obtain ⟨k, named, behind⟩ := (expects_active (active next).1).mp expects
    exact (expects_active next).mpr ⟨k, named, behind.step advance⟩
  · rw [Expects, if_neg next]
    by_cases now : w.d.phase.active
    · obtain ⟨k, rfl, behind⟩ := (expects_active now).mp expects
      exact fun rest mem => le_interrupted (behind.step advance rest mem)
    · rw [Expects, if_neg now] at expects
      exact expects.step advance

theorem Course.rows_next : RowsSent (items ++ [r]) none since (dispatchAcknowledged S.sdk w.d) := by
  obtain ⟨fits, -⟩ := course.payload r rfl
  obtain ⟨-, -, ending, -, active, -, -, uncounted, past⟩ :=
    Phase.next_spec _ _ (dispatchNext_mem S.sdk w.d)
  obtain ⟨sent, wholly, ended, counted, -⟩ := course.rows
  have same : (items ++ [r]) ++ (none : Option Response).toList =
      items ++ (some r).toList := by simp
  refine ⟨by rwa [same], fun h _ => ?_, fun h => absurd h ending, fun h uncount n => ?_,
    fun h clean counts => ?_⟩
  · rw [same]
    exact wholly (active h).1 (active h).2
  · have preparing := uncounted h uncount
    have phase : w.d.phase ≠ .count := fun h => by rw [h] at preparing; cases preparing
    have plain : w.d.phase.counted = false := by
      cases h : w.d.phase <;> rw [h] at preparing <;> first | rfl | cases preparing
    rw [mem_append, mem_singleton]
    rintro (mem | here)
    · exact counted (active h).1 plain n mem
    · exact phase (fits.place.2 n here.symm)
  · obtain ⟨n, mem⟩ := counts
    rcases past h fits.going with last | failed | ⟨active, plain, other⟩
    · obtain ⟨values, all⟩ := ended last
      exact ⟨values, by simpa using all⟩
    · rw [Fits, failed] at fits
      exact absurd fits (clean r (by simp))
    · rw [mem_append, mem_singleton] at mem
      rcases mem with mem | here
      · exact absurd mem (counted active plain n)
      · exact absurd (fits.place.2 n here.symm) other

theorem Course.acknowledge (emitted : w.d.emitted) :
    dispatchAcknowledge S.sdk w = .ok () { w with d := dispatchAcknowledged S.sdk w.d } ∧
      Course S deprecated kind (items ++ [r]) none since
        { w with d := dispatchAcknowledged S.sdk w.d } := by
  obtain ⟨fits, -⟩ := course.payload r rfl
  have going := fits.going
  obtain ⟨reading, noError, -, -, active, preparing, finished, -, -⟩ :=
    Phase.next_spec _ _ (dispatchNext_mem S.sdk w.d)
  constructor
  · have pending : w.d.pending = true := course.pending
    unfold dispatchAcknowledge
    rw [if_neg (by simp [emitted, pending])]
    rw [if_neg]
    · rfl
    · rintro (phase | phase) <;> rw [phase] at going <;> cases going
  · refine ⟨course.tracked.congr rfl rfl rfl, course.owner.trans (reading going).symm,
      course.inPhase.acknowledged, course.scratch, course.room, course.eof, rfl, nofun, nofun,
      fun h => absurd h noError, course.expects_next, fun h => course.held (preparing h),
      fun h failed => ?_, course.rows_next⟩
    cases before : w.d.phase.preparing with
    | false =>
      exact course.balanced before fun h => by rw [going] at h; cases h
    | true =>
      -- A preparation that was answered to the end has no ERR packet in its reply.
      have past : (dispatchAcknowledged S.sdk w.d).phase.over := finished before h
      have now : w.d.phase.active := by
        cases phase : w.d.phase <;> rw [phase] at before <;> first | rfl | cases before
      obtain ⟨k, rfl, behind⟩ := (expects_active now).mp course.expects
      have done : [] ∈ rest S.sdk (dispatchAcknowledged S.sdk w.d) := by
        unfold rest
        cases phase : (dispatchAcknowledged S.sdk w.d).phase with
        | idle | terminal => exact Language.nil_mem_one
        | _ => rw [phase] at past; cases past
      have word := behind.step (fits.advance course.inPhase) [] done
      obtain ⟨e, mem, err⟩ := failed past
      exact absurd err (avoids_replyWords k _ word e (by simpa using mem))

end Course

end Acknowledge

end TurboDb.Mysql
