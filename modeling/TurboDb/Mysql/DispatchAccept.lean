import TurboDb.Mysql.DispatchReply

/-!
An accepted command starts a reply.

Each command is performed from a dispatcher that owns nothing. It ends with the
reply planned, or with a failure after which everything handed out, as the log
tells, is given back.
-/

namespace TurboDb.Mysql

open ByteOrder Effect Grammar SqlEvent RegistryWorld List

variable {σ : Type} {S : Setting σ} {deprecated : Bool} {w w' : DispatchWorld σ}
  {since : List SqlEvent}

section Engine

variable {sdk : Sdk σ} {sizes : Sizes} {live : σ → List Handle}

theorem lift_call_leaves {α : Type} {f : σ → Except Fault α × σ}
    {event : Except Fault α → SqlEvent} (kept : ∀ s, live (f s).2 = live s) :
    Leaves (fun w : RegistryWorld σ => live w.env.engine) (lift (Env.call f event)) := by
  intro w
  have same := kept w.env.engine
  unfold lift Env.call
  cases answered : f w.env.engine with
  | mk answer engine =>
    rw [answered] at same
    cases answer <;> exact same

theorem registryEntryClose_leaves (lawful : sdk.Lawful live) (i : Nat) :
    Leaves (fun w : RegistryWorld σ => live w.env.engine) (registryEntryClose sdk i) := by
  intro w
  unfold registryEntryClose
  cases (w.entry i).statement with
  | none => rfl
  | some statement =>
    have kept := lawful.close statement w.env.engine
    have spec := Env.call_spec (sdk.close statement) (.closed statement) w.env
    dsimp only
    generalize Env.call (sdk.close statement) (.closed statement) w.env = called at spec
    cases called with
    | ok a env =>
      rw [spec.1] at kept
      exact kept
    | error e env =>
      obtain ⟨fault, rfl, engine, -⟩ := spec
      rw [engine] at kept
      dsimp only
      split_ifs <;> exact kept

theorem registryPublish_leaves (lawful : sdk.Lawful live) (i : Nat) (statement : Handle) :
    Leaves (fun w : RegistryWorld σ => live w.env.engine)
      (registryPublish sdk sizes i statement) := by
  intro w
  have cached := registryCache_leaves sizes lawful i (sdk.parameters statement)
    (sdk.columns statement) w
  unfold registryPublish
  dsimp only
  cases made : registryCache sdk sizes i (sdk.parameters statement) (sdk.columns statement) w with
  | ok a w1 =>
    rw [made] at cached
    exact cached
  | error e w1 =>
    rw [made] at cached
    have closed := registryEntryClose_leaves lawful i w1
    unfold registryAbandon
    dsimp only
    cases given_ : registryEntryClose sdk i w1 with
    | ok a w2 =>
      rw [given_] at closed
      exact closed.trans cached
    | error e w2 =>
      rw [given_] at closed
      exact closed.trans cached

theorem registryPrepare_leaves (sizes : Sizes) (lawful : sdk.Lawful live) (command : Command) :
    Leaves (fun w : RegistryWorld σ => live w.env.engine) (registryPrepare sdk sizes command) := by
  refine leaves_get.bind fun w => leaves_attempt.bind fun verified => ?_
  refine leaves_reject.bind fun _ => leaves_given.bind fun i => ?_
  refine (lift_call_leaves (lawful.prepare verified.sql)).bind fun statement => ?_
  refine Leaves.bind (leaves_modify ?_) fun _ => registryPublish_leaves lawful i statement
  exact fun w => rfl

theorem registryExecute_env (sdk : Sdk σ) (command : Command) (out : SqlResponse)
    (w : RegistryWorld σ) :
    (∃ e, outcome (·.env) (registryExecute sdk command out w) = .error e w.env) ∨
      ∃ statement values, outcome (·.env) (registryExecute sdk command out w) =
        Env.call (sdk.execute statement values) (.executed statement values) w.env := by
  obtain ⟨e, refused⟩ | ⟨i, statement, verified, -, -, runs⟩ := registryExecute_cases sdk w command out
  · rw [refused]
    exact .inl ⟨e, rfl⟩
  rw [runs]
  have cleared (count : Nat) (w : RegistryWorld σ) : (registryClear i count w).env = w.env := by
    unfold registryClear
    split_ifs <;> rfl
  unfold registryExecuteCleared registryExecuteEntry
  dsimp only
  cases executeDecode verified (sdk.parameters statement)
      w.registry.config.limits.maxParameterBytes
      ⟨(w.entry i).types.items, (w.entry i).typesValid, (w.entry i).values.items⟩ with
  | error status cache => exact .inl ⟨registryWireFailure status, by simp [outcome, cleared]⟩
  | ok _ cache =>
    refine .inr ⟨statement, cache.values.take (sdk.parameters statement), ?_⟩
    unfold lift
    dsimp only [setEntry]
    cases Env.call (sdk.execute statement (cache.values.take (sdk.parameters statement)))
        (.executed statement (cache.values.take (sdk.parameters statement))) w.env <;>
      simp [outcome, cleared]

end Engine

section Perform

variable {kind : CommandKind} {command : Command}

structure Starts (S : Setting σ) (deprecated : Bool) (w : DispatchWorld σ) : Prop where
  registry : RegistryInv S.sizes S.config w.d.registry
  live : S.live w.env.engine = []
  scratch : w.d.scratch = true
  room : minReplyBytes ≤ w.d.capacity
  eof : w.d.deprecateEof = deprecated
  phase : w.d.phase = .idle
  response : w.d.response = .default
  binary : w.d.binary = false
  pending : w.d.pending = false
  emitted : w.d.emitted = false

structure Fails (S : Setting σ) (w w' : DispatchWorld σ) : Prop where
  same : SameReply w.d w'.d
  since : ∃ since, w'.env.log = w.env.log ++ since ∧ Tracked S since w' ∧ Owes since w' ∧
    since.filterMap answer = []

/-- Events that hand out no result and give none back. -/
structure Quiet (since : List SqlEvent) : Prop where
  opened : since.filterMap opened = []
  released : since.filterMap released = []
  answers : since.filterMap answer = []

theorem Starts.quiet (starts : Starts S deprecated w) (quiet : Quiet since)
    (registry : RegistryInv S.sizes S.config w'.d.registry)
    (live : S.live w'.env.engine = S.live w.env.engine) (response : w'.d.response = w.d.response) :
    Tracked S since w' := by
  refine ⟨registry, ?_, ?_, ?_⟩
  · rw [live, starts.live, response, starts.response]
    rfl
  · rw [response, starts.response, quiet.opened, quiet.released]
    rfl
  · rw [quiet.opened]
    exact Nat.zero_le _

theorem Starts.fails (starts : Starts S deprecated w) (log : w'.env.log = w.env.log ++ since)
    (quiet : Quiet since) (balanced : Balanced since)
    (registry : RegistryInv S.sizes S.config w'.d.registry)
    (live : S.live w'.env.engine = S.live w.env.engine) (response : w'.d.response = w.d.response)
    (same : SameReply w.d w'.d) (phase : w'.d.phase.preparing = false) : Fails S w w' :=
  ⟨same, since, log, starts.quiet quiet registry live response,
    ⟨fun h => absurd h (by simp [phase]), fun _ => balanced⟩, quiet.answers⟩

def Plans (S : Setting σ) (deprecated : Bool) (kind : CommandKind) (w w' : DispatchWorld σ) :
    Prop :=
  w'.d.sequence = w.d.sequence ∧ w'.d.emitted = false ∧
    ∃ since, w'.env.log = w.env.log ++ since ∧ Course S deprecated (some kind) [] none since w'

def Performs (S : Setting σ) (deprecated : Bool) (kind : CommandKind) (w : DispatchWorld σ)
    (result : EStateM.Result Failure (DispatchWorld σ) Unit) : Prop :=
  match result with
  | .ok _ w' => Plans S deprecated kind w w'
  | .error _ w' => Fails S w w'

theorem course_start (tracked : Tracked S since w)
    (owner : w.d.response.result.isSome = w.d.phase.reading) (inPhase : InPhase S.sdk w.d)
    (scratch : w.d.scratch) (room : minReplyBytes ≤ w.d.capacity)
    (eof : w.d.deprecateEof = deprecated) (pending : w.d.pending = false)
    (emitted : w.d.emitted = false) (owes : Owes since w)
    (phase : w.d.phase.active ∧ w.d.phase ≠ .ending)
    (expects : rest S.sdk w.d ≤ replyWords deprecated kind)
    (answers : since.filterMap answer = []) :
    Course S deprecated (some kind) [] none since w := by
  refine ⟨tracked, owner, inPhase, scratch, room, eof, pending,
    fun h => absurd h (by simp [emitted]), nofun, fun h => ?_, ?_, owes.1, fun other _ => owes.2 other,
    ?_⟩
  · rw [h] at phase
    exact absurd phase.1 (by decide)
  · exact (expects_active phase.1).mpr ⟨kind, rfl, fun w mem => expects mem⟩
  · refine ⟨by simp, fun _ _ => by simpa using answers, fun h => absurd h phase.2, by simp, ?_⟩
    exact fun _ _ => by simp

section Starts

variable (starts : Starts S deprecated w)
include starts

theorem Starts.tracked : Tracked S [] w :=
  starts.quiet ⟨rfl, rfl, rfl⟩ starts.registry rfl rfl

theorem Starts.preparing : w.d.phase.preparing = false := by
  rw [starts.phase]
  rfl

theorem plans_ok (log : w'.env.log = w.env.log ++ since) (tracked : Tracked S since w')
    (result : w'.d.response.result = none) (phase : w'.d.phase = .ok) (same : SameReply w.d w'.d)
    (pending : w'.d.pending = false) (emitted : w'.d.emitted = false) (balanced : Balanced since)
    (answers : since.filterMap answer = [])
    (expects : letter (IsOk deprecated) ≤ replyWords deprecated kind) :
    Plans S deprecated kind w w' := by
  refine ⟨same.sequence, emitted, since, log, course_start tracked ?_ ?_
    (same.scratch.trans starts.scratch) (by rw [same.capacity]; exact starts.room)
    (same.deprecated.trans starts.eof) pending emitted ?_ ?_ ?_ answers⟩
  · rw [result, phase]
    rfl
  · rw [InPhase, phase]
    trivial
  · exact ⟨fun h => absurd h (by simp [phase, Phase.preparing]), fun _ => balanced⟩
  · rw [phase]
    exact ⟨rfl, by simp⟩
  · have eof : w'.d.deprecateEof = deprecated := same.deprecated.trans starts.eof
    simpa [rest, phase, eof] using expects

theorem performs_ping (kind : command.kind = .ping) :
    Performs S deprecated .ping w (dispatchPerform S.sdk S.sizes S.locale command w) := by
  unfold dispatchPerform
  rw [kind]
  dsimp only
  rw [run_bind_ok run_modify, run_bind]
  have tracked : Tracked S [] { w with d.phase := .ok } := starts.tracked.congr rfl rfl rfl
  have none : w.d.response.result = none := by rw [starts.response]; rfl
  obtain ⟨flags, observed⟩ | ⟨e, observed⟩ := dispatchState_leaves.same { w with d.phase := .ok }
  · rw [observed]
    exact plans_ok starts (append_nil _).symm tracked none rfl ⟨rfl, rfl, rfl, rfl⟩
      starts.pending starts.emitted rfl rfl (le_refl _)
  · rw [observed]
    exact starts.fails (append_nil _).symm ⟨rfl, rfl, rfl⟩ rfl starts.registry rfl rfl
      ⟨rfl, rfl, rfl, rfl⟩ rfl

theorem Starts.unknown (errorCode : UInt16) : Fails S w { w with d := { w.d with errorCode } } :=
  starts.fails (append_nil _).symm ⟨rfl, rfl, rfl⟩ rfl starts.registry rfl rfl
    ⟨rfl, rfl, rfl, rfl⟩ starts.preparing

end Starts

theorem registryReset_spec (S : Setting σ) (id : UInt32) (r : RegistryWorld σ) :
    (final (registryReset S.sdk id r)).registry = r.registry ∧
      S.live (final (registryReset S.sdk id r)).env.engine = S.live r.env.engine ∧
      ∃ since, (final (registryReset S.sdk id r)).env.log = r.env.log ++ since ∧ Quiet since ∧
        Balanced since := by
  rw [registryReset, run_bind]
  obtain ⟨statement, looked⟩ | ⟨e, looked⟩ :=
    (registryStatement_leaves id).same r
  swap
  · rw [looked]
    exact ⟨rfl, rfl, [], (append_nil _).symm, ⟨rfl, rfl, rfl⟩, rfl⟩
  · rw [looked]
    have kept := S.lawful.reset statement r.env.engine
    have spec := Env.call_spec (S.sdk.reset statement) (.rewound statement) r.env
    unfold lift
    dsimp only
    generalize Env.call (S.sdk.reset statement) (.rewound statement) r.env = called at spec
    cases called with
    | ok a env =>
      rw [spec.1] at kept
      exact ⟨rfl, kept, _, spec.2, ⟨rfl, rfl, rfl⟩, rfl⟩
    | error e env =>
      obtain ⟨fault, rfl, engine, log⟩ := spec
      rw [engine] at kept
      exact ⟨rfl, kept, _, log, ⟨rfl, rfl, rfl⟩, rfl⟩

theorem performs_reset (starts : Starts S deprecated w) (kind : command.kind = .stmtReset) :
    Performs S deprecated .stmtReset w (dispatchPerform S.sdk S.sizes S.locale command w) := by
  unfold dispatchPerform
  rw [kind]
  dsimp only
  rw [run_bind, dispatchUnknown]
  by_cases known : registryContains w.d.registry command.statementId
  swap
  · rw [if_neg known]
    exact starts.unknown _
  rw [if_pos known]
  dsimp only
  rw [run_bind_ok run_modify]
  obtain ⟨registry, live, since, log, quiet, balanced⟩ :=
    registryReset_spec S command.statementId ⟨w.d.registry, w.env⟩
  have none : w.d.response.result = none := by rw [starts.response]; rfl
  have ended := inRegistry_final (registryReset S.sdk command.statementId) { w with d.phase := .ok }
  rw [registry] at ended
  obtain ⟨a, done⟩ | ⟨e, done⟩ := ends_at ended
  · rw [done]
    exact plans_ok starts log (starts.quiet quiet starts.registry live rfl) none rfl
      ⟨rfl, rfl, rfl, rfl⟩ starts.pending starts.emitted balanced quiet.answers (le_refl _)
  · rw [done]
    exact starts.fails log quiet balanced starts.registry live rfl ⟨rfl, rfl, rfl, rfl⟩ rfl

theorem performs_plan (starts : Starts S deprecated w)
    (log : w'.env.log = w.env.log ++ since) (tracked : Tracked S since w')
    (same : SameReply w.d w'.d) (phase : w'.d.phase = .idle) (pending : w'.d.pending = false)
    (emitted : w'.d.emitted = false) (balanced : Balanced since)
    (answers : since.filterMap answer = [])
    (responds : w'.d.response.kind = .command ∧ w'.d.response.result = none ∨
      ∃ result, w'.d.response.kind = .rows ∧ w'.d.response.result = some result)
    (words : replyWords deprecated kind = queryReply deprecated w'.d.binary) :
    Performs S deprecated kind w (dispatchPlan S.sdk S.locale w') := by
  have eof : w'.d.deprecateEof = deprecated := same.deprecated.trans starts.eof
  unfold dispatchPlan
  rcases responds with ⟨command, none⟩ | ⟨result, rows, some⟩
  · rw [command]
    refine plans_ok starts log (tracked.congr rfl rfl rfl) none rfl
      ⟨same.scratch, same.capacity, same.sequence, same.deprecated⟩ pending emitted balanced answers ?_
    rw [words]
    exact fun w mem => .inl mem
  · rw [rows]
    by_cases width : dispatchColumns S.sdk w'.d.response.result = 0 ∨
        dispatchColumns S.sdk w'.d.response.result > 0xFFFF
    · rw [if_pos width]
      exact ⟨same, since, log, tracked,
        ⟨fun h => absurd h (by simp [phase, Phase.preparing]), fun _ => balanced⟩, answers⟩
    rw [if_neg width]
    have counting : Tracked S since { w' with d.phase := .count } := tracked.congr rfl rfl rfl
    have owes : Owes since { w' with d.phase := .count } :=
      ⟨fun h => Bool.noConfusion h, fun _ => balanced⟩
    obtain ⟨a, measured⟩ | ⟨e, measured⟩ :=
      (dispatchPreflight_leaves S.locale).same { w' with d.phase := .count }
    swap
    · rw [measured]
      exact ⟨⟨same.scratch, same.capacity, same.sequence, same.deprecated⟩, since, log, counting,
        owes, answers⟩
    · rw [measured]
      have wide : 0 < dispatchColumns S.sdk w'.d.response.result := by omega
      refine ⟨same.sequence, emitted, since, log, course_start counting ?_ wide
        (same.scratch.trans starts.scratch) (by rw [same.capacity]; exact starts.room) eof pending
        emitted owes ⟨rfl, by simp⟩ ?_ answers⟩
      · rw [some]
        rfl
      · obtain ⟨n, count⟩ := Nat.exists_eq_add_of_lt wide
        have planned : rest S.sdk { w'.d with phase := .count } =
            rowsReply deprecated w'.d.binary (n + 1) := by
          simp [rest, eof, count]
        rw [words, planned]
        exact fun w mem => .inr ⟨n, mem⟩

theorem tracked_response (w' : DispatchWorld σ) (event : SqlEvent) {before : σ}
    {response : SqlResponse} (responds : Responds S.live before (.ok response, w'.env.engine))
    (live : S.live before = []) (registry : RegistryInv S.sizes S.config w'.d.registry)
    (given : w'.d.response = response)
    (opened : event.opened = response.result) (released : event.released = none) :
    Tracked S [event] w' ∧
      (w'.d.response.kind = .command ∧ w'.d.response.result = none ∨
        ∃ result, w'.d.response.kind = .rows ∧ w'.d.response.result = some result) := by
  subst given
  rcases responds with ⟨command, none, kept⟩ | ⟨result, rows, some, kept⟩
  · refine ⟨⟨registry, ?_, ?_, ?_⟩, .inl ⟨command, none⟩⟩
    · rw [kept, live, none]
      rfl
    · simp [opened, released, none]
    · simp [opened, none]
  · refine ⟨⟨registry, ?_, ?_, ?_⟩, .inr ⟨result, rows, some⟩⟩
    · rw [kept, live, some]
      rfl
    · simp [opened, released, some]
    · simp [opened, some]

theorem performs_query (starts : Starts S deprecated w) (kind : command.kind = .query) :
    Performs S deprecated .query w (dispatchPerform S.sdk S.sizes S.locale command w) := by
  unfold dispatchPerform
  rw [kind]
  dsimp only
  rw [run_bind]
  have responds := S.lawful.run command.sql w.env.engine
  have spec := Env.call_spec (S.sdk.run command.sql) (.ran command.sql) w.env
  unfold DispatchWorld.engine
  generalize Env.call (S.sdk.run command.sql) (.ran command.sql) w.env = called at spec
  cases called with
  | error e env =>
    obtain ⟨fault, rfl, engine, log⟩ := spec
    rw [engine] at responds
    exact starts.fails log ⟨rfl, rfl, rfl⟩ rfl starts.registry responds rfl ⟨rfl, rfl, rfl, rfl⟩
      starts.preparing
  | ok response env =>
    obtain ⟨engine, log⟩ := spec
    rw [engine] at responds
    obtain ⟨tracked, planned⟩ := tracked_response
      ⟨{ w.d with response := response }, env⟩ (.ran command.sql (.ok response))
      responds starts.live starts.registry rfl rfl rfl
    refine performs_plan starts log tracked ⟨rfl, rfl, rfl, rfl⟩ starts.phase starts.pending
      starts.emitted rfl rfl planned ?_
    rw [replyWords, starts.binary]

theorem performs_execute (starts : Starts S deprecated w) (kind : command.kind = .stmtExecute) :
    Performs S deprecated .stmtExecute w (dispatchPerform S.sdk S.sizes S.locale command w) := by
  unfold dispatchPerform
  rw [kind]
  dsimp only
  rw [run_bind, dispatchUnknown]
  by_cases known : registryContains w.d.registry command.statementId
  swap
  · rw [if_neg known]
    exact starts.unknown _
  rw [if_pos known]
  dsimp only
  rw [run_bind_ok run_modify, run_bind_ok run_get, run_bind]
  have env := registryExecute_env S.sdk command w.d.response ⟨w.d.registry, w.env⟩
  have inv := (RegistryCall.run_spec S.sdk starts.registry S.size
    (.execute command w.d.response) (w := ⟨w.d.registry, w.env⟩)).inv
  rw [RegistryCall.run, final_map] at inv
  unfold DispatchWorld.inRegistry
  cases done : registryExecute S.sdk command w.d.response ⟨w.d.registry, w.env⟩ with
  | error e r =>
    rw [done] at env inv
    rcases env with ⟨e', same⟩ | ⟨statement, values, called⟩
    · have env : r.env = w.env := (EStateM.Result.error.inj same).2
      exact starts.fails (show r.env.log = w.env.log ++ [] by rw [env, append_nil])
        ⟨rfl, rfl, rfl⟩ rfl inv (by rw [env]) rfl
        ⟨rfl, rfl, rfl, rfl⟩ starts.preparing
    · have responds := S.lawful.execute statement values w.env.engine
      have spec := Env.call_spec (S.sdk.execute statement values) (.executed statement values) w.env
      rw [← called] at spec
      obtain ⟨fault, -, engine, log⟩ := spec
      rw [engine] at responds
      exact starts.fails log ⟨rfl, rfl, rfl⟩ rfl inv responds rfl ⟨rfl, rfl, rfl, rfl⟩
        starts.preparing
  | ok response r =>
    rw [done] at env inv
    rcases env with ⟨e', same⟩ | ⟨statement, values, called⟩
    · cases same
    have responds := S.lawful.execute statement values w.env.engine
    have spec := Env.call_spec (S.sdk.execute statement values) (.executed statement values) w.env
    rw [← called] at spec
    obtain ⟨engine, log⟩ := spec
    rw [engine] at responds
    dsimp only
    obtain ⟨tracked, planned⟩ := tracked_response
      ⟨{ w.d with binary := true, registry := r.registry, response := response }, r.env⟩
      (.executed statement values (.ok response)) responds starts.live inv rfl rfl rfl
    exact performs_plan starts log tracked ⟨rfl, rfl, rfl, rfl⟩ starts.phase starts.pending
      starts.emitted rfl rfl planned rfl

theorem balanced_prepare {r r' : RegistryWorld σ} {failure : Prop}
    (live : S.live r.env.engine = [])
    (outcome : Released r r' ∨ failure ∧ Broken S.sdk r r') :
    ∃ since, r'.env.log = r.env.log ++ since ∧ Quiet since ∧ Balanced since := by
  rcases outcome with ⟨-, log | ⟨sql, fault, log⟩ | ⟨sql, statement, log⟩⟩ |
    ⟨-, sql, statement, fault, s, answer, same, log, -⟩
  · exact ⟨[], by rw [log, append_nil], ⟨rfl, rfl, rfl⟩, rfl⟩
  · exact ⟨_, log, ⟨rfl, rfl, rfl⟩, rfl⟩
  · exact ⟨_, log, ⟨rfl, rfl, rfl⟩, rfl⟩
  · have other : fault.status ≠ .busy := fun busy =>
      S.lawful.busy statement s fault answer busy (by rw [same S.live S.lawful, live])
    have withdrawn : withdrawn (.closed statement (.error fault)) = some statement :=
      if_neg other
    refine ⟨_, log, ⟨rfl, rfl, rfl⟩, ?_⟩
    change [statement] = [SqlEvent.closed statement (.error fault)].filterMap SqlEvent.withdrawn
    simp [withdrawn]

theorem performs_prepare (starts : Starts S deprecated w) (kind : command.kind = .stmtPrepare) :
    Performs S deprecated .stmtPrepare w (dispatchPerform S.sdk S.sizes S.locale command w) := by
  unfold dispatchPerform
  rw [kind]
  dsimp only
  rw [run_bind]
  have spec := registryPrepare_spec S.sdk (w := ⟨w.d.registry, w.env⟩) starts.registry S.size command
  have live := registryPrepare_leaves S.sizes S.lawful command ⟨w.d.registry, w.env⟩
  have none : w.d.response.result = none := by rw [starts.response]; rfl
  unfold DispatchWorld.inRegistry
  cases done : registryPrepare S.sdk S.sizes command ⟨w.d.registry, w.env⟩ with
  | error e r =>
    rw [done] at live
    obtain ⟨inv, -, outcome⟩ := spec.error done
    obtain ⟨since, log, quiet, balanced⟩ := balanced_prepare starts.live outcome
    exact starts.fails log quiet balanced inv live rfl ⟨rfl, rfl, rfl, rfl⟩ starts.preparing
  | ok p r =>
    rw [done] at live
    obtain ⟨inv, ready, more, named, -, opened⟩ := spec.ok done
    obtain ⟨i, sql, statement, found, held, connection, log⟩ :=
      opened.find starts.registry more named
    have connected : w.d.registry.connection := by
      simp only [registryReady, bind_eq_ok, reject_eq_ok, exists_unit] at ready
      simpa using ready.1
    dsimp only
    rw [run_bind_ok run_modify]
    generalize made : (⟨{ w.d with registry := r.registry, prepared := p, phase := .prepare },
      r.env⟩ : DispatchWorld σ) = w'
    have tracked : Tracked S [.prepared sql (.ok statement)] w' := by
      subst made
      exact starts.quiet ⟨rfl, rfl, rfl⟩ inv live rfl
    have owes : Owes [.prepared sql (.ok statement)] w' := by
      subst made
      refine ⟨fun _ => ⟨none, connection.trans connected, i, statement, found, held, rfl, rfl⟩,
        fun h => Bool.noConfusion h⟩
    have same : SameReply w.d w'.d := by
      subst made
      exact ⟨rfl, rfl, rfl, rfl⟩
    have logged : w'.env.log = w.env.log ++ [.prepared sql (.ok statement)] := by
      subst made
      exact log
    obtain ⟨a, measured⟩ | ⟨e, measured⟩ := (dispatchPreflight_leaves S.locale).same w'
    swap
    · rw [measured]
      exact ⟨same, _, logged, tracked, owes, rfl⟩
    · rw [measured]
      have eof : w'.d.deprecateEof = deprecated := same.deprecated.trans starts.eof
      have phase : w'.d.phase = .prepare := by
        subst made
        rfl
      have emitted : w'.d.emitted = false := by
        subst made
        exact starts.emitted
      refine ⟨same.sequence, emitted, _, logged, course_start tracked ?_ ?_
        (same.scratch.trans starts.scratch) (by rw [same.capacity]; exact starts.room) eof ?_
        emitted owes ?_ ?_ rfl⟩
      · subst made
        rw [none]
        rfl
      · rw [InPhase, phase]
        trivial
      · subst made
        exact starts.pending
      · rw [phase]
        exact ⟨rfl, by simp⟩
      · have planned : rest S.sdk w'.d = prepareReply deprecated w'.d.prepared := by
          simp [rest, phase, eof]
        rw [planned]
        exact fun w mem => ⟨_, mem⟩

end Perform

theorem proper_replyWords {kind : CommandKind} (replied : kind ≠ .quit ∧ kind ≠ .stmtClose) :
    Proper (replyWords deprecated kind) := by
  cases kind with
  | quit => exact absurd rfl replied.1
  | stmtClose => exact absurd rfl replied.2
  | ping | stmtReset => exact proper_letter isOk_some
  | query | stmtExecute => exact (proper_letter isOk_some).mono fun w mem => .inl mem
  | stmtPrepare => exact (proper_prepareReply .zero).mono fun w mem => ⟨_, mem⟩

theorem Fails.course {kind : Option CommandKind} (fails : Fails S w w') (failure : Failure)
    (starts : Starts S deprecated w)
    (expects : Behind [] (replies deprecated kind) (letter IsErr)) :
    (dispatchFail S.sdk failure w').d.sequence = w.d.sequence ∧
      (dispatchFail S.sdk failure w').d.emitted = false ∧
      ∃ since, (dispatchFail S.sdk failure w').env.log = w.env.log ++ since ∧
        Course S deprecated kind [] none since (dispatchFail S.sdk failure w') := by
  obtain ⟨same, since, log, tracked, owes, answers⟩ := fails
  obtain ⟨more, log', course, -, sequence⟩ := course_fail tracked owes failure expects
    (same.scratch.trans starts.scratch) (by rw [same.capacity]; exact starts.room)
    (same.deprecated.trans starts.eof) (by simp)
  refine ⟨sequence.trans same.sequence, ?_, since ++ more, ?_, course⟩
  · exact Bool.eq_false_iff.mpr fun h => by simpa using course.emitted h
  · rw [log', log, append_assoc]

theorem course_over {kind : CommandKind} (tracked : Tracked S since w)
    (result : w.d.response.result = none) (past : w.d.phase.over)
    (scratch : w.d.scratch) (room : minReplyBytes ≤ w.d.capacity)
    (eof : w.d.deprecateEof = deprecated) (pending : w.d.pending = false)
    (emitted : w.d.emitted = false) (silent : replyWords deprecated kind = 1)
    (answers : since.filterMap answer = []) :
    Course S deprecated (some kind) [] none since w := by
  have phase : w.d.phase = .idle ∨ w.d.phase = .terminal := by
    cases h : w.d.phase <;> rw [h] at past <;> first | exact .inl rfl | exact .inr rfl | cases past
  refine ⟨tracked, ?_, ?_, scratch, room, eof, pending, fun h => absurd h (by simp [emitted]), nofun,
    ?_, ?_, ?_, fun _ failed => ?_, ?_⟩
  · rw [result]
    rcases phase with phase | phase <;> rw [phase] <;> rfl
  · rcases phase with phase | phase <;> rw [InPhase, phase] <;> trivial
  · rcases phase with phase | phase <;> rw [phase] <;> nofun
  · have plain : w.d.phase.active = false := by rcases phase with phase | phase <;> rw [phase] <;> rfl
    have done : rest S.sdk w.d = 1 := by rcases phase with phase | phase <;> simp [rest, phase]
    rw [Expects, if_neg (by simp [plain]), done, replies, silent]
    exact fun w mem => le_interrupted mem
  · rcases phase with phase | phase <;> rw [phase] <;> exact fun h => Bool.noConfusion h
  · obtain ⟨r, mem, -⟩ := failed past
    cases mem
  · refine ⟨by simp, fun _ _ => by simpa using answers, fun h => ?_, by simp, fun _ _ h => ?_⟩
    · rcases phase with phase | phase <;> rw [phase] at h <;> cases h
    · obtain ⟨n, mem⟩ := h
      cases mem

theorem registryClose_effect (S : Setting σ) (id : UInt32) (r : RegistryWorld σ) :
    S.live (final (registryClose S.sdk id r)).env.engine = S.live r.env.engine ∧
      ∃ more, (final (registryClose S.sdk id r)).env.log = r.env.log ++ more ∧ Quiet more := by
  have nothing : ∃ more, r.env.log = r.env.log ++ more ∧ Quiet more :=
    ⟨[], (append_nil _).symm, rfl, rfl, rfl⟩
  rw [registryClose, run_bind_ok run_get]
  rw [run_bind_reject]
  split_ifs with invalid
  · exact ⟨rfl, nothing⟩
  cases registryFind r.registry id with
  | none => exact ⟨rfl, nothing⟩
  | some i =>
    have spec := registryEntryClose_spec S.sdk i r
    change S.live (final (registryEntryClose S.sdk i r)).env.engine = _ ∧
      ∃ more, (final (registryEntryClose S.sdk i r)).env.log = _ ∧ Quiet more
    refine ⟨registryEntryClose_leaves S.lawful i r, ?_⟩
    cases closed : registryEntryClose S.sdk i r with
    | ok a r' =>
      rw [closed] at spec
      refine ⟨_, spec.2, ?_⟩
      cases (r.entry i).statement <;> exact ⟨rfl, rfl, rfl⟩
    | error e r' =>
      rw [closed] at spec
      obtain ⟨statement, fault, -, -, -, log, -⟩ := spec
      exact ⟨_, log, rfl, rfl, rfl⟩

def requestKind (maxCommandBytes : Nat) (payload : Bytes) : Option CommandKind :=
  match commandDecode payload maxCommandBytes with
  | .ok command => some command.kind
  | .error _ => none

/-- A dispatcher in use: it is between two commands or answers one. -/
def Serves (S : Setting σ) (deprecated : Bool) (w : DispatchWorld σ) : Prop :=
  ∃ kind items outgoing since, Course S deprecated kind items outgoing since w

def Accepts (S : Setting σ) (deprecated : Bool) (kind : Option CommandKind) (w w' : DispatchWorld σ) :
    Prop :=
  w'.d.sequence = w.d.sequence ∧ w'.d.emitted = false ∧
    ∃ since, w'.env.log = w.env.log ++ since ∧ Course S deprecated kind [] none since w'

theorem Starts.over (starts : Starts S deprecated w)
    (tracked : Tracked S since w') (answers : since.filterMap answer = [])
    (same : SameReply w.d w'.d) (response : w'.d.response = w.d.response)
    (pending : w'.d.pending = w.d.pending) (emitted : w'.d.emitted = w.d.emitted)
    (past : w'.d.phase.over) (kind : CommandKind)
    (silent : replyWords deprecated kind = 1) : Course S deprecated (some kind) [] none since w' :=
  course_over tracked (by rw [response, starts.response]; rfl) past
    (same.scratch.trans starts.scratch) (by rw [same.capacity]; exact starts.room)
    (same.deprecated.trans starts.eof) (pending.trans starts.pending)
    (emitted.trans starts.emitted) silent answers

theorem dispatchCommand_spec (starts : Starts S deprecated w) (command : Command) :
    match dispatchCommand S.sdk S.sizes S.locale command w with
    | .ok _ w' => Accepts S deprecated (some command.kind) w w'
    | .error _ w' => Serves S deprecated w' := by
  have replied (named : command.kind ≠ .quit ∧ command.kind ≠ .stmtClose)
      (performs : Performs S deprecated command.kind w
        (dispatchPerform S.sdk S.sizes S.locale command w)) :
      match (match dispatchPerform S.sdk S.sizes S.locale command w with
        | .ok _ w => .ok () w
        | .error failure w => .ok () (dispatchFail S.sdk failure w) :
          EStateM.Result Failure (DispatchWorld σ) Unit) with
      | .ok _ w' => Accepts S deprecated (some command.kind) w w'
      | .error _ w' => Serves S deprecated w' := by
    cases done : dispatchPerform S.sdk S.sizes S.locale command w with
    | ok a w' =>
      rw [done] at performs
      exact performs
    | error failure w' =>
      rw [done] at performs
      have whole : Behind [] (replyWords deprecated command.kind)
          (replyWords deprecated command.kind) := fun _ mem => mem
      exact Fails.course performs failure starts (whole.interrupt (proper_replyWords named))
  unfold dispatchCommand
  cases kind : command.kind with
  | quit =>
    refine ⟨rfl, starts.emitted, [], (append_nil _).symm, ?_⟩
    refine starts.over ?_ rfl ?_ ?_ ?_ ?_ ?_ .quit rfl
    · exact starts.tracked.congr rfl rfl rfl
    · exact ⟨rfl, rfl, rfl, rfl⟩
    all_goals rfl
  | stmtClose =>
    obtain ⟨live, more, log, quiet⟩ :=
      registryClose_effect S command.statementId ⟨w.d.registry, w.env⟩
    have inv := (registryClose_vacates S.sdk command.statementId
      ⟨w.d.registry, w.env⟩).inv starts.registry
    have ended := inRegistry_final (registryClose S.sdk command.statementId) w
    obtain ⟨a, closed⟩ | ⟨e, closed⟩ := ends_at ended
    · rw [closed]
      refine ⟨rfl, starts.emitted, more, log, ?_⟩
      refine starts.over ?_ quiet.answers ?_ ?_ ?_ ?_ ?_ .stmtClose rfl
      · exact starts.quiet quiet inv live rfl
      · exact ⟨rfl, rfl, rfl, rfl⟩
      · rfl
      · rfl
      · rfl
      · rw [starts.phase]
        rfl
    · rw [closed]
      refine ⟨some .quit, [], none, more, starts.over ?_ quiet.answers ?_ ?_ ?_ ?_ ?_ .quit rfl⟩
      · exact starts.quiet quiet inv live rfl
      · exact ⟨rfl, rfl, rfl, rfl⟩
      all_goals rfl
  | ping =>
    rw [kind] at replied
    exact replied ⟨nofun, nofun⟩ (performs_ping starts kind)
  | query =>
    rw [kind] at replied
    exact replied ⟨nofun, nofun⟩ (performs_query starts kind)
  | stmtPrepare =>
    rw [kind] at replied
    exact replied ⟨nofun, nofun⟩ (performs_prepare starts kind)
  | stmtExecute =>
    rw [kind] at replied
    exact replied ⟨nofun, nofun⟩ (performs_execute starts kind)
  | stmtReset =>
    rw [kind] at replied
    exact replied ⟨nofun, nofun⟩ (performs_reset starts kind)

theorem Course.starts {kind : Option CommandKind} {items : List Response}
    {outgoing : Option Response}
    (course : Course S deprecated kind items outgoing since w) (phase : w.d.phase = .idle)
    (pending : w.d.pending = false) (sequence : UInt8) :
    Starts S deprecated { w with d := { w.d with
      sequence
      index := 0
      errorCode := 0
      closeAfterReply := false
      binary := false
      prepared := .zero
      response := .default
      diagnostic := diagnosticInit } } := by
  have quiet : w.d.response.result = none := by
    have owner := course.owner
    rw [phase] at owner
    exact Option.isSome_eq_false_iff.mp owner |> Option.isNone_iff_eq_none.mp
  refine ⟨course.tracked.registry, ?_, course.scratch, course.room, course.eof, phase, rfl, rfl,
    pending, ?_⟩
  · rw [← Option.toList_none, ← quiet]
    exact course.tracked.live
  · refine Bool.eq_false_iff.mpr fun h => ?_
    have held := course.emitted h
    rw [← course.pending, pending] at held
    cases held

theorem dispatchAccept_spec (serves : Serves S deprecated w) (payload : Bytes) (sequence : UInt8) :
    match dispatchAccept S.sdk S.sizes S.locale payload sequence w with
    | .ok _ w' => w'.d.sequence = sequence ∧ w'.d.emitted = false ∧
      ∃ since, w'.env.log = w.env.log ++ since ∧
        Course S deprecated (requestKind S.config.maxCommandBytes payload) [] none since w'
    | .error _ w' => Serves S deprecated w' := by
  unfold dispatchAccept
  by_cases absent : w.d.scratch = false ∨ w.d.registry.connection = false
  · rw [if_pos absent]
    exact serves
  rw [if_neg absent]
  by_cases terminal : w.d.phase = .terminal
  · rw [if_pos terminal]
    exact serves
  rw [if_neg terminal]
  by_cases active : w.d.phase ≠ .idle ∨ w.d.pending
  · rw [if_pos active]
    exact serves
  rw [if_neg active]
  simp only [not_or, not_not, Bool.not_eq_true] at active absent
  obtain ⟨kind, items, outgoing, since, course⟩ := serves
  have starts := course.starts active.1 active.2 sequence
  have configured : w.d.registry.config = S.config :=
    course.tracked.registry.configured (by simpa using absent.2)
  dsimp only
  rw [configured, requestKind]
  cases decoded : commandDecode payload S.config.maxCommandBytes with
  | ok command => exact dispatchCommand_spec starts command
  | error status =>
    change match (if dispatchSilent payload = true then _ else _ :
      EStateM.Result Failure (DispatchWorld σ) Unit) with
      | .ok _ w' => _
      | .error _ w' => Serves S deprecated w'
    by_cases silent : dispatchSilent payload
    · rw [if_pos silent]
      refine ⟨some .quit, [], none, [], starts.over ?_ rfl ?_ ?_ ?_ ?_ ?_ .quit rfl⟩
      · exact starts.tracked.congr rfl rfl rfl
      · exact ⟨rfl, rfl, rfl, rfl⟩
      all_goals rfl
    · rw [if_neg silent]
      exact (starts.unknown _).course _ starts fun _ mem => mem

end TurboDb.Mysql
