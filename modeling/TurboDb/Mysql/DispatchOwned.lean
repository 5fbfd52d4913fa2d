import TurboDb.Mysql.Dispatch
import TurboDb.Mysql.RegistryInvariant

/-!
What the dispatcher owns, and what it gives back.

The log of the engine tells which results and statements were handed out and
given back since a command was accepted. A result is destroyed once; a statement
whose preparation is being answered is in its slot, and a failure on the way
closes it. Both rest on the contract of the engine: only a live result keeps a
statement from being closed, and there is none during a preparation.
-/

namespace TurboDb.Mysql

open ByteOrder Effect List

namespace SqlEvent

def opened : SqlEvent → Option Handle
  | .ran _ (.ok response) | .executed _ _ (.ok response) => response.result
  | _ => none

def released : SqlEvent → Option Handle
  | .destroyed result _ => some result
  | _ => none

def statement : SqlEvent → Option Handle
  | .prepared _ (.ok statement) => some statement
  | _ => none

/-- The statement that was given back; an engine that is busy keeps it. -/
def withdrawn : SqlEvent → Option Handle
  | .closed statement (.ok _) => some statement
  | .closed statement (.error fault) => if fault.status = .busy then none else some statement
  | _ => none

def answer : SqlEvent → Option (Except Fault SqlRow)
  | .fetched _ answer => some answer
  | _ => none

end SqlEvent

/-- An engine that keeps its contract, and the machine and limits it is served with. -/
structure Setting (σ : Type) where
  sdk : Sdk σ
  sizes : Sizes
  locale : Locale
  config : RegistryConfig
  live : σ → List Handle
  lawful : sdk.Lawful live
  size : config.maxWireBytes ≤ sizeMax

variable {σ : Type} (S : Setting σ)

/-- What holds of the owners while a command is served, in terms of the events since then. -/
structure Tracked (since : List SqlEvent) (w : DispatchWorld σ) : Prop where
  registry : RegistryInv S.sizes S.config w.d.registry
  live : S.live w.env.engine = w.d.response.result.toList
  results : since.filterMap SqlEvent.released ++ w.d.response.result.toList =
    since.filterMap SqlEvent.opened
  once : (since.filterMap SqlEvent.opened).length ≤ 1

def Balanced (since : List SqlEvent) : Prop :=
  since.filterMap SqlEvent.statement = since.filterMap SqlEvent.withdrawn

/-- The statement whose preparation is being answered is in its slot. -/
def Held (since : List SqlEvent) (w : DispatchWorld σ) : Prop :=
  w.d.response.result = none ∧ w.d.registry.connection = true ∧
    ∃ i statement, registryFind w.d.registry w.d.prepared.statementId = some i ∧
      (w.d.registry.slots.items.getD i .empty).statement = some statement ∧
      since.filterMap SqlEvent.statement = [statement] ∧
      since.filterMap SqlEvent.withdrawn = []

variable {S} {w : DispatchWorld σ} {since : List SqlEvent}

theorem dispatchRelease_spec (sdk : Sdk σ) (w : DispatchWorld σ) :
    (final (dispatchRelease sdk w)).d = { w.d with response.result := none } ∧
      (∃ answer, (final (dispatchRelease sdk w)).env.log =
        w.env.log ++ w.d.response.result.toList.map fun result => .destroyed result answer) ∧
      ∀ live, sdk.Lawful live → live w.env.engine = w.d.response.result.toList →
        live (final (dispatchRelease sdk w)).env.engine = [] := by
  unfold dispatchRelease
  cases held : w.d.response.result with
  | none =>
    refine ⟨?_, ⟨.ok (), by simp [final]⟩, fun live _ none => none⟩
    simp [final, ← held]
  | some result =>
    have spec := Env.call_spec (sdk.destroy result) (.destroyed result) w.env
    dsimp only
    generalize Env.call (sdk.destroy result) (.destroyed result) w.env = called at spec
    cases called with
    | ok a env =>
      refine ⟨rfl, ⟨_, spec.2⟩, fun live lawful one => ?_⟩
      have gone := lawful.destroy result w.env.engine
      rw [spec.1, one] at gone
      simpa [final] using gone
    | error e env =>
      obtain ⟨fault, rfl, engine, log⟩ := spec
      refine ⟨rfl, ⟨_, log⟩, fun live lawful one => ?_⟩
      have gone := lawful.destroy result w.env.engine
      rw [engine, one] at gone
      simpa [final] using gone

theorem filterMap_release (result : Option Handle) (answer : Except Fault Unit) :
    let events := result.toList.map fun result => SqlEvent.destroyed result answer
    events.filterMap SqlEvent.released = result.toList ∧
      events.filterMap SqlEvent.opened = [] ∧ events.filterMap SqlEvent.statement = [] ∧
      events.filterMap SqlEvent.withdrawn = [] ∧ events.filterMap SqlEvent.answer = [] := by
  cases result <;> exact ⟨rfl, rfl, rfl, rfl, rfl⟩

theorem Tracked.release (tracked : Tracked S since w) :
    ∃ more, (final (dispatchRelease S.sdk w)).env.log = w.env.log ++ more ∧
      (final (dispatchRelease S.sdk w)).d = { w.d with response.result := none } ∧
      Tracked S (since ++ more) (final (dispatchRelease S.sdk w)) ∧
      more.filterMap SqlEvent.statement = [] ∧ more.filterMap SqlEvent.withdrawn = [] ∧
      more.filterMap SqlEvent.answer = [] := by
  obtain ⟨same, ⟨answer, log⟩, live⟩ := dispatchRelease_spec S.sdk w
  obtain ⟨released, opened, statement, withdrawn, fetched⟩ :=
    filterMap_release w.d.response.result answer
  refine ⟨_, log, same, ?_, statement, withdrawn, fetched⟩
  refine ⟨?_, ?_, ?_, ?_⟩
  · rw [same]
    exact tracked.registry
  · rw [same]
    exact live S.live S.lawful tracked.live
  · rw [same, filterMap_append, filterMap_append, released, opened]
    simpa using tracked.results
  · rw [filterMap_append, opened, append_nil]
    exact tracked.once

theorem registryClose_held {r : RegistryWorld σ} {id : UInt32} {i : Nat} {statement : Handle}
    (quiet : S.live r.env.engine = []) (connected : r.registry.connection)
    (found : registryFind r.registry id = some i)
    (held : (r.registry.slots.items.getD i .empty).statement = some statement) :
    ∃ answer, (final (registryClose S.sdk id r)).env.log = r.env.log ++ [.closed statement answer] ∧
      SqlEvent.withdrawn (.closed statement answer) = some statement ∧
      S.live (final (registryClose S.sdk id r)).env.engine = [] := by
  obtain ⟨-, -, -, named⟩ := registryFind_held found
  have entry : (r.entry i).statement = some statement := held
  rw [registryClose, run_bind_ok run_get,
    run_bind_ok (run_reject (by simp [named, connected])), found]
  dsimp only
  unfold registryEntryClose
  rw [entry]
  have spec := Env.call_spec (S.sdk.close statement) (.closed statement) r.env
  have kept := S.lawful.close statement r.env.engine
  have busy := S.lawful.busy statement r.env.engine
  dsimp only
  generalize Env.call (S.sdk.close statement) (.closed statement) r.env = called at spec
  cases called with
  | ok a env =>
    rw [spec.1] at kept
    exact ⟨.ok (), spec.2, rfl, kept.trans quiet⟩
  | error e env =>
    obtain ⟨fault, rfl, engine, log⟩ := spec
    rw [engine] at kept busy
    have other : fault.status ≠ .busy := fun h => busy fault rfl h quiet
    dsimp only
    refine ⟨.error fault, ?_, if_neg other, ?_⟩
    · split_ifs <;> exact log
    · split_ifs <;> exact kept.trans quiet

/-- The dispatcher answers a preparation and holds its statement, or it owes none. -/
def Owes (since : List SqlEvent) (w : DispatchWorld σ) : Prop :=
  (w.d.phase.preparing = true → Held since w) ∧ (w.d.phase.preparing = false → Balanced since)

/-- What a failure leaves of the dispatcher. -/
structure SameReply (d d' : Dispatch) : Prop where
  scratch : d'.scratch = d.scratch
  capacity : d'.capacity = d.capacity
  sequence : d'.sequence = d.sequence
  deprecated : d'.deprecateEof = d.deprecateEof

theorem inRegistry_final {α : Type} (x : RegistryM σ α)
    (w : DispatchWorld σ) :
    final (DispatchWorld.inRegistry x w) =
      ⟨{ w.d with registry := (final (x ⟨w.d.registry, w.env⟩)).registry },
        (final (x ⟨w.d.registry, w.env⟩)).env⟩ := by
  unfold DispatchWorld.inRegistry
  cases x ⟨w.d.registry, w.env⟩ <;> rfl

theorem dispatchWithdraw_none (failure : Failure) (other : w.d.phase.preparing = false) :
    dispatchWithdraw S.sdk failure w = (failure, w) := by
  unfold dispatchWithdraw
  rw [if_neg (by simp [other])]

theorem dispatchWithdraw_some (failure : Failure) (preparing : w.d.phase.preparing)
    (named : w.d.prepared.statementId ≠ 0) :
    ∃ errorCode closeAfterReply, (dispatchWithdraw S.sdk failure w).2 =
      ⟨{ w.d with
          registry := (final (registryClose S.sdk w.d.prepared.statementId
            ⟨w.d.registry, w.env⟩)).registry
          prepared := .zero
          errorCode
          closeAfterReply },
        (final (registryClose S.sdk w.d.prepared.statementId ⟨w.d.registry, w.env⟩)).env⟩ := by
  unfold dispatchWithdraw
  rw [if_pos ⟨preparing, named⟩]
  have closed := inRegistry_final (registryClose S.sdk w.d.prepared.statementId) w
  cases h : DispatchWorld.inRegistry (registryClose S.sdk w.d.prepared.statementId) w with
  | ok a w' =>
    rw [h] at closed
    obtain rfl : w' = _ := closed
    exact ⟨_, _, rfl⟩
  | error e w' =>
    rw [h] at closed
    obtain rfl : w' = _ := closed
    exact ⟨_, _, rfl⟩

theorem Tracked.withdraw (tracked : Tracked S since w) (owes : Owes since w) (failure : Failure)
    (quiet : w.d.response.result = none) :
    ∃ more, (dispatchWithdraw S.sdk failure w).2.env.log = w.env.log ++ more ∧
      Tracked S (since ++ more) (dispatchWithdraw S.sdk failure w).2 ∧ Balanced (since ++ more) ∧
      more.filterMap SqlEvent.answer = [] ∧
      SameReply w.d (dispatchWithdraw S.sdk failure w).2.d ∧
      (dispatchWithdraw S.sdk failure w).2.d.response.result = none := by
  cases preparing : w.d.phase.preparing with
  | false =>
    rw [dispatchWithdraw_none failure preparing]
    refine ⟨[], (append_nil _).symm, ?_, ?_, rfl, ⟨rfl, rfl, rfl, rfl⟩, quiet⟩
    · rwa [append_nil]
    · rw [append_nil]
      exact owes.2 preparing
  | true =>
    obtain ⟨-, connected, i, statement, found, held, opened, closed⟩ := owes.1 preparing
    obtain ⟨-, -, -, named⟩ := registryFind_held found
    have live : S.live w.env.engine = [] := by rw [tracked.live, quiet]; rfl
    obtain ⟨answer, log, withdrawn, live'⟩ :=
      registryClose_held (r := ⟨w.d.registry, w.env⟩) live connected found held
    obtain ⟨errorCode, closeAfterReply, left⟩ :=
      dispatchWithdraw_some (S := S) failure preparing named
    rw [left]
    have others : SqlEvent.opened (.closed statement answer) = none ∧
        SqlEvent.released (.closed statement answer) = none ∧
        SqlEvent.statement (.closed statement answer) = none := ⟨rfl, rfl, rfl⟩
    refine ⟨_, log, ⟨?_, ?_, ?_, ?_⟩, ?_, rfl, ⟨rfl, rfl, rfl, rfl⟩, quiet⟩
    · exact (registryClose_vacates S.sdk w.d.prepared.statementId
        ⟨w.d.registry, w.env⟩).inv tracked.registry
    · simpa [quiet] using live'
    · simpa [others] using tracked.results
    · simpa [others] using tracked.once
    · simp [Balanced, opened, closed, withdrawn, others]

theorem dispatchDestroy_spec (sdk : Sdk σ) (failure : Failure) (w : DispatchWorld σ) :
    ∃ errorCode closeAfterReply, (dispatchDestroy sdk failure w).2 =
      { final (dispatchRelease sdk w) with d :=
        { (final (dispatchRelease sdk w)).d with errorCode, closeAfterReply } } := by
  unfold dispatchDestroy
  cases dispatchRelease sdk w with
  | ok a w' => exact ⟨w'.d.errorCode, w'.d.closeAfterReply, rfl⟩
  | error e w' => exact ⟨0, true, rfl⟩

theorem Tracked.congr {w' : DispatchWorld σ} (tracked : Tracked S since w)
    (env : w'.env = w.env) (registry : w'.d.registry = w.d.registry)
    (result : w'.d.response.result = w.d.response.result) : Tracked S since w' := by
  refine ⟨?_, ?_, ?_, tracked.once⟩
  · rw [registry]
    exact tracked.registry
  · rw [env, result]
    exact tracked.live
  · rw [result]
    exact tracked.results

theorem Owes.release {w' : DispatchWorld σ} {more : List SqlEvent} (owes : Owes since w)
    (statement : more.filterMap SqlEvent.statement = [])
    (withdrawn : more.filterMap SqlEvent.withdrawn = [])
    (phase : w'.d.phase = w.d.phase) (registry : w'.d.registry = w.d.registry)
    (prepared : w'.d.prepared = w.d.prepared) (result : w'.d.response.result = none) :
    Owes (since ++ more) w' := by
  refine ⟨fun preparing => ?_, fun other => ?_⟩
  · obtain ⟨-, connected, i, handle, found, held, opened, closed⟩ := owes.1 (by rwa [← phase])
    refine ⟨result, by rwa [registry], i, handle, by rwa [registry, prepared],
      by rwa [registry], ?_, ?_⟩
    · rw [filterMap_append, opened, statement, append_nil]
    · rw [filterMap_append, closed, withdrawn, append_nil]
  · have balanced := owes.2 (by rwa [← phase])
    rw [Balanced, filterMap_append, filterMap_append, statement, withdrawn,
      append_nil, append_nil]
    exact balanced

/-- What a failure makes of the dispatcher once everything is given back. -/
theorem dispatchFail_eq (sdk : Sdk σ) (failure : Failure) (w : DispatchWorld σ) :
    ∃ failure' diagnostic closeAfterReply errorCode, errorCode ≠ 0 ∧
      dispatchFail sdk failure w =
        { (dispatchWithdraw sdk failure' (dispatchDestroy sdk failure w).2).2 with d :=
          { (dispatchWithdraw sdk failure' (dispatchDestroy sdk failure w).2).2.d with
            diagnostic
            closeAfterReply
            errorCode
            phase := .error
            pending := false
            emitted := false } } := by
  unfold dispatchFail
  generalize dispatchDestroy sdk failure w = destroyed
  obtain ⟨failure', w1⟩ := destroyed
  dsimp only
  cases withdrawn : dispatchWithdraw sdk failure' w1 with
  | mk last w2 =>
  refine ⟨failure', last, _, if w2.d.errorCode ≠ 0 then w2.d.errorCode
    else if last.status = .invalidArgument then dispatchWrongArguments
    else if last.status = .unsupported then dispatchUnsupported
    else dispatchGeneralError, ?_, by rw [withdrawn]⟩
  split_ifs with code
  · exact code
  all_goals decide

theorem Tracked.fail (tracked : Tracked S since w) (owes : Owes since w) (failure : Failure) :
    ∃ more, (dispatchFail S.sdk failure w).env.log = w.env.log ++ more ∧
      Tracked S (since ++ more) (dispatchFail S.sdk failure w) ∧ Balanced (since ++ more) ∧
      more.filterMap SqlEvent.answer = [] ∧
      SameReply w.d (dispatchFail S.sdk failure w).d ∧
      (dispatchFail S.sdk failure w).d.response.result = none ∧
      (dispatchFail S.sdk failure w).d.phase = .error ∧
      (dispatchFail S.sdk failure w).d.pending = false ∧
      (dispatchFail S.sdk failure w).d.emitted = false ∧
      (dispatchFail S.sdk failure w).d.errorCode ≠ 0 := by
  obtain ⟨more1, log1, d1, tracked1, statement1, withdrawn1, answer1⟩ := tracked.release
  obtain ⟨errorCode, closeAfterReply, destroyed⟩ := dispatchDestroy_spec S.sdk failure w
  obtain ⟨failure', diagnostic, close, code, nonzero, failed⟩ := dispatchFail_eq S.sdk failure w
  rw [destroyed] at failed
  generalize final (dispatchRelease S.sdk w) = w1 at log1 d1 tracked1 failed
  have ready : Tracked S (since ++ more1)
      { w1 with d := { w1.d with errorCode, closeAfterReply } } := tracked1.congr rfl rfl rfl
  have quiet : w1.d.response.result = none := by rw [d1]
  have owing : Owes (since ++ more1) { w1 with d := { w1.d with errorCode, closeAfterReply } } :=
    owes.release statement1 withdrawn1 (by rw [d1]) (by rw [d1]) (by rw [d1]) quiet
  obtain ⟨more2, log2, tracked2, balanced, answer2, same, none⟩ :=
    ready.withdraw owing failure' quiet
  rw [failed]
  refine ⟨more1 ++ more2, ?_, ?_, ?_, ?_, ?_, none, rfl, rfl, rfl, nonzero⟩
  · rw [← append_assoc, ← log1]
    exact log2
  · rw [← append_assoc]
    exact tracked2.congr rfl rfl rfl
  · rwa [← append_assoc]
  · rw [filterMap_append, answer1, answer2]
    rfl
  · refine ⟨same.scratch.trans ?_, same.capacity.trans ?_, same.sequence.trans ?_,
      same.deprecated.trans ?_⟩
    all_goals
      rw [d1]

end TurboDb.Mysql
