import TurboDb.Library.Steps
import TurboDb.Redis.Resp

/-!
The repair of a pool of connections.

A slot whose stream ends goes back to the idle ones while the pool is ready. A
repair takes the pool out of that phase until it has walked from an invalid slot
to the last one, over as many calls as connections need. What they answer is left
to an environment.
-/

namespace TurboDb.Redis

open ByteOrder Decimal List

inductive PoolSlotState
  | closed | connecting | preparing | idle | borrowed | invalid
  deriving DecidableEq

inductive PoolPhase
  | connecting | ready | failed | closing | closed
  deriving DecidableEq

inductive PrepareStage
  | auth | select | readonly | done
  deriving DecidableEq

inductive ConnectKind
  | wait | done | error
  deriving DecidableEq

inductive StepKind
  | wait | item | done | error

structure PoolSlot where
  state : PoolSlotState
  streamRefs : Nat

structure Pool where
  username : Bytes
  password : Bytes
  database : Nat
  readonly : Bool
  slots : List PoolSlot
  phase : PoolPhase
  connectIndex : Nat
  prepareStage : PrepareStage
  prepareStream : Bool
  prepareItemSeen : Bool
  repairing : Bool

structure ConnectStep where
  kind : ConnectKind
  status : Salts
  connectedConnections : Nat

/-- What the connections of the slots answer; one that is not there is destroyed at once. -/
structure PoolEnv (σ : Type) where
  connectionDestroy : Nat → σ → Salts × σ
  connectionOpen : Nat → σ → Salts × σ
  connectionConnectNext : Nat → σ → (ConnectKind × Salts) × σ
  commandOpen : Nat → List Bytes → σ → Salts × σ
  streamNext : σ → (StepKind × Salts) × σ
  streamDestroy : σ → Salts × σ

section Connect

variable {σ : Type} (env : PoolEnv σ)

def poolConnectResult (p : Pool) (kind : ConnectKind) (status : Salts) : ConnectStep :=
  ⟨kind, status, p.connectIndex⟩

def poolFirstPrepare (p : Pool) : PrepareStage :=
  if p.password ≠ [] then .auth
  else if p.database ≠ 0 then .select
  else if p.readonly then .readonly
  else .done

def poolNextPrepare (p : Pool) (current : PrepareStage) : PrepareStage :=
  if current = .auth ∧ p.database ≠ 0 then .select
  else if (current = .auth ∨ current = .select) ∧ p.readonly then .readonly
  else .done

def Pool.put (p : Pool) (slot : PoolSlot) (state : PoolSlotState) : Pool :=
  { p with slots := p.slots.set p.connectIndex { slot with state := state } }

def Pool.interrupted (p : Pool) : Pool := { p with phase := if p.repairing then .ready else .failed }

def poolMarkConnectFailure (p : Pool) (slot : PoolSlot) : Pool := (p.put slot .invalid).interrupted

def poolOpenPrepare (p : Pool) (s : σ) : Salts × σ :=
  match p.prepareStage with
  | .auth =>
    env.commandOpen p.connectIndex
      ([ascii "AUTH"] ++ (if p.username = [] then [] else [p.username]) ++ [p.password]) s
  | .select => env.commandOpen p.connectIndex [ascii "SELECT", numeral p.database] s
  | .readonly => env.commandOpen p.connectIndex [ascii "READONLY"] s
  | .done => (.einval, s)

/-- What a turn of the walk ends a call with, the pool going on, or the end of the walk. -/
abbrev ConnectTurn (σ : Type) := Except (ConnectStep × Pool × σ) (Option (Pool × σ))

def connectStop (kind : ConnectKind) (status : Salts) (p : Pool) (s : σ) : ConnectTurn σ :=
  .error (poolConnectResult p kind status, p, s)

def poolPrepared (slot : PoolSlot) (p : Pool) (s : σ) : ConnectTurn σ :=
  match env.streamNext s with
  | ((.wait, _), s) => connectStop .wait .ok p s
  | ((.item, _), s) => .ok (some ({ p with prepareItemSeen := true }, s))
  | ((.error, status), s) =>
    let (destroyed, s) := env.streamDestroy s
    connectStop .error status (poolMarkConnectFailure { p with prepareStream := destroyed ≠ .ok } slot) s
  | ((.done, _), s) =>
    let (destroyed, s) := env.streamDestroy s
    let p := { p with prepareStream := destroyed ≠ .ok }
    if !p.prepareItemSeen then connectStop .error .eproto (poolMarkConnectFailure p slot) s
    else if p.prepareStream then connectStop .error .ebusy (poolMarkConnectFailure p slot) s
    else .ok (some ({ p with prepareStage := poolNextPrepare p p.prepareStage }, s))

def poolConnectTurn : Pool × σ → ConnectTurn σ
  | (p, s) =>
    match p.slots[p.connectIndex]? with
    | none => .ok none
    | some slot =>
      match slot.state with
      | .idle | .borrowed => .ok (some ({ p with connectIndex := p.connectIndex + 1 }, s))
      | .invalid =>
        if slot.streamRefs ≠ 0 then connectStop .error .ebusy p s
        else
          match env.connectionDestroy p.connectIndex s with
          | (.ok, s) => .ok (some (p.put slot .closed, s))
          | (status, s) => connectStop .error status p.interrupted s
      | .closed =>
        match env.connectionOpen p.connectIndex s with
        | (.ok, s) => .ok (some (p.put slot .connecting, s))
        | (status, s) => connectStop .error status (poolMarkConnectFailure p slot) s
      | .connecting =>
        match env.connectionConnectNext p.connectIndex s with
        | ((.wait, _), s) => connectStop .wait .ok p s
        | ((.error, .ebusy), s) => connectStop .error .ebusy p s
        | ((.error, status), s) => connectStop .error status (poolMarkConnectFailure p slot) s
        | ((.done, _), s) =>
          .ok (some ({ p.put slot .preparing with prepareStage := poolFirstPrepare p }, s))
      | .preparing =>
        if p.prepareStage = .done then
          .ok (some ({ p.put slot .idle with connectIndex := p.connectIndex + 1 }, s))
        else if p.prepareStream then poolPrepared env slot p s
        else
          match poolOpenPrepare env p s with
          | (.ok, s) => poolPrepared env slot { p with prepareStream := true, prepareItemSeen := false } s
          | (status, s) => connectStop .error status (poolMarkConnectFailure p slot) s

def poolConnectBegin (p : Pool) : Except ConnectStep Pool :=
  match p.phase with
  | .ready =>
    let index := p.slots.findIdx (·.state = .invalid)
    match p.slots[index]? with
    | none => .error (poolConnectResult p .done .ok)
    | some slot =>
      if slot.streamRefs ≠ 0 then .error (poolConnectResult p .error .ebusy)
      else .ok { p with phase := .connecting, connectIndex := index, repairing := true }
  | .connecting => .ok p
  | _ => .error (poolConnectResult p .error .eshutdown)

/-- A call, with a bounded number of turns. -/
def poolConnectNext (turns : Nat) (w : Pool × σ) : Option (ConnectStep × Pool × σ) :=
  match poolConnectBegin w.1 with
  | .error step => some (step, w)
  | .ok p =>
    match Steps.run (poolConnectTurn env) turns (p, w.2) with
    | none => none
    | some (.error ended) => some ended
    | some (.ok (p, s)) =>
      let p := { p with repairing := false, phase := .ready }
      some (poolConnectResult p .done .ok, p, s)

/-- The stream of a slot ends; `destroyed` is what its connection answers in a pool that is closing. -/
def poolReleaseStream (i : Nat) (usable : Bool) (destroyed : Salts) (p : Pool) : Pool :=
  let state :=
    if p.phase = .ready ∧ usable then .idle
    else if p.phase = .closing ∧ destroyed = .ok then .closed
    else .invalid
  { p with slots := p.slots.modify i ({ · with state := state }) }

inductive PoolEvent
  | connectNext (turns : Nat)
  | streamEnd (i : Nat) (usable : Bool) (destroyed : Salts)
  | streamDestroy (i : Nat)

def PoolEvent.run (w : Pool × σ) : PoolEvent → Option (Option ConnectStep × Pool × σ)
  | .connectNext turns => (poolConnectNext env turns w).map fun (step, w) => (some step, w)
  | .streamEnd i usable destroyed => some (none, poolReleaseStream i usable destroyed w.1, w.2)
  | .streamDestroy i =>
    let slots := w.1.slots.modify i fun slot => { slot with streamRefs := slot.streamRefs - 1 }
    some (none, { w.1 with slots := slots }, w.2)

/-- A stream has ended in front of the repair that is under way, told by the events and the pools
before them; the repair of a ready pool starts afresh. -/
def PoolEvent.missed (p : Pool) (missed : Bool) : PoolEvent → Bool
  | .connectNext _ => missed && p.phase = .connecting
  | .streamEnd i _ _ => missed || (p.phase = .connecting && i < p.connectIndex)
  | .streamDestroy _ => missed

/-- What holds at every event of a run, of the streams missed so far, the pool before it, its step and
the pool behind it. -/
def Along (holds : Bool → PoolEvent → Pool → Option ConnectStep → Pool → Prop) :
    Bool → List PoolEvent → Pool × σ → Prop
  | _, [], _ => True
  | missed, event :: events, w => ∀ step w', event.run env w = some (step, w') →
      holds (event.missed w.1 missed) event w.1 step w'.1 ∧
        Along holds (event.missed w.1 missed) events w'

end Connect

def Pool.ValidTo (p : Pool) (n : Nat) : Prop :=
  ∀ slot ∈ p.slots.take n, slot.state ≠ .invalid

/-- A usable connection is idle once its stream has ended if the pool was ready, and a repair that is
done leaves no invalid slot if it missed no stream. -/
def Recovers (missed : Bool) (event : PoolEvent) (before : Pool) (step : Option ConnectStep)
    (p : Pool) : Prop :=
  match event, step with
  | .streamEnd i true _, _ => ∀ slot : PoolSlot, p.slots[i]? = some slot →
      (slot.state = .idle ↔ before.phase = .ready)
  | .connectNext _, some step => step.kind = .done → (p.ValidTo p.slots.length ↔ missed = false)
  | _, _ => True

section Walk

variable {σ : Type} {env : PoolEnv σ} {p q : Pool} {s : σ} {n : Nat} {missed : Bool}

/-- The slots in front of the walk are valid unless a stream was missed. -/
structure Connecting (missed : Bool) (p : Pool) : Prop where
  inside : p.connectIndex ≤ p.slots.length
  valid : p.ValidTo p.connectIndex ↔ missed = false

/-- Only the slot of the walk is put, and it is passed only when it is valid. -/
structure Advances (p q : Pool) (slot : PoolSlot) : Prop where
  slots : q.slots = p.slots.set p.connectIndex slot
  index : q.connectIndex = p.connectIndex ∨
    p.connectIndex < p.slots.length ∧ slot.state ≠ .invalid ∧ q.connectIndex = p.connectIndex + 1

theorem Connecting.advance {slot : PoolSlot} (connecting : Connecting missed p) (advances : Advances p q slot) :
    Connecting missed q := by
  obtain ⟨slots, same | ⟨inside, valid, next⟩⟩ := advances
  · refine ⟨by simp [slots, same, connecting.inside], ?_⟩
    rw [Pool.ValidTo, slots, same, take_set_of_le (le_refl _)]
    exact connecting.valid
  · refine ⟨by simp [slots, next, Nat.succ_le_of_lt inside], ?_⟩
    rw [Pool.ValidTo, slots, next, take_add_one, getElem?_set_self', take_set_of_le (le_refl _),
      ← connecting.valid, getElem?_eq_getElem inside]
    simp [or_imp, forall_and, valid, Pool.ValidTo]

/-- A turn ends the call in front of the same slots, or the walk at the last one. -/
def TurnSpec (p : Pool) : ConnectTurn σ → Prop
  | .error ended => ended.1.kind ≠ .done ∧ ∃ slot, Advances p ended.2.1 slot
  | .ok none => p.slots.length ≤ p.connectIndex
  | .ok (some w) => ∃ slot, Advances p w.1 slot

theorem poolPrepared_spec {slot : PoolSlot} (slots : q.slots = p.slots.set p.connectIndex slot)
    (index : q.connectIndex = p.connectIndex) : TurnSpec p (poolPrepared env slot q s) := by
  have fails (q' : Pool) (slots : q'.slots = q.slots) (index : q'.connectIndex = q.connectIndex) :
      Advances p (poolMarkConnectFailure q' slot) { slot with state := .invalid } := by
    constructor <;> simp [poolMarkConnectFailure, Pool.put, Pool.interrupted, *]
  rw [poolPrepared]
  split
  · exact ⟨nofun, slot, slots, .inl index⟩
  · exact ⟨slot, slots, .inl index⟩
  · exact ⟨nofun, _, fails _ rfl rfl⟩
  · dsimp only
    split
    · exact ⟨nofun, _, fails _ rfl rfl⟩
    · split
      · exact ⟨nofun, _, fails _ rfl rfl⟩
      · exact ⟨slot, slots, .inl index⟩

theorem poolConnectTurn_spec : TurnSpec p (poolConnectTurn env (p, s)) := by
  rw [poolConnectTurn]
  split
  · exact getElem?_eq_none_iff.mp ‹_›
  · rename_i slot found
    obtain ⟨inside, same⟩ := List.getElem?_eq_some_iff.mp found
    replace same : p.slots = p.slots.set p.connectIndex slot := by rw [← same, set_getElem_self]
    have passes (valid : slot.state ≠ .invalid) :
        Advances p { p with connectIndex := p.connectIndex + 1 } slot :=
      ⟨same, .inr ⟨inside, valid, rfl⟩⟩
    split
    · exact ⟨slot, passes (by simp [*])⟩
    · exact ⟨slot, passes (by simp [*])⟩
    · split
      · exact ⟨nofun, slot, same, .inl rfl⟩
      · split
        · exact ⟨_, rfl, .inl rfl⟩
        · exact ⟨nofun, slot, same, .inl rfl⟩
    · split
      · exact ⟨_, rfl, .inl rfl⟩
      · exact ⟨nofun, _, rfl, .inl rfl⟩
    · split
      · exact ⟨nofun, slot, same, .inl rfl⟩
      · exact ⟨nofun, slot, same, .inl rfl⟩
      · exact ⟨nofun, _, rfl, .inl rfl⟩
      · exact ⟨_, rfl, .inl rfl⟩
    · split
      · exact ⟨_, rfl, .inr ⟨inside, nofun, rfl⟩⟩
      · split
        · exact poolPrepared_spec same rfl
        · split
          · exact poolPrepared_spec same rfl
          · exact ⟨nofun, _, rfl, .inl rfl⟩

theorem validTo_iff : p.ValidTo n ↔ .invalid ∉ (p.slots.map PoolSlot.state).take n := by
  simp [Pool.ValidTo, ← map_take]

theorem validTo_length (past : p.slots.length ≤ n) : p.ValidTo p.slots.length ↔ p.ValidTo n := by
  rw [Pool.ValidTo, Pool.ValidTo, take_length, take_of_length_le past]

/-- What a walk that began with `missed` leaves. -/
def WalkSpec (missed : Bool) : Except (ConnectStep × Pool × σ) (Pool × σ) → Prop
  | .error ended => ended.1.kind ≠ .done ∧ Connecting missed ended.2.1
  | .ok w => w.1.ValidTo w.1.slots.length ↔ missed = false

theorem run_poolConnectTurn {r} (connecting : Connecting missed p)
    (ended : Steps.run (poolConnectTurn env) n (p, s) = some r) : WalkSpec missed r := by
  induction n generalizing p s with
  | zero => cases ended
  | succ n ih =>
    have spec : TurnSpec p (poolConnectTurn env (p, s)) := poolConnectTurn_spec
    rw [Steps.run] at ended
    split at ended
    all_goals rename_i turn; rw [turn] at spec
    · cases ended
      obtain ⟨notDone, slot, advances⟩ := spec
      exact ⟨notDone, connecting.advance advances⟩
    · cases ended
      exact (validTo_length spec).trans connecting.valid
    · obtain ⟨slot, advances⟩ := spec
      exact ih (connecting.advance advances) ended

theorem poolConnectBegin_spec (connecting : p.phase = .connecting → Connecting missed p) :
    match poolConnectBegin p with
    | .error step => p.phase ≠ .connecting ∧ (step.kind = .done → p.ValidTo p.slots.length)
    | .ok q => Connecting (missed && p.phase = .connecting) q := by
  have first : p.ValidTo (p.slots.findIdx (·.state = .invalid)) := by
    intro slot inside
    obtain ⟨i, lt, rfl⟩ := mem_take_iff_getElem.mp inside
    simpa using not_of_lt_findIdx (lt.trans_le (min_le_left _ _))
  rw [poolConnectBegin]
  cases phase : p.phase with
  | ready =>
    dsimp only
    cases found : p.slots[p.slots.findIdx (·.state = .invalid)]? with
    | none => exact ⟨nofun, fun _ => (validTo_length (getElem?_eq_none_iff.mp found)).mpr first⟩
    | some slot =>
      by_cases busy : slot.streamRefs ≠ 0
      · simp only [if_pos busy]
        exact ⟨nofun, nofun⟩
      · simp only [if_neg busy]
        exact ⟨findIdx_le_length, iff_of_true first (Bool.and_false _)⟩
  | connecting => simpa using connecting phase
  | failed | closing | closed => exact ⟨nofun, nofun⟩

theorem poolConnectNext_spec {step : ConnectStep} {w : Pool × σ}
    (connecting : p.phase = .connecting → Connecting missed p)
    (call : poolConnectNext env n (p, s) = some (step, w)) :
    (step.kind = .done → (w.1.ValidTo w.1.slots.length ↔ (missed && p.phase = .connecting) = false)) ∧
      (w.1.phase = .connecting → Connecting (missed && p.phase = .connecting) w.1) := by
  have spec := poolConnectBegin_spec connecting
  rw [poolConnectNext] at call
  split at call
  all_goals rename_i begun; rw [begun] at spec
  · cases call
    exact ⟨fun done => iff_of_true (spec.2 done) (by simp [spec.1]), fun phase => absurd phase spec.1⟩
  · split at call
    · cases call
    · cases call
      rename_i ran
      obtain ⟨notDone, rest⟩ := run_poolConnectTurn spec ran
      exact ⟨fun done => absurd done notDone, fun _ => rest⟩
    · cases call
      rename_i ran
      exact ⟨fun _ => run_poolConnectTurn spec ran, nofun⟩

/-- The stream of a slot in front of the walk is missed, any other is not. -/
theorem Connecting.release (connecting : Connecting missed p) (phase : p.phase = .connecting) (i : Nat)
    (usable : Bool) (destroyed : Salts) :
    Connecting (missed || decide (i < p.connectIndex)) (poolReleaseStream i usable destroyed p) := by
  refine ⟨by simpa [poolReleaseStream] using connecting.inside, ?_⟩
  simp only [Pool.ValidTo, poolReleaseStream, phase, take_modify]
  by_cases front : i < p.connectIndex
  · have inside := front.trans_le connecting.inside
    simp only [front, decide_true, Bool.or_true, Bool.true_eq_false, iff_false]
    intro valid
    refine valid ⟨.invalid, (p.slots.get ⟨i, inside⟩).streamRefs⟩ ?_ rfl
    refine mem_of_getElem? (i := i) ?_
    simp [front, inside]
  · rw [modify_eq_self (by simp; omega)]
    simpa [front, Pool.ValidTo] using connecting.valid

theorem step_recovers {event : PoolEvent} {step : Option ConnectStep} {w w' : Pool × σ}
    (connecting : w.1.phase = .connecting → Connecting missed w.1) (ran : event.run env w = some (step, w')) :
    Recovers (event.missed w.1 missed) event w.1 step w'.1 ∧
      (w'.1.phase = .connecting → Connecting (event.missed w.1 missed) w'.1) := by
  cases event with
  | connectNext turns =>
    obtain ⟨⟨step, w'⟩, call, same⟩ := Option.map_eq_some_iff.mp ran
    cases same
    exact poolConnectNext_spec connecting call
  | streamDestroy i =>
    cases ran
    refine ⟨trivial, fun phase => ?_⟩
    obtain ⟨inside, valid⟩ := connecting phase
    refine ⟨by simpa using inside, Iff.trans ?_ valid⟩
    have states : (w.1.slots.modify i fun slot => { slot with streamRefs := slot.streamRefs - 1 }).map
        PoolSlot.state = w.1.slots.map PoolSlot.state := by
      refine ext_getElem? fun j => ?_
      rw [getElem?_map, getElem?_map, getElem?_modify]
      cases w.1.slots[j]? <;> simp [apply_ite]
    rw [validTo_iff, validTo_iff, states]
  | streamEnd i usable destroyed =>
    cases ran
    constructor
    · cases usable with
      | false => trivial
      | true =>
        intro slot found
        obtain ⟨_, -, rfl⟩ := Option.map_eq_some_iff.mp ((getElem?_modify_eq ..).symm.trans found)
        by_cases ready : w.1.phase = .ready
        · simp [ready]
        · simp only [ready, false_and, if_false, iff_false]
          split <;> simp
    · intro phase
      simpa [PoolEvent.missed, show w.1.phase = .connecting from phase] using
        (connecting phase).release phase i usable destroyed

/-- In every run, a connection comes back exactly when its stream ends in a ready pool, and a repair
that is done leaves no invalid slot exactly when no stream ended in front of it. -/
theorem pool_recovers_iff (env : PoolEnv σ) (events : List PoolEvent) (w : Pool × σ)
    (ready : w.1.phase = .ready) : Along env Recovers false events w := by
  suffices run : ∀ missed, (w.1.phase = .connecting → Connecting missed w.1) →
      Along env Recovers missed events w from run false (by simp [ready])
  clear ready
  induction events generalizing w with
  | nil => exact fun _ _ => trivial
  | cons event events ih =>
    intro missed connecting step w' ran
    obtain ⟨recovers, later⟩ := step_recovers connecting ran
    exact ⟨recovers, ih w' _ later⟩

end Walk

def disturbedPool : Pool :=
  ⟨[], [], 0, false, [⟨.borrowed, 1⟩, ⟨.invalid, 0⟩], .ready, 2, .done, false, false, false⟩

def PoolEnv.waiting : PoolEnv Bool :=
  ⟨fun _ s => (.ok, s), fun _ s => (.ok, s), fun _ s => ((if s then .done else .wait, .ok), true),
    fun _ _ s => (.ok, s), fun s => ((.done, .ok), s), fun s => (.ok, s)⟩

theorem pool_recovers_borrowed : ∃ p₁ p₂ p₃ : Pool,
    PoolEvent.run .waiting (disturbedPool, false) (.connectNext 3) = some (some ⟨.wait, .ok, 1⟩, p₁, true) ∧
    PoolEvent.run .waiting (p₁, true) (.connectNext 3) = some (some ⟨.done, .ok, 2⟩, p₂, true) ∧
    p₂.ValidTo 2 ∧ PoolEvent.run .waiting (p₂, true) (.streamEnd 0 true .ok) = some (none, p₃, true) ∧
    ∀ slot : PoolSlot, p₃.slots[0]? = some slot → slot.state = .idle := by
  have run := pool_recovers_iff .waiting [.connectNext 3, .connectNext 3, .streamEnd 0 true .ok]
    (disturbedPool, false) rfl
  obtain ⟨-, run⟩ := run _ _ rfl
  obtain ⟨repaired, run⟩ := run _ _ rfl
  obtain ⟨idle, -⟩ := run _ _ rfl
  exact ⟨_, _, _, rfl, rfl, (repaired rfl).mpr rfl, rfl, fun slot found => (idle slot found).mpr rfl⟩

theorem pool_forgets_slot : ∃ p₁ p₂ p₃ : Pool, ∃ slot₂ slot₃ : PoolSlot,
    PoolEvent.run .waiting (disturbedPool, false) (.connectNext 3) = some (some ⟨.wait, .ok, 1⟩, p₁, true) ∧
    PoolEvent.run .waiting (p₁, true) (.streamEnd 0 true .ok) = some (none, p₂, true) ∧
    p₂.slots[0]? = some slot₂ ∧ slot₂.state = .invalid ∧
    PoolEvent.run .waiting (p₂, true) (.connectNext 3) = some (some ⟨.done, .ok, 2⟩, p₃, true) ∧
    p₃.slots[0]? = some slot₃ ∧ slot₃.state = .invalid :=
  ⟨_, _, _, _, _, rfl, rfl, rfl, rfl, rfl, rfl, rfl⟩

end TurboDb.Redis
