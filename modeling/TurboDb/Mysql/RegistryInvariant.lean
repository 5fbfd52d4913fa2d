import TurboDb.Mysql.Registry

/-!
What holds of a registry over all histories of calls.

Most calls leave the registry alone, a close vacates a slot, and a prepare fills a
vacant one within the quota or ends in a failure. A registry in such a failure, or
one that is being disposed, refuses everything but close and disposal from then on.
-/

namespace TurboDb.Mysql

open ByteOrder Effect RegistryWorld List

variable {sizes : Sizes} {config : RegistryConfig} {r : Registry} {σ : Type} {sdk : Sdk σ}
  {w w' : RegistryWorld σ} {i : Nat}

def entryCharge (sizes : Sizes) (entry : RegistryEntry) : Option Nat := do
  let types ← registryAllocation sizes entry.types.capacity 2 2
  let values ← registryAllocation sizes entry.values.capacity sizes.value sizes.valueAlignment
  pure (types + values)

def slotsCharge (sizes : Sizes) (entries : List RegistryEntry) : Nat :=
  (entries.map fun entry => (entryCharge sizes entry).getD 0).sum

theorem entryCharge_empty : entryCharge sizes .empty = some 0 := rfl

variable {entries : List RegistryEntry} {old : RegistryEntry} {α : Type} {new : RegistryEntry}
  {lastId : UInt32} {statement : Handle} {w0 : RegistryWorld σ}

theorem registryBytesLoop_eq {total : Nat}
    (charged : ∀ entry ∈ entries, (entryCharge sizes entry).isSome)
    (fits : total + slotsCharge sizes entries ≤ sizeMax) :
    registryBytesLoop sizes entries total = some (total + slotsCharge sizes entries) := by
  induction entries generalizing total with
  | nil => rfl
  | cons entry entries ih =>
    obtain ⟨here, later⟩ := forall_mem_cons.mp charged
    obtain ⟨charge, found⟩ := Option.isSome_iff_exists.mp here
    have sum : slotsCharge sizes (entry :: entries) = charge + slotsCharge sizes entries := by
      simp [slotsCharge, found]
    simp only [entryCharge, Option.bind_eq_bind, Option.bind_eq_some_iff, Option.pure_def,
      Option.some.injEq] at found
    obtain ⟨types, htypes, values, hvalues, rfl⟩ := found
    simp only [registryBytesLoop, htypes, hvalues, Option.bind_eq_bind, Option.bind_some]
    rw [if_neg (by omega), ih later (by omega)]
    congr 1
    omega

theorem slotsCharge_set (sizes : Sizes) {i : Nat} (found : entries[i]? = some old)
    (new : RegistryEntry) :
    slotsCharge sizes (entries.set i new) + (entryCharge sizes old).getD 0 =
      slotsCharge sizes entries + (entryCharge sizes new).getD 0 := by
  induction entries generalizing i with
  | nil => simp at found
  | cons entry entries ih =>
    cases i with
    | zero =>
      obtain rfl : entry = old := by simpa using found
      simp only [slotsCharge, set_cons_zero, map_cons, sum_cons]
      omega
    | succ i =>
      have rest := ih (by simpa using found)
      simp only [slotsCharge, set_cons_succ, map_cons, sum_cons] at rest ⊢
      omega

/-- The invariant of a registry made with the given configuration. -/
structure RegistryInv (sizes : Sizes) (config : RegistryConfig) (r : Registry) : Prop where
  configured : r.connection = true → r.config = config
  slots : r.slots.items.length ≤ config.maxStatements
  vacant : ∀ entry ∈ r.slots.items, entry.statement = none → entry = .empty
  named : ∀ entry ∈ r.slots.items, entry.id ≤ r.lastId
  charged : ∀ entry ∈ r.slots.items, (entryCharge sizes entry).isSome
  quota : ∃ own, registryAllocation sizes r.slots.capacity sizes.entry sizes.entryAlignment =
      some own ∧ own ≤ sizeMax - sizes.owner ∧
    sizes.owner + own + slotsCharge sizes r.slots.items ≤ config.maxWireBytes

theorem RegistryInv.bytes (inv : RegistryInv sizes config r) (size : config.maxWireBytes ≤ sizeMax) :
    ∃ used, registryBytes sizes r = some used ∧ used ≤ config.maxWireBytes := by
  obtain ⟨own, made, fits, quota⟩ := inv.quota
  refine ⟨_, ?_, quota⟩
  simp only [registryBytes, made, Option.bind_eq_bind, Option.bind_some]
  rw [if_neg (by omega), registryBytesLoop_eq inv.charged (by omega)]

theorem forall_mem_set {P : α → Prop} {entries : List α} {i : Nat} {new : α}
    (old : ∀ entry ∈ entries, P entry) (holds : P new) : ∀ entry ∈ entries.set i new, P entry := by
  intro entry mem
  rcases mem_or_eq_of_mem_set mem with mem | rfl
  exacts [old entry mem, holds]

section Inv

variable (inv : RegistryInv sizes config r)
include inv

theorem RegistryInv.put {i : Nat} (later : r.lastId ≤ lastId)
    (vacant : new.statement = none → new = .empty) (named : new.id ≤ lastId)
    (charged : (entryCharge sizes new).isSome)
    (quota : ∀ own, registryAllocation sizes r.slots.capacity sizes.entry sizes.entryAlignment =
      some own →
      sizes.owner + own + slotsCharge sizes (r.slots.items.set i new) ≤ config.maxWireBytes) :
    RegistryInv sizes config
      { r with slots.items := r.slots.items.set i new, lastId := lastId } where
  configured := inv.configured
  slots := by simpa using inv.slots
  vacant := forall_mem_set inv.vacant vacant
  named := forall_mem_set (fun entry mem => UInt32.le_trans (inv.named entry mem) later) named
  charged := forall_mem_set inv.charged charged
  quota := by
    obtain ⟨own, made, fits, -⟩ := inv.quota
    exact ⟨own, made, fits, quota own made⟩

theorem RegistryInv.shrink {i : Nat} (later : r.lastId ≤ lastId)
    (found : r.slots.items[i]? = some old) (vacant : new.statement = none → new = .empty)
    (named : new.id ≤ lastId) (charged : (entryCharge sizes new).isSome)
    (less : (entryCharge sizes new).getD 0 ≤ (entryCharge sizes old).getD 0) :
    RegistryInv sizes config
      { r with slots.items := r.slots.items.set i new, lastId := lastId } := by
  refine inv.put later vacant named charged fun own made => ?_
  obtain ⟨own', made', -, quota⟩ := inv.quota
  obtain rfl : own' = own := Option.some.inj (made'.symm.trans made)
  have := slotsCharge_set sizes found new
  omega

theorem RegistryInv.latch (failure : Status) (closing : Bool) :
    RegistryInv sizes config { r with failure, closing } :=
  ⟨inv.configured, inv.slots, inv.vacant, inv.named, inv.charged, inv.quota⟩

theorem RegistryInv.clear (i : Nat) :
    RegistryInv sizes config { r with slots.items := r.slots.items.set i .empty } := by
  cases found : r.slots.items[i]? with
  | none =>
    rw [set_eq_of_length_le (getElem?_eq_none_iff.mp found)]
    exact inv
  | some old =>
    exact inv.shrink (UInt32.le_refl _) found (fun _ => rfl) UInt32.zero_le rfl (Nat.zero_le _)

end Inv

theorem Env.call_spec (f : σ → Except Fault α × σ) (event : Except Fault α → SqlEvent) (env : Env σ) :
    match Env.call f event env with
    | .ok a env' => f env.engine = (.ok a, env'.engine) ∧ env'.log = env.log ++ [event (.ok a)]
    | .error e env' => ∃ fault : Fault, fault.toFailure = e ∧
      f env.engine = (.error fault, env'.engine) ∧
      env'.log = env.log ++ [event (.error fault)] := by
  unfold Env.call
  cases f env.engine with
  | mk answer engine =>
    cases answer with
    | ok a => exact ⟨rfl, rfl⟩
    | error fault => exact ⟨fault, rfl, rfl, rfl⟩

theorem registryEntryClose_spec (sdk : Sdk σ) (i : Nat) (w : RegistryWorld σ) :
    match registryEntryClose sdk i w with
    | .ok _ w' => w'.registry = (w.setEntry i .empty).registry ∧
      w'.env.log = w.env.log ++
        (w.entry i).statement.toList.map fun statement => .closed statement (.ok ())
    | .error e w' => ∃ statement fault, fault.toFailure = e ∧
      (w.entry i).statement = some statement ∧
      (sdk.close statement w.env.engine).1 = .error fault ∧
      w'.env.log = w.env.log ++ [.closed statement (.error fault)] ∧
      (e.status = .busy ∧ w'.registry = w.registry ∨
        e.status ≠ .busy ∧ w'.registry = { (w.setEntry i .empty).registry with
          failure := if w.registry.failure = .ok then e.status else w.registry.failure }) := by
  unfold registryEntryClose
  cases held : (w.entry i).statement with
  | none => simp [setEntry]
  | some statement =>
    have spec := Env.call_spec (sdk.close statement) (.closed statement) w.env
    dsimp only
    generalize Env.call (sdk.close statement) (.closed statement) w.env = called at spec
    cases called with
    | ok a env => exact ⟨rfl, spec.2⟩
    | error e env =>
      obtain ⟨fault, rfl, answer, log⟩ := spec
      dsimp only
      have closed : (sdk.close statement w.env.engine).1 = .error fault := by rw [answer]
      by_cases busy : fault.status = .busy
      · rw [if_pos busy]
        exact ⟨statement, fault, rfl, rfl, closed, log, .inl ⟨busy, rfl⟩⟩
      · rw [if_neg busy]
        refine ⟨statement, fault, rfl, rfl, closed, ?_, .inr ⟨busy, ?_⟩⟩
        · by_cases clean : w.registry.failure = .ok <;>
            simp [setEntry, clean, log]
        · by_cases clean : w.registry.failure = .ok <;>
            simp [setEntry, clean]

theorem registryVector_capacity (zero : α) (count : Nat) (answer : VectorAnswer) :
    (registryVector zero count answer).1.capacity = 0 ∨
      (registryVector zero count answer).1.capacity = count := by
  unfold registryVector
  split_ifs <;> simp [Vec.empty]

theorem registryAllocation_vector (zero : α) (answer : VectorAnswer)
    {count size alignment bytes : Nat}
    (asked : registryAllocation sizes count size alignment = some bytes) :
    ∃ charge ≤ bytes, registryAllocation sizes (registryVector zero count answer).1.capacity size
      alignment = some charge := by
  rcases registryVector_capacity zero count answer with none | all
  · exact ⟨0, Nat.zero_le _, by rw [none]; rfl⟩
  · exact ⟨bytes, le_rfl, by rw [all, asked]⟩

theorem registryVectorAnswer_ok (sdk : Sdk σ) (count : Nat) (w : RegistryWorld σ) :
    ∃ answer w', registryVectorAnswer sdk count w = .ok answer w' ∧ w'.registry = w.registry ∧
      w'.env.log = w.env.log := by
  by_cases zero : count = 0
  · exact ⟨_, w, if_pos zero, rfl, rfl⟩
  · exact ⟨_, _, if_neg zero, rfl, rfl⟩

/-- The slot has got vectors, as far as they were made, within the quota. -/
def Cached (sizes : Sizes) (i : Nat) (w w' : RegistryWorld σ) : Prop :=
  ∃ types values charge,
    w'.registry = (w.setEntry i { w.entry i with types, values }).registry ∧
    w'.env.log = w.env.log ∧
    entryCharge sizes { w.entry i with types, values } = some charge ∧
    (charge = 0 ∨ ∃ used, registryBytes sizes w.registry = some used ∧
      used + charge ≤ w.registry.config.maxWireBytes)

section World

variable {entry : RegistryEntry}

theorem RegistryWorld.entry_congr (same : w'.registry = w.registry) (i : Nat) :
    w'.entry i = w.entry i := by
  rw [entry, same, entry]

theorem RegistryWorld.setEntry_congr (same : w'.registry = w.registry) (i : Nat)
    (entry : RegistryEntry) : (w'.setEntry i entry).registry = (w.setEntry i entry).registry := by
  simp only [setEntry, same]

theorem RegistryWorld.entry_setEntry (inside : i < w.registry.slots.items.length) :
    (w.setEntry i entry).entry i = entry := by
  simp [RegistryWorld.entry, RegistryWorld.setEntry, getD, inside]

theorem RegistryWorld.setEntry_setEntry (later : RegistryEntry) :
    (w.setEntry i entry).setEntry i later = w.setEntry i later := by
  simp [setEntry]

end World

theorem RegistryWorld.setEntry_entry (w : RegistryWorld σ) (i : Nat) :
    w.setEntry i (w.entry i) = w := by
  have same : w.registry.slots.items.set i (w.entry i) = w.registry.slots.items := by
    by_cases inside : i < w.registry.slots.items.length
    · rw [entry, getD_eq_getElem _ _ inside, set_getElem_self]
    · exact set_eq_of_length_le (by omega)
  rw [setEntry, same]

theorem Cached.start (types : (w.entry i).types = .empty)
    (values : (w.entry i).values = .empty) : Cached sizes i w w := by
  have same : { w.entry i with types := .empty, values := .empty } = w.entry i := by
    rw [← types, ← values]
  refine ⟨.empty, .empty, 0, ?_, rfl, rfl, .inl rfl⟩
  rw [same, setEntry_entry]

theorem registryCache_spec (sdk : Sdk σ) (sizes : Sizes)
    (inside : i < w.registry.slots.items.length)
    (noTypes : (w.entry i).types = .empty) (noValues : (w.entry i).values = .empty)
    (count columns : Nat) :
    Cached sizes i w (final (registryCache sdk sizes i count columns w)) := by
  have start : Cached sizes i w w := Cached.start noTypes noValues
  rw [registryCache, run_bind_ok run_get]
  rw [run_bind_reject]
  split_ifs with wide
  · assumption
  cases counted : registryBytes sizes w.registry with
  | none => rwa [run_bind_error run_given_none]
  | some used =>
  rw [run_bind_ok run_given]
  cases askTypes : registryAllocation sizes count 2 2 with
  | none => rwa [run_bind_error run_given_none]
  | some types =>
  rw [run_bind_ok run_given]
  cases askValues : registryAllocation sizes count sizes.value sizes.valueAlignment with
  | none => rwa [run_bind_error run_given_none]
  | some values =>
  rw [run_bind_ok run_given]
  rw [run_bind_reject]
  split_ifs with full
  · assumption
  obtain ⟨answer, w1, answered, same, log⟩ := registryVectorAnswer_ok sdk count w
  rw [run_bind_ok answered]
  obtain ⟨one, oneLe, oneCharge⟩ :=
    registryAllocation_vector (0 : UInt16) answer askTypes
  generalize registryVector (0 : UInt16) count answer = first at oneCharge
  obtain ⟨vector, made⟩ := first
  dsimp only at oneCharge ⊢
  rw [run_bind_ok run_modify]
  have half : Cached sizes i w (w1.setEntry i { w1.entry i with types := vector }) := by
    refine ⟨vector, .empty, one, ?_, log, ?_, .inr ⟨used, counted, by omega⟩⟩
    · rw [entry_congr same, setEntry_congr same, ← noValues]
    · simp only [entryCharge, oneCharge]
      rfl
  cases made with
  | error e => rwa [run_bind_error (run_attempt_error rfl)]
  | ok _ =>
  rw [run_bind_ok (run_attempt_ok rfl)]
  obtain ⟨answer2, w2, answered2, same2, log2⟩ := registryVectorAnswer_ok sdk count
    (w1.setEntry i { w1.entry i with types := vector })
  rw [run_bind_ok answered2]
  obtain ⟨two, twoLe, twoCharge⟩ :=
    registryAllocation_vector Value.null answer2 askValues
  generalize registryVector Value.null count answer2 = second at twoCharge
  obtain ⟨vector2, made2⟩ := second
  rw [run_bind_ok run_modify]
  have both : Cached sizes i w (w2.setEntry i { w2.entry i with values := vector2 }) := by
    refine ⟨vector, vector2, one + two, ?_, log2.trans log, ?_, .inr ⟨used, counted, by omega⟩⟩
    · rw [setEntry_congr same2, entry_congr same2,
        setEntry_setEntry, setEntry_congr same,
        entry_setEntry (by rwa [same]), entry_congr same]
    · simp only [entryCharge, oneCharge, twoCharge]
      rfl
  cases made2 with
  | error e => rwa [run_attempt_error rfl]
  | ok _ => rwa [run_attempt_ok rfl]

def RegistryEntry.opened (statement : Handle) : RegistryEntry :=
  ⟨some statement, .empty, .empty, 0, false⟩

theorem Cached.inv {w w' : RegistryWorld σ} (cached : Cached sizes i w w')
    (inv : RegistryInv sizes config w.registry)
    (open_ : w.registry.slots.items[i]? = some (.opened statement))
    (configured : w.registry.config = config) (size : config.maxWireBytes ≤ sizeMax) :
    RegistryInv sizes config w'.registry ∧ w'.env.log = w.env.log ∧ ∃ types values,
      w'.registry = (w.setEntry i ⟨some statement, types, values, 0, false⟩).registry := by
  obtain ⟨types, values, charge, same, log, charged, quota⟩ := cached
  have entry : w.entry i = .opened statement := by
    simp [entry, getD, open_]
  rw [entry] at same charged
  change w'.registry = (w.setEntry i ⟨some statement, types, values, 0, false⟩).registry at same
  change entryCharge sizes ⟨some statement, types, values, 0, false⟩ = some charge at charged
  refine ⟨?_, log, types, values, same⟩
  rw [same]
  refine inv.put (UInt32.le_refl _) nofun UInt32.zero_le (by simp [charged]) fun own made => ?_
  have sum := slotsCharge_set sizes open_ ⟨some statement, types, values, 0, false⟩
  have none : (entryCharge sizes (.opened statement)).getD 0 = 0 := rfl
  rw [charged, none] at sum
  obtain ⟨own', made', fits, within⟩ := inv.quota
  obtain rfl : own' = own := Option.some.inj (made'.symm.trans made)
  rcases quota with rfl | ⟨used, counted, room⟩
  · simp only [Option.getD_some] at sum
    omega
  · have bytes : used = sizes.owner + own' + slotsCharge sizes w.registry.slots.items := by
      simp only [registryBytes, made', Option.bind_eq_bind, Option.bind_some] at counted
      rw [if_neg (by omega), registryBytesLoop_eq inv.charged (by omega)] at counted
      exact (Option.some.inj counted).symm
    rw [configured] at room
    simp only [Option.getD_some] at sum
    omega

/-- Nothing was opened, or what was opened has been closed again. -/
def Released (w w' : RegistryWorld σ) : Prop :=
  w'.registry = w.registry ∧
    (w'.env.log = w.env.log ∨
      (∃ sql fault, w'.env.log = w.env.log ++ [.prepared sql (.error fault)]) ∨
      ∃ sql statement, w'.env.log =
        w.env.log ++ [.prepared sql (.ok statement), .closed statement (.ok ())])

/-- The slot of a statement that the engine would not close. -/
def Stuck (w w' : RegistryWorld σ) : Prop :=
  ∃ i statement types values, w.registry.slots.items[i]? = some .empty ∧
    w'.registry.slots = { w.registry.slots with
      items := w.registry.slots.items.set i ⟨some statement, types, values, 0, false⟩ }

def Opened (w w' : RegistryWorld σ) (p : PrepareOk) : Prop :=
  ∃ i sql statement types values, w.registry.slots.items[i]? = some .empty ∧
    w'.registry.slots.items = w.registry.slots.items.set i
      ⟨some statement, types, values, p.statementId, false⟩ ∧
    w'.registry.connection = w.registry.connection ∧
    w'.env.log = w.env.log ++ [.prepared sql (.ok statement)]

/-- A statement was opened, and closing it again failed. -/
def Broken (sdk : Sdk σ) (w w' : RegistryWorld σ) : Prop :=
  ∃ sql statement fault s, (sdk.close statement s).1 = .error fault ∧
    (∀ live, sdk.Lawful live → live s = live w.env.engine) ∧
    w'.env.log = w.env.log ++ [.prepared sql (.ok statement), .closed statement (.error fault)] ∧
    (w'.registry.slots = w.registry.slots ∨ fault.status = .busy ∧ Stuck w w')

structure Prepares (sdk : Sdk σ) (sizes : Sizes) (config : RegistryConfig) (w : RegistryWorld σ)
    (result : EStateM.Result Failure (RegistryWorld σ) PrepareOk) : Prop where
  ok : ∀ {p w'}, result = .ok p w' → RegistryInv sizes config w'.registry ∧
    registryReady w.registry = .ok () ∧ w.registry.lastId ≠ 0xFFFFFFFF ∧
    p.statementId = w.registry.lastId + 1 ∧ w'.registry.lastId = w.registry.lastId + 1 ∧
    Opened w w' p
  error : ∀ {e w'}, result = .error e w' → RegistryInv sizes config w'.registry ∧
    w'.registry.lastId = w.registry.lastId ∧
    (Released w w' ∨ w'.registry.failure ≠ .ok ∧ Broken sdk w w')

theorem Opened.find {w w' : RegistryWorld σ} {p : PrepareOk} (opened : Opened w w' p)
    (inv : RegistryInv sizes config w.registry) (more : w.registry.lastId ≠ 0xFFFFFFFF)
    (named : p.statementId = w.registry.lastId + 1) :
    ∃ i sql statement, registryFind w'.registry p.statementId = some i ∧
      (w'.registry.slots.items.getD i .empty).statement = some statement ∧
      w'.registry.connection = w.registry.connection ∧
      w'.env.log = w.env.log ++ [.prepared sql (.ok statement)] := by
  obtain ⟨i, sql, statement, types, values, vacant, items, connection, log⟩ := opened
  obtain ⟨inside, -⟩ := List.getElem?_eq_some_iff.mp vacant
  have above : w.registry.lastId < p.statementId := by
    rw [named]
    exact UInt32.lt_add_one more
  have nonzero : p.statementId ≠ 0 := by
    rintro zero
    rw [zero] at above
    exact absurd above (by simp)
  refine ⟨i, sql, statement, ?_, by simp [items, getD, inside], connection, log⟩
  rw [registryFind, if_neg nonzero, items, findIdx?_eq_some_iff_getElem]
  refine ⟨by simpa using inside, by simp, fun j before => ?_⟩
  -- The slots before it hold earlier identifiers.
  have earlier := inv.named _ (getElem_mem (Nat.lt_trans before inside))
  have other : (w.registry.slots.items[j]).id ≠ p.statementId := fun same =>
    absurd above (UInt32.not_lt.mpr (same ▸ earlier))
  simp [getElem_set_ne (Nat.ne_of_gt before), other]

theorem registryVectorAnswer_leaves {live : σ → List Handle} (lawful : sdk.Lawful live)
    (count : Nat) :
    Leaves (fun w : RegistryWorld σ => live w.env.engine) (registryVectorAnswer sdk count) := by
  intro w
  unfold registryVectorAnswer
  split_ifs
  · rfl
  · exact lawful.vector count w.env.engine

theorem registryCache_leaves (sizes : Sizes) {live : σ → List Handle} (lawful : sdk.Lawful live)
    (i count columns : Nat) :
    Leaves (fun w : RegistryWorld σ => live w.env.engine)
      (registryCache sdk sizes i count columns) := by
  refine leaves_get.bind fun w => leaves_reject.bind fun _ => leaves_given.bind fun used => ?_
  refine leaves_given.bind fun types => leaves_given.bind fun values => leaves_reject.bind fun _ => ?_
  refine (registryVectorAnswer_leaves lawful count).bind fun answer => ?_
  refine Leaves.bind (leaves_modify ?_) fun _ => leaves_attempt.bind fun _ => ?_
  · exact fun w => rfl
  refine (registryVectorAnswer_leaves lawful count).bind fun answer => ?_
  refine Leaves.bind (leaves_modify ?_) fun _ => leaves_attempt
  exact fun w => rfl

theorem setEntry_vacant {w : RegistryWorld σ} {entry : RegistryEntry}
    (vacant : w0.registry.slots.items[i]? = some .empty)
    (same : w.registry = (w0.setEntry i entry).registry) :
    (w.setEntry i .empty).registry = w0.registry := by
  have back : w0.registry.slots.items.set i .empty = w0.registry.slots.items := by
    obtain ⟨inside, found⟩ := List.getElem?_eq_some_iff.mp vacant
    rw [← found, set_getElem_self]
  simp [setEntry, same, back]

/-- The end of a prepare whose statement is open in slot `i`. -/
theorem registryPublish_spec {w : RegistryWorld σ} {sql : Bytes}
    (inv : RegistryInv sizes config w0.registry) (size : config.maxWireBytes ≤ sizeMax)
    (ready : registryReady w0.registry = .ok ()) (more : w0.registry.lastId ≠ 0xFFFFFFFF)
    (vacant : w0.registry.slots.items[i]? = some .empty)
    (registry : w.registry = (w0.setEntry i (.opened statement)).registry)
    (log : w.env.log = w0.env.log ++ [.prepared sql (.ok statement)])
    (quiet : ∀ live, sdk.Lawful live → live w.env.engine = live w0.env.engine) :
    Prepares sdk sizes config w0 (registryPublish sdk sizes i statement w) := by
  obtain ⟨inside, -⟩ := List.getElem?_eq_some_iff.mp vacant
  have configured : w0.registry.config = config := by
    refine inv.configured ?_
    simp only [registryReady, bind_eq_ok, reject_eq_ok, exists_unit] at ready
    simpa using ready.1
  have opened : w.registry.slots.items[i]? = some (.opened statement) := by
    rw [registry]
    simp [setEntry, inside]
  have invOpen : RegistryInv sizes config w.registry := by
    rw [registry]
    exact inv.shrink (UInt32.le_refl _) vacant (by rintro ⟨⟩) UInt32.zero_le rfl le_rfl
  have entry : w.entry i = .opened statement := by simp [entry, getD, opened]
  have cached := registryCache_spec sdk sizes
    (show i < w.registry.slots.items.length from (List.getElem?_eq_some_iff.mp opened).1)
    (by rw [entry]; rfl) (by rw [entry]; rfl) (sdk.parameters statement) (sdk.columns statement)
  have filled : ∀ w1 : RegistryWorld σ, Cached sizes i w w1 →
      RegistryInv sizes config w1.registry ∧ w1.env.log = w.env.log ∧ ∃ types values,
        w1.registry = (w0.setEntry i ⟨some statement, types, values, 0, false⟩).registry := by
    intro w1 cached
    obtain ⟨inv1, log1, types, values, same⟩ :=
      cached.inv invOpen opened (by rw [registry]; exact configured) size
    refine ⟨inv1, log1, types, values, ?_⟩
    rw [same, setEntry_congr registry, setEntry_setEntry]
  have leaves : ∀ live, sdk.Lawful live → live (final (registryCache sdk sizes i
      (sdk.parameters statement) (sdk.columns statement) w)).env.engine = live w0.env.engine :=
    fun live lawful => (registryCache_leaves sizes lawful _ _ _ w).trans (quiet live lawful)
  unfold registryPublish
  dsimp only
  generalize registryCache sdk sizes i (sdk.parameters statement) (sdk.columns statement) w =
    result at cached leaves
  cases result with
  | ok _ w1 =>
    obtain ⟨inv1, log1, types, values, same⟩ := filled w1 cached
    refine ⟨fun h => ?_, by simp⟩
    cases h
    have last : w1.registry.lastId = w0.registry.lastId := by
      rw [same]
      rfl
    have found : w1.registry.slots.items[i]? =
        some ⟨some statement, types, values, 0, false⟩ := by
      rw [same]
      simp [setEntry, inside]
    have held : w1.entry i = ⟨some statement, types, values, 0, false⟩ := by
      simp [RegistryWorld.entry, getD, found]
    have next : w1.registry.lastId ≤ w1.registry.lastId + 1 := by
      rw [UInt32.le_iff_toNat_le, UInt32.toNat_add]
      have small := w1.registry.lastId.toNat_lt
      have : w1.registry.lastId.toNat ≠ 4294967295 := fun h =>
        more (by rw [← last, ← UInt32.toNat_inj, h]; rfl)
      simp
      omega
    refine ⟨?_, ready, more, by rw [last], by rw [last]; rfl, i, sql, statement, types, values,
      vacant, ?_, by rw [same]; rfl, log1.trans log⟩
    swap
    · change w1.registry.slots.items.set i { w1.entry i with id := w1.registry.lastId + 1 } = _
      rw [held, same]
      exact set_set ..
    change RegistryInv sizes config { w1.registry with
      slots.items := w1.registry.slots.items.set i { w1.entry i with
        id := w1.registry.lastId + 1 }
      lastId := w1.registry.lastId + 1 }
    rw [held]
    change RegistryInv sizes config { w1.registry with
      slots.items := w1.registry.slots.items.set i
        ⟨some statement, types, values, w1.registry.lastId + 1, false⟩
      lastId := w1.registry.lastId + 1 }
    have charged := inv1.charged _ (mem_of_getElem? found)
    exact inv1.shrink next found (by simp) (UInt32.le_refl _) charged le_rfl
  | error failure w1 =>
    obtain ⟨inv1, log1, types, values, same⟩ := filled w1 cached
    have held : (w1.entry i).statement = some statement := by
      rw [entry_congr same, entry_setEntry inside]
    have cleared := setEntry_vacant vacant same
    have spec := registryEntryClose_spec sdk i w1
    unfold registryAbandon
    dsimp only
    generalize registryEntryClose sdk i w1 = closing at spec
    cases closing with
    | ok _ w2 =>
      obtain ⟨registry2, log2⟩ := spec
      refine ⟨by simp, fun h => ?_⟩
      cases h
      rw [registry2, cleared]
      refine ⟨inv, rfl, .inl ⟨registry2.trans cleared, .inr (.inr ⟨sql, statement, ?_⟩)⟩⟩
      rw [log2, held, log1, log]
      simp
    | error closed w2 =>
      refine ⟨by simp, fun h => ?_⟩
      cases h
      obtain ⟨statement', fault, rfl, named, answer, log2, spec⟩ := spec
      obtain rfl : statement = statement' := Option.some.inj (held.symm.trans named)
      have broken : w2.env.log = w0.env.log ++
          [.prepared sql (.ok statement), .closed statement (.error fault)] := by
        rw [log2, log1, log]
        simp
      have engine : ∀ live, sdk.Lawful live → live w1.env.engine = live w0.env.engine := leaves
      rcases spec with ⟨busy, registry2⟩ | ⟨other, registry2⟩
      · simp only [if_pos busy]
        refine ⟨?_, ?_, .inr ⟨by simp, sql, statement, fault, _, answer, engine, broken,
          .inr ⟨busy, i, statement, types, values, vacant, ?_⟩⟩⟩
        · rw [registry2]
          exact inv1.latch _ _
        · rw [registry2, same]
          rfl
        · rw [registry2, same]
          rfl
      · simp only [if_neg other]
        refine ⟨?_, ?_, .inr ⟨fault.failed, sql, statement, fault, _, answer, engine, broken,
          .inl ?_⟩⟩
        · rw [registry2, cleared]
          exact inv.latch _ _
        · rw [registry2, cleared]
        · rw [registry2, cleared]

theorem registryPrepare_spec (sdk : Sdk σ) (inv : RegistryInv sizes config w.registry)
    (size : config.maxWireBytes ≤ sizeMax) (command : Command) :
    Prepares sdk sizes config w (registryPrepare sdk sizes command w) := by
  have refused : ∀ e, Prepares sdk sizes config w (.error e w) := fun e =>
    ⟨nofun, fun h => by cases h; exact ⟨inv, rfl, .inl ⟨rfl, .inl rfl⟩⟩⟩
  rw [registryPrepare, run_bind_ok run_get]
  cases checked : registryCommand w.registry command .stmtPrepare with
  | error e => exact refused e
  | ok verified =>
  rw [run_bind_ok (run_attempt_ok rfl)]
  rw [run_bind_reject]
  split_ifs with exhausted
  · exact refused _
  cases place : w.registry.slots.items.findIdx? fun entry => entry.statement.isNone with
  | none => exact refused _
  | some i =>
  rw [run_bind_ok run_given]
  have vacant : w.registry.slots.items[i]? = some .empty := by
    obtain ⟨inside, free, -⟩ := findIdx?_eq_some_iff_getElem.mp place
    rw [getElem?_eq_getElem inside]
    exact congrArg some (inv.vacant _ (getElem_mem inside) (by simpa using free))
  have spec := Env.call_spec (sdk.prepare verified.sql) (.prepared verified.sql) w.env
  rw [run_bind]
  unfold lift
  generalize Env.call (sdk.prepare verified.sql) (.prepared verified.sql) w.env = called at spec
  cases called with
  | error e env =>
    obtain ⟨fault, rfl, -, log⟩ := spec
    exact ⟨nofun, fun h => by cases h; exact ⟨inv, rfl, .inl ⟨rfl, .inr (.inl ⟨_, _, log⟩)⟩⟩⟩
  | ok statement env =>
    have entry : w.entry i = .empty := by simp [entry, getD, vacant]
    refine registryPublish_spec inv size ?_ (fun last => exhausted (.inr last)) vacant ?_ spec.2
      fun live lawful => ?_
    · simp only [registryCommand, bind_eq_ok] at checked
      exact checked.choose_spec.1
    · change (w.setEntry i { w.entry i with statement := some statement }).registry = _
      rw [entry]
      rfl
    · have kept := lawful.prepare verified.sql w.env.engine
      rwa [spec.1] at kept

def Refusing (r : Registry) : Prop := ∃ e, registryReady r = .error e

theorem refusing_iff : Refusing r ↔ r.connection = false ∨ r.failure ≠ .ok ∨ r.closing := by
  simp only [Refusing, registryReady, bind_eq_error, reject_eq_error, reject_eq_ok, exists_unit]
  by_cases connected : r.connection = false
  · simp [connected]
  · by_cases failed : r.failure = .ok
    · simp [connected, failed]
    · simp [connected, failed]

theorem registryCommand_refused (refusing : Refusing r) (command : Command)
    (kind : CommandKind) : ∃ e, registryCommand r command kind = .error e := by
  obtain ⟨e, refused⟩ := refusing
  exact ⟨e, by rw [registryCommand, refused]; rfl⟩

theorem registryLookup_refused (refusing : Refusing r) (id : UInt32) :
    ∃ e, registryLookup r id = .error e := by
  obtain ⟨e, refused⟩ := refusing
  exact ⟨e, by rw [registryLookup, refused]; rfl⟩

theorem registryExecute_refused (refusing : Refusing w.registry) (command : Command)
    (out : SqlResponse) : ∃ e, registryExecute sdk command out w = .error e w := by
  obtain ⟨e, refused⟩ := registryCommand_refused refusing command .stmtExecute
  rw [registryExecute]
  by_cases live : out.result.isSome
  · exact ⟨_, run_bind_error (run_reject_error live)⟩
  · exact ⟨e, by rw [run_bind_ok (run_reject live), run_bind_ok run_get,
      run_bind_error (run_attempt_error refused)]⟩

section Kept

variable {w'' : RegistryWorld σ}

/-- The slot holds the same statement, with vectors of the same capacity. -/
structure SameSlot (old new : RegistryEntry) : Prop where
  statement : new.statement = old.statement
  id : new.id = old.id
  types : new.types.capacity = old.types.capacity
  values : new.values.capacity = old.values.capacity

/-- Only the content of the vectors of slot `i` differs. -/
def KeptAt (i : Nat) (w w' : RegistryWorld σ) : Prop :=
  ∃ entry, SameSlot (w.entry i) entry ∧ w'.registry = (w.setEntry i entry).registry

theorem KeptAt.refl (i : Nat) (same : w'.registry = w.registry) : KeptAt i w w' :=
  ⟨w.entry i, ⟨rfl, rfl, rfl, rfl⟩, by rw [setEntry_entry, same]⟩

theorem KeptAt.setEntry (kept : KeptAt i w w') (inside : i < w.registry.slots.items.length)
    {entry : RegistryEntry} (same : SameSlot (w'.entry i) entry) :
    KeptAt i w (w'.setEntry i entry) := by
  obtain ⟨middle, first, registry⟩ := kept
  rw [entry_congr registry, entry_setEntry inside] at same
  refine ⟨entry, ⟨same.1.trans first.1, same.2.trans first.2, same.3.trans first.3,
    same.4.trans first.4⟩, ?_⟩
  rw [setEntry_congr registry, setEntry_setEntry]

theorem KeptAt.congr (kept : KeptAt i w w') (same : w''.registry = w'.registry) :
    KeptAt i w w'' := by
  obtain ⟨entry, first, registry⟩ := kept
  exact ⟨entry, first, same.trans registry⟩

def Kept (w w' : RegistryWorld σ) : Prop :=
  w'.registry = w.registry ∨ ∃ i, (w.entry i).statement.isSome ∧ KeptAt i w w'

theorem RegistryWorld.lift_registry (x : EStateM Failure (Env σ) α) : Leaves registry (lift x) := by
  intro w
  unfold lift
  cases x w.env <;> rfl

theorem lift_look_leaves (f : σ → Except Fault α) : Leaves id (lift (Env.look f)) := by
  intro w
  unfold lift Env.look
  cases f w.env.engine <;> rfl

theorem registryStatement_leaves {τ : Type} {f : RegistryWorld σ → τ} (id : UInt32) :
    Leaves f (registryStatement id) :=
  leaves_get.bind fun _ => leaves_attempt.bind fun _ => leaves_pure _

theorem registryFind_held {r : Registry} {id : UInt32} (found : registryFind r id = some i) :
    i < r.slots.items.length ∧ (r.slots.items.getD i .empty).statement.isSome ∧
      (r.slots.items.getD i .empty).id = id ∧ id ≠ 0 := by
  rw [registryFind] at found
  split_ifs at found with zero
  obtain ⟨inside, here, -⟩ := findIdx?_eq_some_iff_getElem.mp found
  rw [getD_eq_getElem _ _ inside]
  simp only [Bool.and_eq_true, decide_eq_true_eq] at here
  exact ⟨inside, here.1, here.2, zero⟩

theorem registryLookup_held {id : UInt32}
    (found : registryLookup w.registry id = .ok (i, statement)) :
    i < w.registry.slots.items.length ∧ (w.entry i).statement.isSome := by
  simp only [registryLookup, bind_eq_ok, given_eq_ok, pure_eq_ok, Prod.mk.injEq] at found
  obtain ⟨_, -, i', place, statement', held, rfl, rfl⟩ := found
  exact ⟨(registryFind_held place).1, by rw [entry, held]; rfl⟩

theorem registryClear_kept (inside : i < w.registry.slots.items.length) (kept : KeptAt i w w')
    (count : Nat) : KeptAt i w (registryClear i count w') := by
  unfold registryClear
  split_ifs
  · exact kept
  · exact kept.setEntry inside ⟨rfl, rfl, rfl, rfl⟩

theorem registryExecuteEntry_kept (sdk : Sdk σ) (inside : i < w.registry.slots.items.length) (statement : Handle)
    (verified : Command) :
    KeptAt i w (final (registryExecuteEntry sdk i statement verified w)) := by
  unfold registryExecuteEntry
  dsimp only
  cases executeDecode verified (sdk.parameters statement)
      w.registry.config.limits.maxParameterBytes
      ⟨(w.entry i).types.items, (w.entry i).typesValid, (w.entry i).values.items⟩ with
  | error status cache => exact .refl i rfl
  | ok _ cache =>
    have stored : KeptAt i w (w.setEntry i { w.entry i with
        types.items := cache.types
        typesValid := cache.valid
        values.items := cache.values }) :=
      KeptAt.setEntry (.refl i rfl) inside ⟨rfl, rfl, rfl, rfl⟩
    exact stored.congr (lift_registry _ _)

theorem registryExecute_cases (sdk : Sdk σ) (w : RegistryWorld σ) (command : Command)
    (out : SqlResponse) :
    (∃ e, registryExecute sdk command out w = .error e w) ∨
      ∃ i statement verified, i < w.registry.slots.items.length ∧ (w.entry i).statement.isSome ∧
        registryExecute sdk command out w = registryExecuteCleared sdk i statement verified w := by
  rw [registryExecute, run_bind_reject]
  split_ifs with live
  · exact .inl ⟨_, rfl⟩
  rw [run_bind_ok run_get]
  cases registryCommand w.registry command .stmtExecute with
  | error e => exact .inl ⟨e, run_bind_error (run_attempt_error rfl)⟩
  | ok verified =>
  rw [run_bind_ok (run_attempt_ok rfl)]
  cases found : registryLookup w.registry verified.statementId with
  | error e => exact .inl ⟨e, run_bind_error (run_attempt_error rfl)⟩
  | ok place =>
  obtain ⟨i, statement⟩ := place
  obtain ⟨inside, held⟩ := registryLookup_held found
  rw [run_bind_ok (run_attempt_ok rfl)]
  dsimp only
  rw [run_bind]
  have looked := lift_look_leaves sdk.state w
  revert looked
  cases lift (Env.look sdk.state) w with
  | error e w1 => rintro rfl; exact .inl ⟨e, rfl⟩
  | ok state w1 =>
  rintro rfl
  dsimp only
  rw [run_bind_reject]
  split_ifs with failed
  · exact .inl ⟨_, rfl⟩
  rw [run_bind_reject]
  split_ifs with busy
  · exact .inl ⟨_, rfl⟩
  · exact .inr ⟨i, statement, verified, inside, held, rfl⟩

theorem registryExecute_spec (sdk : Sdk σ) (w : RegistryWorld σ) (command : Command)
    (out : SqlResponse) : Kept w (final (registryExecute sdk command out w)) := by
  obtain ⟨e, refused⟩ | ⟨i, statement, verified, inside, held, runs⟩ :=
    registryExecute_cases sdk w command out
  · rw [refused]
    exact .inl rfl
  rw [runs]
  unfold registryExecuteCleared
  have kept := registryExecuteEntry_kept sdk inside statement verified
  cases done : registryExecuteEntry sdk i statement verified w <;> rw [done] at kept <;>
    exact .inr ⟨i, held, registryClear_kept inside kept _⟩

end Kept

theorem registryClose_ok {id : UInt32} (closed : registryClose sdk id w = .ok () w') :
    (w'.registry = w.registry ∧ w'.env.log = w.env.log) ∨
      ∃ i statement, (w.entry i).id = id ∧ (w.entry i).statement = some statement ∧
        w'.registry = (w.setEntry i .empty).registry ∧
        w'.env.log = w.env.log ++ [.closed statement (.ok ())] := by
  rw [registryClose, run_bind_ok run_get, run_bind_reject_eq_ok] at closed
  replace closed := closed.2
  cases found : registryFind w.registry id with
  | none =>
    rw [found] at closed
    cases closed
    exact .inl ⟨rfl, rfl⟩
  | some i =>
    rw [found] at closed
    obtain ⟨-, held, named, -⟩ := registryFind_held found
    obtain ⟨statement, held⟩ := Option.isSome_iff_exists.mp held
    change registryEntryClose sdk i w = .ok () w' at closed
    have spec := registryEntryClose_spec sdk i w
    rw [closed] at spec
    refine .inr ⟨i, statement, named, held, spec.1, ?_⟩
    rw [spec.2, entry, held]
    rfl

/-- What a close of a slot leaves of the registry. -/
structure Vacates (w w' : RegistryWorld σ) : Prop where
  inv : ∀ {sizes config}, RegistryInv sizes config w.registry → RegistryInv sizes config w'.registry
  connection : w'.registry.connection = w.registry.connection
  closing : w'.registry.closing = w.registry.closing
  lastId : w'.registry.lastId = w.registry.lastId
  failure : w.registry.failure ≠ .ok → w'.registry.failure ≠ .ok

theorem Vacates.of_same (same : w'.registry = w.registry) : Vacates w w' :=
  ⟨fun inv => same ▸ inv, by rw [same], by rw [same], by rw [same], by rw [same]; exact id⟩

theorem Vacates.trans {w'' : RegistryWorld σ} (one : Vacates w w') (two : Vacates w' w'') :
    Vacates w w'' :=
  ⟨fun inv => two.inv (one.inv inv), two.connection.trans one.connection,
    two.closing.trans one.closing, two.lastId.trans one.lastId,
    fun failed => two.failure (one.failure failed)⟩

theorem Vacates.clear {i : Nat} {failure : Status}
    (failed : w.registry.failure ≠ .ok → failure ≠ .ok)
    (registry : w'.registry = { (w.setEntry i .empty).registry with failure }) :
    Vacates w w' := by
  refine ⟨fun inv => ?_, ?_, ?_, ?_, ?_⟩
  · rw [registry]
    exact (inv.clear i).latch _ _
  all_goals
    rw [registry]
    first | rfl | exact failed

theorem registryEntryClose_vacates (sdk : Sdk σ) (i : Nat) (w : RegistryWorld σ) :
    Vacates w (final (registryEntryClose sdk i w)) := by
  have spec := registryEntryClose_spec sdk i w
  cases closing : registryEntryClose sdk i w with
  | ok _ w' =>
    rw [closing] at spec
    exact .clear id spec.1
  | error e w' =>
    rw [closing] at spec
    obtain ⟨statement, fault, rfl, -, -, -, spec⟩ := spec
    rcases spec with ⟨-, same⟩ | ⟨-, registry⟩
    · exact .of_same same
    · refine .clear (fun before => ?_) registry
      rwa [if_neg before]

theorem registryDisposeLoop_vacates (sdk : Sdk σ) (left i : Nat) (status : Status) (busy : Bool)
    (w : RegistryWorld σ) :
    Vacates w (registryDisposeLoop sdk left i status busy w).2 := by
  induction left generalizing i status busy w with
  | zero => exact .of_same rfl
  | succ left ih =>
    rw [registryDisposeLoop]
    by_cases vacant : (w.entry i).statement.isNone
    · rw [if_pos vacant]
      exact ih (i + 1) status busy w
    · rw [if_neg vacant]
      have spec := registryEntryClose_vacates sdk i w
      cases closing : registryEntryClose sdk i w
      all_goals rw [closing] at spec
      · exact spec.trans (ih ..)
      · dsimp only
        split
        · exact spec.trans (ih ..)
        · exact spec.trans (ih ..)

section History

variable (sdk : Sdk σ) (sizes : Sizes)
variable {result : EStateM.Result Failure (RegistryWorld σ) (Option UInt32)}

inductive RegistryCall
  | prepare (command : Command)
  | execute (command : Command) (out : SqlResponse)
  | parameter (id : UInt32) (index : Nat)
  | column (id : UInt32) (index : Nat)
  | reset (id : UInt32)
  | close (id : UInt32)
  | dispose

def RegistryCall.run : RegistryCall → RegistryM σ (Option UInt32)
  | .prepare command => (fun p => some p.statementId) <$> registryPrepare sdk sizes command
  | .execute command out => (fun _ => none) <$> registryExecute sdk command out
  | .parameter id index => (fun _ => none) <$> registryParameter sdk id index
  | .column id index => (fun _ => none) <$> registryColumn sdk id index
  | .reset id => (fun _ => none) <$> registryReset sdk id
  | .close id => (fun _ => none) <$> registryClose sdk id
  | .dispose => (fun _ => none) <$> registryDispose sdk

def RegistryCall.needsReady : RegistryCall → Bool
  | .close _ | .dispose => false
  | _ => true

/-- The identifiers handed out by a sequence of calls, and the world after it. -/
def registryRun : List RegistryCall → RegistryWorld σ → List UInt32 × RegistryWorld σ
  | [], w => ([], w)
  | call :: calls, w =>
    match call.run sdk sizes w with
    | .ok id w => (id.toList ++ (registryRun calls w).1, (registryRun calls w).2)
    | .error _ w => registryRun calls w

structure Steps (sizes : Sizes) (config : RegistryConfig) (w : RegistryWorld σ)
    (result : EStateM.Result Failure (RegistryWorld σ) (Option UInt32)) : Prop where
  inv : RegistryInv sizes config (final result).registry
  refused : Refusing w.registry → Refusing (final result).registry ∧
    ∀ id w', result ≠ .ok (some id) w'
  handed : ∀ {id w'}, result = .ok (some id) w' → w.registry.lastId ≠ 0xFFFFFFFF ∧
    id = w.registry.lastId + 1 ∧ w'.registry.lastId = id
  silent : (∀ id w', result ≠ .ok (some id) w') →
    (final result).registry.lastId = w.registry.lastId ∨ Refusing (final result).registry

variable {sdk sizes}

/-- A call that hands out nothing and leaves the registry as it is, up to latches. -/
theorem Steps.of_kept (inv : RegistryInv sizes config (final result).registry)
    (quiet : ∀ id w', result ≠ .ok (some id) w')
    (lastId : (final result).registry.lastId = w.registry.lastId ∨
      Refusing (final result).registry)
    (refusing : Refusing w.registry → Refusing (final result).registry) :
    Steps sizes config w result :=
  ⟨inv, fun before => ⟨refusing before, quiet⟩, fun h => absurd h (quiet _ _), fun _ => lastId⟩

theorem Steps.of_same
    (inv : RegistryInv sizes config w.registry) (quiet : ∀ id w', result ≠ .ok (some id) w')
    (same : (final result).registry = w.registry) : Steps sizes config w result := by
  refine .of_kept ?_ quiet (.inl (by rw [same])) (by rw [same]; exact id)
  rwa [same]

theorem RegistryCall.run_refused (refusing : Refusing w.registry) {call : RegistryCall}
    (needs : call.needsReady) : ∃ e, call.run sdk sizes w = .error e w := by
  cases call with
  | prepare command =>
    obtain ⟨e, refused⟩ := registryCommand_refused refusing command .stmtPrepare
    exact ⟨e, by rw [RegistryCall.run, run_map, registryPrepare, run_bind_ok run_get,
      run_bind_error (run_attempt_error refused)]⟩
  | execute command out =>
    obtain ⟨e, h⟩ := registryExecute_refused refusing command out
    exact ⟨e, by rw [RegistryCall.run, run_map, h]⟩
  | parameter id _ | column id _ | reset id =>
    obtain ⟨e, refused⟩ := registryLookup_refused refusing id
    have missing : registryStatement id w = .error e w := by
      rw [registryStatement, run_bind_ok run_get, run_bind_error (run_attempt_error refused)]
    exact ⟨e, by simp only [RegistryCall.run, run_map, registryParameter, registryColumn,
      registryReset, run_bind_error missing]⟩
  | close id | dispose => cases needs

theorem final_map {β : Type} (f : α → β) (x : RegistryM σ α) :
    final ((f <$> x) w) = final (x w) := by
  rw [run_map]
  cases x w <;> rfl

theorem quiet_map (x : RegistryM σ α) (id : UInt32) (w' : RegistryWorld σ) :
    ((fun _ => none) <$> x) w ≠ .ok (some id) w' := by
  rw [run_map]
  cases x w <;> nofun

theorem Steps.of_statement (inv : RegistryInv sizes config w.registry) (id : UInt32)
    (ask : Handle → EStateM Failure (Env σ) α) :
    Steps sizes config w (((fun _ => none) <$> (do
      let statement ← registryStatement id
      lift (ask statement)) : RegistryM σ (Option UInt32)) w) := by
  refine .of_same inv (quiet_map _) ?_
  rw [final_map]
  exact (registryStatement_leaves id).bind (fun _ => lift_registry _) w

theorem Vacates.steps
    (inv : RegistryInv sizes config w.registry) (quiet : ∀ id w', result ≠ .ok (some id) w')
    (vacates : Vacates w (final result)) : Steps sizes config w result := by
  refine .of_kept (vacates.inv inv) quiet (.inl vacates.lastId) fun refusing => ?_
  rw [refusing_iff] at refusing ⊢
  rw [vacates.connection, vacates.closing]
  rcases refusing with off | failed | closing
  exacts [.inl off, .inr (.inl (vacates.failure failed)), .inr (.inr closing)]

theorem RegistryInv.zero {r : Registry} (inv : RegistryInv sizes config r) :
    RegistryInv sizes config .zero where
  configured := nofun
  slots := Nat.zero_le _
  vacant := by simp [Registry.zero, Vec.empty]
  named := by simp [Registry.zero, Vec.empty]
  charged := by simp [Registry.zero, Vec.empty]
  quota := by
    obtain ⟨own, -, -, quota⟩ := inv.quota
    refine ⟨0, rfl, Nat.zero_le _, ?_⟩
    simp only [slotsCharge, Registry.zero, Vec.empty, map_nil, sum_nil]
    omega

theorem registryDispose_spec (inv : RegistryInv sizes config w.registry) :
    Steps sizes config w (((fun _ => none) <$> registryDispose sdk :
      RegistryM σ (Option UInt32)) w) := by
  rw [run_map, registryDispose]
  by_cases off : w.registry.connection = false
  · rw [if_pos off]
    exact .of_same inv nofun rfl
  have vacates := registryDisposeLoop_vacates sdk w.registry.slots.items.length 0
    w.registry.failure false { w with registry.closing := true }
  dsimp only at vacates ⊢
  generalize registryDisposeLoop sdk w.registry.slots.items.length 0 w.registry.failure false
    { w with registry.closing := true } = outcome at vacates
  obtain ⟨⟨status, busy⟩, w'⟩ := outcome
  have inv' : RegistryInv sizes config w'.registry := vacates.inv (inv.latch _ _)
  have closing : Refusing w'.registry := refusing_iff.mpr (.inr (.inr vacates.closing))
  have zero : Refusing .zero := refusing_iff.mpr (.inl rfl)
  split_ifs
  · exact .of_kept inv' nofun (.inr closing) fun _ => closing
  · exact .of_kept inv.zero nofun (.inr zero) fun _ => zero
  · exact .of_kept inv.zero nofun (.inr zero) fun _ => zero

theorem Kept.steps
    (inv : RegistryInv sizes config w.registry) (quiet : ∀ id w', result ≠ .ok (some id) w')
    (kept : Kept w (final result)) : Steps sizes config w result := by
  rcases kept with same | ⟨i, held, entry, slot, registry⟩
  · exact .of_same inv quiet same
  have found : w.registry.slots.items[i]? = some (w.entry i) := by
    rw [RegistryWorld.entry, getD] at held ⊢
    cases at_ : w.registry.slots.items[i]? with
    | none => rw [at_] at held; cases held
    | some entry => rfl
  have member := mem_of_getElem? found
  have charge : entryCharge sizes entry = entryCharge sizes (w.entry i) := by
    simp only [entryCharge, slot.types, slot.values]
  refine .of_kept ?_ quiet (.inl (by rw [registry]; rfl)) fun refusing => ?_
  · rw [registry]
    refine inv.shrink (UInt32.le_refl _) found (fun vacant => ?_) ?_ ?_ (by rw [charge])
    · rw [slot.statement] at vacant
      rw [vacant] at held
      cases held
    · rw [slot.id]
      exact inv.named _ member
    · rw [charge]
      exact inv.charged _ member
  · rw [registry]
    exact refusing

theorem registryClose_vacates (sdk : Sdk σ) (id : UInt32) (w : RegistryWorld σ) :
    Vacates w (final (registryClose sdk id w)) := by
  rw [registryClose, run_bind_ok run_get]
  by_cases invalid : id = 0 ∨ w.registry.connection = false
  · rw [run_bind_error (run_reject_error invalid)]
    exact .of_same rfl
  rw [run_bind_ok (run_reject invalid)]
  cases registryFind w.registry id with
  | none => exact .of_same rfl
  | some i => exact registryEntryClose_vacates sdk i w

theorem registryPrepare_steps (inv : RegistryInv sizes config w.registry)
    (size : config.maxWireBytes ≤ sizeMax) (command : Command) :
    Steps sizes config w ((RegistryCall.prepare command).run sdk sizes w) := by
  have spec := registryPrepare_spec sdk inv size command
  by_cases refusing : Refusing w.registry
  · obtain ⟨e, refused⟩ := RegistryCall.run_refused refusing
      (show (RegistryCall.prepare command).needsReady = true from rfl)
    rw [refused]
    exact .of_same inv nofun rfl
  rw [RegistryCall.run, run_map]
  cases done : registryPrepare sdk sizes command w with
  | ok p w' =>
    obtain ⟨inv', -, more, named, last, -⟩ := spec.ok done
    refine ⟨inv', fun h => absurd h refusing, fun h => ?_, fun h => absurd rfl (h _ _)⟩
    cases h
    exact ⟨more, named, last.trans named.symm⟩
  | error e w' =>
    obtain ⟨inv', last, -⟩ := spec.error done
    exact .of_kept inv' nofun (.inl last) fun h => absurd h refusing

theorem RegistryCall.run_spec (sdk : Sdk σ) (inv : RegistryInv sizes config w.registry)
    (size : config.maxWireBytes ≤ sizeMax) (call : RegistryCall) :
    Steps sizes config w (call.run sdk sizes w) := by
  cases call with
  | prepare command => exact registryPrepare_steps inv size command
  | execute command out =>
    refine Kept.steps inv (quiet_map _) ?_
    rw [RegistryCall.run, final_map]
    exact registryExecute_spec sdk w command out
  | parameter id index => exact .of_statement inv id _
  | column id index => exact .of_statement inv id _
  | reset id => exact .of_statement inv id _
  | close id =>
    refine Vacates.steps inv (quiet_map _) ?_
    rw [RegistryCall.run, final_map]
    exact registryClose_vacates sdk id w
  | dispose => exact registryDispose_spec inv

def openIds (r : Registry) : List UInt32 :=
  r.slots.items.filterMap fun entry =>
    if entry.statement.isSome && entry.id ≠ 0 then some entry.id else none

theorem registryRun_refused (sdk : Sdk σ) (refusing : Refusing w.registry)
    (inv : RegistryInv sizes config w.registry) (size : config.maxWireBytes ≤ sizeMax)
    (calls : List RegistryCall) :
    (registryRun sdk sizes calls w).1 = [] ∧
      Refusing (registryRun sdk sizes calls w).2.registry := by
  induction calls generalizing w with
  | nil => exact ⟨rfl, refusing⟩
  | cons call calls ih =>
    have steps := RegistryCall.run_spec sdk inv size call
    obtain ⟨later, quiet⟩ := steps.refused refusing
    have inv' := steps.inv
    rw [registryRun]
    cases done : call.run sdk sizes w with
    | ok id w' =>
      rw [done] at later inv' quiet
      cases id with
      | none => exact ih later inv'
      | some id => exact absurd rfl (quiet id w')
    | error e w' =>
      rw [done] at later inv'
      exact ih later inv'

/-- Identifiers follow those handed out before and rise. -/
theorem registryRun_spec (sdk : Sdk σ) (inv : RegistryInv sizes config w.registry)
    (size : config.maxWireBytes ≤ sizeMax) (calls : List RegistryCall) :
    RegistryInv sizes config (registryRun sdk sizes calls w).2.registry ∧
      (∀ id ∈ (registryRun sdk sizes calls w).1, w.registry.lastId < id) ∧
      (registryRun sdk sizes calls w).1.Pairwise (· < ·) := by
  induction calls generalizing w with
  | nil => exact ⟨inv, by simp [registryRun], by simp [registryRun]⟩
  | cons call calls ih =>
    have steps := RegistryCall.run_spec sdk inv size call
    have inv' := steps.inv
    have silent := steps.silent
    -- After a call that hands out nothing the rest starts from the same identifier, or is refused.
    have rest : ∀ {w' : RegistryWorld σ}, RegistryInv sizes config w'.registry →
        w'.registry.lastId = w.registry.lastId ∨ Refusing w'.registry →
        RegistryInv sizes config (registryRun sdk sizes calls w').2.registry ∧
          (∀ id ∈ (registryRun sdk sizes calls w').1, w.registry.lastId < id) ∧
          (registryRun sdk sizes calls w').1.Pairwise (· < ·) := by
      rintro w' inv' (same | refusing)
      · rw [← same]
        exact ih inv'
      · have none := (registryRun_refused sdk refusing inv' size calls).1
        exact ⟨(ih inv').1, by simp [none], by simp [none]⟩
    rw [registryRun]
    cases done : call.run sdk sizes w with
    | error e w' =>
      rw [done] at inv' silent
      exact rest inv' (silent nofun)
    | ok id w' =>
      rw [done] at inv' silent
      cases id with
      | none => exact rest inv' (silent nofun)
      | some id =>
        obtain ⟨more, rfl, last⟩ := steps.handed done
        change RegistryInv sizes config w'.registry at inv'
        obtain ⟨all, above, rising⟩ := ih inv'
        rw [last] at above
        have next : w.registry.lastId < w.registry.lastId + 1 := UInt32.lt_add_one more
        refine ⟨all, fun id mem => ?_, pairwise_cons.mpr ⟨above, rising⟩⟩
        rcases mem_cons.mp mem with rfl | mem
        · exact next
        · exact UInt32.lt_trans next (above id mem)

theorem filterMap_set {β : Type} {f : α → Option β} {entries : List α} {i : Nat} {old new : α}
    (found : entries[i]? = some old) (same : f new = f old) :
    (entries.set i new).filterMap f = entries.filterMap f := by
  induction entries generalizing i with
  | nil => rfl
  | cons entry entries ih =>
    cases i with
    | zero =>
      obtain rfl : entry = old := by simpa using found
      simp [filterMap_cons, same]
    | succ i => simp [filterMap_cons, ih (by simpa using found)]

theorem openIds_prepare {command : Command} {e : Failure} {w' : RegistryWorld σ}
    (inv : RegistryInv sizes config w.registry) (size : config.maxWireBytes ≤ sizeMax)
    (failed : registryPrepare sdk sizes command w = .error e w') :
    openIds w'.registry = openIds w.registry ∧ (Released w w' ∨ Refusing w'.registry) := by
  obtain ⟨-, -, outcome⟩ := (registryPrepare_spec sdk inv size command).error failed
  rcases outcome with released | ⟨failure, _, _, _, _, _, _, _, slots⟩
  · exact ⟨by rw [released.1], .inl released⟩
  · refine ⟨?_, .inr (refusing_iff.mpr (.inr (.inl failure)))⟩
    rcases slots with same | ⟨-, i, statement, types, values, vacant, slots⟩
    · rw [openIds, same, openIds]
    · rw [openIds, slots, openIds]
      exact filterMap_set vacant rfl

theorem registryVector_made (zero : α) (count : Nat) (answer : VectorAnswer)
    (made : (registryVector zero count answer).2 = .ok ()) :
    (registryVector zero count answer).1 = ⟨replicate count zero, count⟩ := by
  have failed : ∀ {status : StlStatus}, status ≠ .ok → registryStl status ≠ .ok () := by
    intro status bad
    cases status with
    | ok => exact absurd rfl bad
    | outOfMemory | capacityExceeded | other => nofun
  unfold registryVector at made ⊢
  split_ifs at made ⊢ with none init reserve resize
  · rw [none]
    rfl
  · exact absurd made (failed init)
  · exact absurd made (failed reserve)
  · exact absurd made (failed resize)
  · rfl

/-- A registry that has been made has empty slots only, and they fit the quota. -/
theorem registryInit_inv {config : RegistryConfig} {w w' : RegistryWorld σ}
    (made : registryInit sdk sizes config w = .ok () w') :
    RegistryInv sizes config w'.registry ∧ w'.registry.lastId = 0 := by
  obtain ⟨answer, w1, answered, -⟩ := registryVectorAnswer_ok sdk config.maxStatements w
  simp only [registryInit, run_bind_ok run_get, run_bind_reject_eq_ok, run_bind_given_eq_ok,
    run_bind_ok answered] at made
  obtain ⟨-, -, own, asked, full, made⟩ := made
  have slots := registryVector_made RegistryEntry.empty config.maxStatements answer
  generalize registryVector RegistryEntry.empty config.maxStatements answer = vector at made slots
  obtain ⟨vector, outcome⟩ := vector
  cases outcome with
  | error e =>
    cases made
  | ok _ =>
    cases made
    obtain rfl := slots rfl
    have empty : ∀ entry ∈ replicate config.maxStatements RegistryEntry.empty,
        entry = .empty := fun entry mem => eq_of_mem_replicate mem
    refine ⟨⟨fun _ => rfl, ?_, fun entry mem _ => empty entry mem, fun entry mem => ?_,
      fun entry mem => ?_, own, asked, by omega, ?_⟩, rfl⟩
    · simp
    · rw [empty entry mem]
      exact UInt32.zero_le
    · rw [empty entry mem]
      rfl
    · have none : slotsCharge sizes (replicate config.maxStatements .empty) = 0 := by
        simp [slotsCharge, map_replicate, entryCharge_empty]
      simp only [none]
      omega

/-- Identifiers, slots and bytes of a registry over every history of calls, and what a failed
prepare and a successful close do at its end. -/
theorem registry_history {config : RegistryConfig} {start made : RegistryWorld σ}
    (initialized : registryInit sdk sizes config start = .ok () made)
    (size : config.maxWireBytes ≤ sizeMax) (calls : List RegistryCall) :
    let ids := (registryRun sdk sizes calls made).1
    let w := (registryRun sdk sizes calls made).2
    (∀ id ∈ ids, id ≠ 0) ∧ ids.Pairwise (· < ·) ∧
    registryCount w.registry ≤ config.maxStatements ∧
    (∃ used, registryBytes sizes w.registry = some used ∧ used ≤ config.maxWireBytes) ∧
    (∀ command e w', registryPrepare sdk sizes command w = .error e w' →
      openIds w'.registry = openIds w.registry ∧
      (Released w w' ∨ ∀ (later : List RegistryCall) (call : RegistryCall), call.needsReady = true →
        ∃ e, call.run sdk sizes (registryRun sdk sizes later w').2 =
          .error e (registryRun sdk sizes later w').2)) ∧
    ∀ id w', registryClose sdk id w = .ok () w' →
      { w'.registry with slots := w.registry.slots } = w.registry ∧
      (∀ i, w'.entry i ≠ w.entry i → (w.entry i).id = id) ∧
      (w'.env.log = w.env.log ∨ ∃ i statement, (w.entry i).id = id ∧
        (w.entry i).statement = some statement ∧
        w'.env.log = w.env.log ++ [.closed statement (.ok ())]) := by
  obtain ⟨inv₀, first⟩ := registryInit_inv initialized
  obtain ⟨inv, above, rising⟩ := registryRun_spec sdk inv₀ size calls
  refine ⟨fun id mem zero => ?_, rising, ?_, inv.bytes size, fun command e w' failed => ?_,
    fun id w' closed => ?_⟩
  · have := above id mem
    rw [zero] at this
    exact absurd this (by simp)
  · exact Nat.le_trans countP_le_length inv.slots
  · obtain ⟨same, outcome⟩ := openIds_prepare inv size failed
    refine ⟨same, outcome.imp_right fun refusing later call needs => ?_⟩
    have inv' := ((registryPrepare_spec sdk inv size command).error failed).1
    exact RegistryCall.run_refused (registryRun_refused sdk refusing inv' size later).2 needs
  · rcases registryClose_ok closed with ⟨same, log⟩ | ⟨i, statement, named, held, registry, log⟩
    · refine ⟨by rw [same], fun i changed => ?_, .inl log⟩
      exact absurd (entry_congr same i) changed
    · refine ⟨by rw [registry]; rfl, fun j changed => ?_, .inr ⟨i, statement, named, held, log⟩⟩
      by_cases here : i = j
      · rwa [← here]
      · refine absurd ?_ changed
        simp [entry, registry, setEntry, getD, here]

theorem registry_history_reused :
    let config : RegistryConfig := ⟨2, 4096, 64, ⟨4, 4, 64, 64, 100, 100⟩⟩
    let prepare : RegistryCall := .prepare ⟨.stmtPrepare, 0, [0x31], [0x16, 0x31]⟩
    (registryRun Sdk.counting ⟨8, 96, 96, 8, 40, 8⟩ [prepare, prepare, .close 1, prepare]
      ⟨⟨true, config, ⟨[.empty, .empty], 2⟩, 0, .ok, false⟩, ⟨(0, []), []⟩⟩).1.Pairwise (· < ·) := by
  intro config prepare
  have made : registryInit Sdk.counting ⟨8, 96, 96, 8, 40, 8⟩ config
      ⟨.zero, ⟨(0, []), []⟩⟩ = .ok () ⟨⟨true, config, ⟨[.empty, .empty], 2⟩, 0, .ok, false⟩, ⟨(0, []), []⟩⟩ := by
    rfl
  exact (registry_history made (by decide) [prepare, prepare, .close 1, prepare]).2.1

end History

end TurboDb.Mysql
