import TurboDb.Budget.Ledger

/-!
Every run of the ledger stays within its limits and computes exactly.

From a ledger within its limits each entry point fails and leaves the machine as
it was, or reaches a ledger within its limits with all arithmetic exact. Runs
follow by induction on the calls, for any amounts.
-/

namespace TurboDb.Budget

open Effect Words Amount Ledger

theorem Resource.mem_all (r : Resource) : r ∈ Resource.all := by
  cases r <;> decide

theorem Resource.nodup_all : Resource.all.Nodup := by decide

/-- What the ledger promises its callers between any two calls. -/
structure Ledger.Within (l : Ledger) : Prop where
  used : ∀ r, l.used r ≤ l.limits.statement r
  readRows : l.transactionUsed.readRows ≤ l.limits.transaction.readRows
  readBytes : l.transactionUsed.readBytes ≤ l.limits.transaction.readBytes
  writeBytes : l.transactionUsed.writeBytes ≤ l.limits.transaction.writeBytes
  retained : l.retainedWorkBytes ≤ l.used .workBytes
  peak : ∀ r, l.used r ≤ l.peak r
  idle : l.statementActive = false →
    l.used .workBytes = l.retainedWorkBytes ∧ l.used .materializedRows = 0 ∧ l.used .groups = 0

/-- A machine between two calls whose arithmetic has been exact so far. -/
def Machine.Sound (m : Machine) : Prop := m.ledger.Within ∧ m.exact = true

/-- From a sound machine the program fails without effect or stays sound. -/
def Keeps {α : Type} (x : BudgetM α) : Prop :=
  ∀ m : Machine, m.Sound → Wp x (fun _ t => t.Sound) (fun _ t => t = m) m

section Primitives

variable {m : Machine} {error : Failure → Machine → Prop}
variable {ok : UInt64 → Machine → Prop} {a b : UInt64}

theorem wp_minus (h : SubExact a b) : Wp (minus a b) ok error m ↔ ok (a - b) m := by
  simp [minus, h]

theorem wp_plus (h : AddExact a b) : Wp (plus a b) ok error m ↔ ok (a + b) m := by
  simp [plus, h]

theorem wp_times (h : MulExact a b) : Wp (times a b) ok error m ↔ ok (a * b) m := by
  simp [times, h]

@[simp] theorem wp_ledger {ok : Ledger → Machine → Prop} :
    Wp ledger ok error m ↔ ok m.ledger m := by simp [ledger]

@[simp] theorem wp_store {ok : Unit → Machine → Prop} (l : Ledger) :
    Wp (store l) ok error m ↔ ok () { m with ledger := l } := by simp [store]

@[simp] theorem wp_requireActive {ok : Unit → Machine → Prop} (budget : Bool) :
    Wp (requireActive budget) ok error m ↔
      (budget = false → error ⟨.invalidArgument, budgetRequired⟩ m) ∧
      (budget → m.ledger.statementActive = false →
        error ⟨.invalidState, "TidesDB SQL budget requires an active statement"⟩ m) ∧
      (budget → m.ledger.statementActive → ok () m) := by
  cases budget <;> simp [requireActive]

/-- A guard whose counter is within its limit only tests; it changes nothing. -/
theorem wp_admitResource {limit used amount : UInt64} {scope resource : String} (h : used ≤ limit) :
    Wp (admitResource limit used amount scope resource)
      (fun _ t => t = m ∧ ¬ limit - used < amount) (fun _ t => t = m) m := by
  simp only [admitResource, wp_bind, wp_minus h, wp_reject]
  exact ⟨fun _ => trivial, fun room => ⟨trivial, room⟩⟩

end Primitives

variable {m : Machine} {amount : Amount}

/-- The counters after a reservation that passed its guards. -/
def Ledger.charged (l : Ledger) (amount : Amount) : Ledger :=
  { l with
    used := fun i => l.used i + amount i
    peak := fun i => if l.used i + amount i > l.peak i then l.used i + amount i else l.peak i
    transactionUsed :=
      ⟨l.transactionUsed.readRows + amount .readRows,
        l.transactionUsed.readBytes + amount .readBytes,
        l.transactionUsed.writeBytes + amount .writeBytes⟩ }

structure Ledger.Room (l : Ledger) (amount : Amount) : Prop where
  statement : ∀ r, ¬ l.limits.statement r - l.used r < amount r
  readRows : ¬ l.limits.transaction.readRows - l.transactionUsed.readRows < amount .readRows
  readBytes : ¬ l.limits.transaction.readBytes - l.transactionUsed.readBytes < amount .readBytes
  writeBytes :
    ¬ l.limits.transaction.writeBytes - l.transactionUsed.writeBytes < amount .writeBytes

theorem wp_admitStatement (within : m.ledger.Within) (amount : Amount) : Wp (admitStatement amount)
      (fun _ t => t = m ∧
        ∀ r, ¬ m.ledger.limits.statement r - m.ledger.used r < amount r)
      (fun _ t => t = m) m := by
  refine (wp_forM Resource.all _ (fun rest t => t = m ∧
    ∀ r, r ∉ rest → ¬ m.ledger.limits.statement r - m.ledger.used r < amount r) ?_ ?_).mono
    (fun _ t h => ⟨h.1, fun r => h.2 r List.not_mem_nil⟩) (fun _ _ h => h)
  · rintro i rest t ⟨rfl, tested⟩
    simp only [wp_bind, wp_ledger]
    refine (wp_admitResource (within.used i)).mono ?_ (fun _ _ h => h)
    rintro _ u ⟨rfl, room⟩
    refine ⟨rfl, fun r hr => ?_⟩
    by_cases hi : r = i
    · exact hi ▸ room
    · exact tested r (by simp [hi, hr])
  · exact ⟨rfl, fun r hr => absurd r.mem_all hr⟩

/-- The partly charged ledger: resources still to visit keep their counters. -/
def Ledger.chargedBut (l : Ledger) (amount : Amount) (rest : List Resource) : Ledger :=
  { l with
    used := fun i => if i ∈ rest then l.used i else l.used i + amount i
    peak := fun i => if i ∈ rest then l.peak i else
      if l.used i + amount i > l.peak i then l.used i + amount i else l.peak i }

theorem Ledger.chargedBut_all (l : Ledger) (amount : Amount) :
    l.chargedBut amount Resource.all = l := by
  simp [chargedBut, Resource.mem_all]

theorem wp_charge {l : Ledger} {i : Resource} {rest : List Resource}
    {error : Failure → Machine → Prop} (fresh : i ∉ rest)
    (fits : AddExact (l.used i) (amount i)) :
    Wp (charge amount i) (fun _ t => t = ⟨l.chargedBut amount rest, true⟩) error
      ⟨l.chargedBut amount (i :: rest), true⟩ := by
  have hused : (l.chargedBut amount (i :: rest)).used i = l.used i := by
    simp [chargedBut]
  have hpeak : (l.chargedBut amount (i :: rest)).peak i = l.peak i := by
    simp [chargedBut]
  simp only [charge, wp_bind, wp_ledger, hused, hpeak, wp_plus fits, wp_store]
  congr 1
  simp only [chargedBut, mk.injEq, true_and, and_true]
  refine ⟨?_, ?_⟩
  · funext r
    by_cases hr : r = i
    · simp [hr, fresh]
    · simp [set_ne _ _ hr, hr]
  · funext r
    by_cases hr : r = i
    · split <;> simp [*]
    · split <;> simp [set_ne _ _ hr, hr]

theorem wp_chargeStatement {error : Failure → Machine → Prop}
    (sound : m.Sound) (fits : ∀ r, AddExact (m.ledger.used r) (amount r)) :
    Wp (chargeStatement amount)
      (fun _ t => t = ⟨m.ledger.chargedBut amount [], true⟩) error m := by
  refine (wp_forM Resource.all _ (fun rest t => rest.Nodup ∧
    t = ⟨m.ledger.chargedBut amount rest, true⟩) ?_ ⟨Resource.nodup_all, ?_⟩).mono
    (fun _ t h => h.2) (fun _ _ h => h)
  · rintro i rest t ⟨nodup, rfl⟩
    obtain ⟨fresh, nodup⟩ := List.nodup_cons.mp nodup
    exact (wp_charge fresh (fits i)).mono (fun _ _ h => ⟨nodup, h⟩) (fun _ _ h => h)
  · obtain ⟨l, e⟩ := m
    obtain ⟨_, rfl⟩ := sound
    rw [chargedBut_all]

/-- A reservation charges every counter or none. -/
theorem wp_reserve (sound : m.Sound) (budget : Bool) (amount : Option Amount) :
    Wp (reserve budget amount)
      (fun _ t => ∃ a, amount = some a ∧ m.ledger.statementActive ∧
        m.ledger.Room a ∧ t = ⟨m.ledger.charged a, true⟩)
      (fun _ t => t = m) m := by
  obtain ⟨within, exact⟩ := sound
  simp only [reserve, wp_bind, wp_requireActive, wp_given, wp_ledger]
  refine ⟨fun _ => trivial, fun _ _ => trivial, fun _ active => ⟨fun _ => trivial, ?_⟩⟩
  intro a ha
  refine (wp_admitStatement within a).mono ?_ (fun _ _ h => h)
  rintro _ t ⟨rfl, statement⟩
  refine (wp_admitResource within.readRows).mono ?_ (fun _ _ h => h)
  rintro _ t ⟨rfl, readRows⟩
  refine (wp_admitResource within.readBytes).mono ?_ (fun _ _ h => h)
  rintro _ t ⟨rfl, readBytes⟩
  refine (wp_admitResource within.writeBytes).mono ?_ (fun _ _ h => h)
  rintro _ t ⟨rfl, writeBytes⟩
  refine (wp_chargeStatement ⟨within, exact⟩
    fun r => addExact_of_le_sub (within.used r) (statement r)).mono ?_ (fun _ _ h => h)
  rintro _ t rfl
  have frame : (t.ledger.chargedBut a []).transactionUsed = t.ledger.transactionUsed := rfl
  rw [frame, wp_plus (addExact_of_le_sub within.readRows readRows),
    wp_plus (addExact_of_le_sub within.readBytes readBytes),
    wp_plus (addExact_of_le_sub within.writeBytes writeBytes), wp_store]
  exact ⟨a, ha, active, ⟨statement, readRows, readBytes, writeBytes⟩,
    by simp [charged, chargedBut]⟩

theorem Ledger.Within.charged {l : Ledger} (within : l.Within)
    (active : l.statementActive) (room : l.Room amount) : (l.charged amount).Within where
  used r := by
    have := within.used r
    have := room.statement r
    simp only [Ledger.charged]
    grind
  readRows := by
    have := within.readRows
    have := room.readRows
    simp only [Ledger.charged]
    grind
  readBytes := by
    have := within.readBytes
    have := room.readBytes
    simp only [Ledger.charged]
    grind
  writeBytes := by
    have := within.writeBytes
    have := room.writeBytes
    simp only [Ledger.charged]
    grind
  retained := by
    have := within.retained
    have := within.used .workBytes
    have := room.statement .workBytes
    simp only [Ledger.charged]
    grind
  peak r := by
    simp only [Ledger.charged]
    grind
  idle inactive := by simp [Ledger.charged, active] at inactive

theorem keeps_reserve (budget : Bool) (amount : Option Amount) : Keeps (reserve budget amount) := by
  intro m sound
  refine (wp_reserve sound budget amount).mono ?_ (fun _ _ h => h)
  rintro _ t ⟨a, -, active, room, rfl⟩
  exact ⟨sound.1.charged active room, rfl⟩

/-- A capacity reservation charges work bytes alone, by the exact product. -/
theorem wp_reserveCapacity (sound : m.Sound) (budget : Bool)
    (capacity elementBytes overheadBytes : UInt64) (reserved : Bool) :
    Wp (reserveCapacity budget capacity elementBytes overheadBytes reserved)
      (fun bytes t => m.ledger.statementActive ∧
        m.ledger.Room (single .workBytes bytes) ∧
        t = ⟨m.ledger.charged (single .workBytes bytes), true⟩)
      (fun _ t => t = m) m := by
  simp only [reserveCapacity, wp_bind, wp_requireActive, wp_reject, wp_minus (le_max _)]
  refine ⟨fun _ => trivial, fun _ _ => trivial, fun _ _ => ⟨fun _ => trivial, ?_⟩⟩
  intro usable
  refine ⟨fun _ => trivial, fun room => ?_⟩
  obtain ⟨product, sum⟩ := scaleExact_of_le_div (fun h => usable (.inr h)) room
  rw [wp_times product, wp_plus sum]
  refine (wp_reserve sound budget _).mono ?_ (fun _ _ h => h)
  rintro _ t ⟨a, ha, active, charge, rfl⟩
  obtain rfl := Option.some.inj ha
  simpa only [wp_pure] using ⟨active, charge, trivial⟩

theorem keeps_reserveCapacity (budget : Bool) (capacity elementBytes overheadBytes : UInt64)
    (reserved : Bool) :
    Keeps (reserveCapacity budget capacity elementBytes overheadBytes reserved) := by
  intro m sound
  refine (wp_reserveCapacity sound budget capacity elementBytes overheadBytes reserved).mono ?_
    (fun _ _ h => h)
  rintro _ t ⟨active, room, rfl⟩
  exact ⟨sound.1.charged active room, rfl⟩

theorem keeps_reserveRetainedCapacity (budget : Bool)
    (capacity elementBytes overheadBytes : UInt64) (reserved : Bool) :
    Keeps (reserveRetainedCapacity budget capacity elementBytes overheadBytes reserved) := by
  intro m sound
  simp only [reserveRetainedCapacity, wp_bind, wp_reject]
  refine ⟨fun _ => trivial, fun _ => ?_⟩
  refine (wp_reserveCapacity sound budget capacity elementBytes overheadBytes true).mono ?_
    (fun _ _ h => h)
  rintro bytes t ⟨active, room, rfl⟩
  have within := sound.1.charged active room
  have hused : (m.ledger.charged (single .workBytes bytes)).used .workBytes =
      m.ledger.used .workBytes + bytes := by
    simp [charged, single]
  have hroom : ¬ m.ledger.limits.statement .workBytes - m.ledger.used .workBytes < bytes := by
    simpa [single] using room.statement .workBytes
  have hretained := sound.1.retained
  have hlimit := sound.1.used .workBytes
  have retainedRoom : ¬ m.ledger.limits.statement .workBytes - m.ledger.retainedWorkBytes <
      bytes := by
    grind
  have fits : AddExact m.ledger.retainedWorkBytes bytes :=
    addExact_of_le_sub (by grind) retainedRoom
  have frame : (m.ledger.charged (single .workBytes bytes)).retainedWorkBytes =
      m.ledger.retainedWorkBytes := rfl
  simp only [wp_ledger, frame, wp_plus fits, wp_store, wp_pure]
  refine ⟨{ within with retained := ?_, idle := ?_ }, rfl⟩
  · grind
  · intro inactive
    exact absurd (active.symm.trans inactive) (by decide)

/-- Initialisation never reads the storage it overwrites. -/
theorem wp_init (out : Bool) (limits : Option Limits) :
    Wp (init out limits) (fun _ t => t.ledger.Within ∧ t.exact = m.exact) (fun _ t => t = m) m := by
  simp only [init, wp_bind, wp_reject, wp_given]
  refine ⟨fun _ => trivial, fun _ => ⟨fun _ => trivial, fun limits _ => ?_⟩⟩
  refine (wp_forM Resource.all _ (fun _ t => t = m) ?_ rfl).mono ?_ (fun _ _ h => h)
  · simp
  · rintro _ t rfl
    simp only [wp_store]
    refine ⟨fun _ => trivial, fun _ => ⟨?_, trivial⟩⟩
    constructor <;> simp

theorem keeps_init (out : Bool) (limits : Option Limits) : Keeps (init out limits) := by
  intro m sound
  exact (wp_init out limits).mono (fun _ t h => ⟨h.1, h.2.trans sound.2⟩) (fun _ _ h => h)

theorem keeps_begin (budget : Bool) : Keeps (begin budget) := by
  intro m sound
  simp only [begin, wp_bind, wp_reject, wp_ledger, wp_store]
  refine ⟨fun _ => trivial, fun _ => ⟨fun _ => trivial, fun _ => ⟨?_, sound.2⟩⟩⟩
  have baseline : ∀ r, single .workBytes m.ledger.retainedWorkBytes r ≤ m.ledger.used r := by
    intro r
    by_cases hr : r = .workBytes
    · simpa [hr, single] using sound.1.retained
    · simp [single, set_ne _ _ hr]
  exact
    { sound.1 with
      used := fun r => UInt64.le_trans (baseline r) (sound.1.used r)
      retained := by simp [single]
      peak := fun r => UInt64.le_refl _
      idle := by simp }

/-- The closing test leaves no releasable resource beyond the retained bytes. -/
theorem wp_endStatement (budget : Bool) : Wp (endStatement budget)
      (fun _ t => m.ledger.used .workBytes = m.ledger.retainedWorkBytes ∧
        m.ledger.used .materializedRows = 0 ∧ m.ledger.used .groups = 0 ∧
        t = { m with ledger := { m.ledger with statementActive := false } })
      (fun _ t => t = m) m := by
  simp only [endStatement, wp_bind, wp_requireActive]
  refine ⟨fun _ => trivial, fun _ _ => trivial, fun _ _ => ?_⟩
  refine (wp_forM Resource.all _ (fun rest t => t = m ∧ ∀ r, r ∉ rest → releasable r = true →
    m.ledger.used r = if r = .workBytes then m.ledger.retainedWorkBytes else 0)
    ?_ ⟨rfl, fun r hr => absurd r.mem_all hr⟩).mono ?_ (fun _ _ h => h)
  · rintro i rest t ⟨rfl, tested⟩
    simp only [wp_bind, wp_ledger, wp_reject]
    refine ⟨fun _ => trivial, fun settled => ⟨trivial, fun r hr owned => ?_⟩⟩
    by_cases hi : r = i
    · subst hi
      exact Classical.not_not.mp fun h => settled ⟨owned, h⟩
    · exact tested r (by simp [hi, hr]) owned
  · rintro _ t ⟨rfl, settled⟩
    have work := settled .workBytes List.not_mem_nil rfl
    have rows := settled .materializedRows List.not_mem_nil rfl
    have groups := settled .groups List.not_mem_nil rfl
    simp only [wp_ledger, wp_store]
    exact ⟨work, rows, groups, trivial⟩

theorem keeps_endStatement (budget : Bool) : Keeps (endStatement budget) := by
  intro m sound
  refine (wp_endStatement budget).mono ?_ (fun _ _ h => h)
  rintro _ t ⟨work, rows, groups, rfl⟩
  exact ⟨{ sound.1 with idle := fun _ => ⟨work, rows, groups⟩ }, sound.2⟩

/-- Lowering one counter keeps the ledger within its limits as long as work
bytes stay above the retained part and nothing is owned outside a statement. -/
theorem Ledger.Within.lower {l : Ledger} (within : l.Within) {r : Resource} {v retained : UInt64}
    (lower : v ≤ l.used r) (kept : retained ≤ l.used.set r v .workBytes)
    (idle : l.statementActive = false → l.used.set r v .workBytes = retained ∧
      l.used.set r v .materializedRows = 0 ∧ l.used.set r v .groups = 0) :
    { l with used := l.used.set r v, retainedWorkBytes := retained : Ledger }.Within := by
  have below : ∀ i, l.used.set r v i ≤ l.used i := by
    intro i
    by_cases hi : i = r
    · simpa [hi] using lower
    · simp [set_ne _ _ hi]
  exact
    { within with
      used := fun i => UInt64.le_trans (below i) (within.used i)
      retained := kept
      peak := fun i => UInt64.le_trans (below i) (within.peak i)
      idle }

theorem keeps_release (budget : Bool) (resource : Option Resource) (amount : UInt64) :
    Keeps (release budget resource amount) := by
  intro m sound
  simp only [release, wp_bind, wp_requireActive, wp_given, wp_ledger, wp_reject]
  refine ⟨fun _ => trivial, fun _ _ => trivial, fun _ active => ⟨fun _ => trivial, ?_⟩⟩
  intro r _
  refine ⟨fun _ => trivial, fun owned => ?_⟩
  have exact : amount ≤ m.ledger.used r := by
    grind
  have inactive : m.ledger.statementActive = false → ∀ P : Prop, P :=
    fun h => absurd (active.symm.trans h) (by decide)
  by_cases work : r = .workBytes
  · simp only [work, if_true, wp_bind, wp_minus (work ▸ exact), wp_reject, wp_store]
    refine ⟨fun _ => trivial, fun kept => ⟨?_, sound.2⟩⟩
    refine sound.1.lower ?_ ?_ (fun h => inactive h _)
    · grind
    · rw [set_self]
      grind
  · simp only [work, if_false, wp_bind, wp_minus exact, wp_store]
    refine ⟨sound.1.lower (by grind) ?_ (fun h => inactive h _), sound.2⟩
    rw [set_ne _ _ (Ne.symm work)]
    exact sound.1.retained

theorem keeps_releaseRetained (budget : Bool) (amount : UInt64) :
    Keeps (releaseRetained budget amount) := by
  intro m sound
  simp only [releaseRetained, wp_bind, wp_reject, wp_ledger]
  refine ⟨fun _ => trivial, fun _ => ⟨fun _ => trivial, fun owned => ?_⟩⟩
  have retained : amount ≤ m.ledger.retainedWorkBytes := by
    grind
  have used : amount ≤ m.ledger.used .workBytes := by
    grind
  rw [wp_minus retained, wp_minus used, wp_store]
  have hretained := sound.1.retained
  refine ⟨sound.1.lower (by grind) ?_ fun inactive => ?_, sound.2⟩
  · rw [set_self]
    grind
  · obtain ⟨work, rows, groups⟩ := sound.1.idle inactive
    rw [set_self, set_ne _ _ (by decide), set_ne _ _ (by decide), work]
    exact ⟨rfl, rows, groups⟩

theorem keeps_resetTransaction (budget : Bool) : Keeps (resetTransaction budget) := by
  intro m sound
  simp only [resetTransaction, wp_bind, wp_reject, wp_ledger, wp_store]
  refine ⟨fun _ => trivial, fun _ => ⟨fun _ => trivial, fun _ => ⟨?_, sound.2⟩⟩⟩
  exact { sound.1 with readRows := by simp, readBytes := by simp, writeBytes := by simp }

theorem keeps_call (c : Call) : Keeps (call c) := by
  cases c with
  | init out limits => exact keeps_init out limits
  | begin budget => exact keeps_begin budget
  | endStatement budget => exact keeps_endStatement budget
  | reserve budget amount => exact keeps_reserve budget amount
  | reserveCapacity budget capacity elementBytes overheadBytes reserved =>
    intro m sound
    simpa only [call, wp_bind, wp_pure] using
      keeps_reserveCapacity budget capacity elementBytes overheadBytes reserved m sound
  | release budget resource amount => exact keeps_release budget resource amount
  | reserveRetainedCapacity budget capacity elementBytes overheadBytes reserved =>
    intro m sound
    simpa only [call, wp_bind, wp_pure] using
      keeps_reserveRetainedCapacity budget capacity elementBytes overheadBytes reserved m sound
  | releaseRetained budget amount => exact keeps_releaseRetained budget amount
  | resetTransaction budget => exact keeps_resetTransaction budget

theorem sound_run (calls : List Call) (m : Machine) (sound : m.Sound) : (run calls m).Sound := by
  induction calls generalizing m with
  | nil => exact sound
  | cons c rest ih =>
    have step := keeps_call c m sound
    simp only [run]
    cases h : call c m with
    | ok a next => exact ih next (step.of_ok h)
    | error e next => exact ih next (step.of_error h ▸ sound)

/-- From the first successful `init` on, over every sequence of calls with
arbitrary arguments: the ledger stays within its limits, owns nothing but the
retained bytes outside a statement, has never subtracted below zero nor wrapped
a sum or product, and the next call, if it fails, leaves the ledger alone. -/
theorem run_within_limits (storage : Ledger) (limits : Limits) (m : Machine)
    (opened : init true (some limits) ⟨storage, true⟩ = .ok () m) (calls : List Call) :
    (run calls m).ledger.Within ∧ (run calls m).exact = true ∧
      ∀ c e next, call c (run calls m) = .error e next → next.ledger = (run calls m).ledger := by
  have sound := sound_run calls m ((wp_init true (some limits)).of_ok opened)
  refine ⟨sound.1, sound.2, fun c e next failed => ?_⟩
  rw [(keeps_call c _ sound).of_error failed]

/-- A ledger with limits of one, then a reservation, a refused one and a release. -/
theorem run_within_limits_unit :
    let limits : Limits := ⟨fun _ => 1, ⟨1, 1, 1⟩⟩
    let fresh : Ledger := ⟨limits, fun _ => 0, fun _ => 0, ⟨0, 0, 0⟩, 0, false⟩
    let calls : List Call :=
      [.begin true, .reserve true (some fun _ => 1), .reserve true (some fun _ => 1),
        .release true (some .workBytes) 1]
    (run calls ⟨fresh, true⟩).ledger.Within ∧ (run calls ⟨fresh, true⟩).exact = true :=
  let limits : Limits := ⟨fun _ => 1, ⟨1, 1, 1⟩⟩
  let fresh : Ledger := ⟨limits, fun _ => 0, fun _ => 0, ⟨0, 0, 0⟩, 0, false⟩
  let result := run_within_limits fresh limits ⟨fresh, true⟩ rfl _
  ⟨result.1, result.2.1⟩

end TurboDb.Budget
