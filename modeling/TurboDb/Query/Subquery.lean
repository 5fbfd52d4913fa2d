import TurboDb.Expr.Compiler

/-!
Subqueries as operands.

The rows of the inner query are read at the first evaluation and kept. A lookup
goes through the kept rows, every other kind of subquery has one value by then.
The first failure is kept in place of the rows and repeated. What comes out is
told by the rows and the value that is looked up, whatever was evaluated before.

The subquery is open and not evaluated from within itself; charges are left out.
The scan of EXISTS ends after one row and that of a value after two, behind which
nothing is read here either.
-/

namespace TurboDb.Query

open Effect List

/-- How the scan of the inner query ends behind its rows. -/
inductive ScanEnd
  | done | cancelled
  | failed (failure : Failure)

inductive SubqueryState
  | pending | ready | cancelled
  | failed (failure : Failure)

/-- A subquery over the first column of the scanned rows. -/
structure Subquery where
  kind : SubqueryKind
  element : SqlType
  input : List Value
  ending : ScanEnd
  state : SubqueryState := .pending
  cache : List Value := []
  scalar : Value := .null

/-- A value to look up, with the comparison that was bound for it. -/
structure Probe where
  value : Value
  comparison : Predicate

def severalRows : Failure := ⟨.sqlError, "SQL scalar subquery returned more than one row"⟩

/-- The loop of `subquery_prepare`: the rows that are kept, and the value. -/
def prepareRows (kind : SubqueryKind) (ending : ScanEnd) :
    List Value → List Value → Value → Except Failure (List Value × Value)
  | [], cache, scalar =>
    match ending with
    | .failed failure => .error failure
    | .cancelled => .error ⟨.invalidState, "SQL subquery input cancelled"⟩
    | .done => .ok (cache, if kind = .exist ∨ kind = .notExist then .bool (kind = .notExist) else scalar)
  | value :: input, cache, scalar =>
    if kind = .exist ∨ kind = .notExist then .ok (cache, .bool (kind = .exist))
    else if kind.probe = false ∧ cache ≠ [] then .error severalRows
    else prepareRows kind ending input (cache ++ [value]) (if kind.probe then scalar else value)

def subqueryPrepare (run : Subquery) : Except Failure Subquery := do
  let (cache, scalar) ← prepareRows run.kind run.ending run.input run.cache run.scalar
  return { run with cache, scalar, state := .ready }

/-- The loop of `subquery_contains`. -/
def containsRow (probe : Probe) : List Value → Value → Except Failure Value
  | [], result => .ok result
  | element :: cache, result => do
    let equal ← predicateEval probe.comparison probe.value (some element)
    if equal.truth then return equal
    containsRow probe cache (if equal.kind = .null then equal else result)

def subqueryContains (run : Subquery) (probe : Probe) : Except Failure Value := do
  let result ← containsRow probe run.cache (.bool false)
  return if run.kind = .notIn ∧ result.kind = .boolean then .bool !result.truth else result

/-- The value that is looked up is checked before a row is read. -/
def probeCheck : Option Probe → Except Failure Unit
  | none => .ok ()
  | some probe => do
    let validator ← predicateBind .isNull probe.comparison.left none
    let _ ← predicateEval validator probe.value none

/-- What a subquery answers from what it has kept. -/
def subqueryAnswer (run : Subquery) : Option Probe → Except Failure Value
  | none => .ok run.scalar
  | some probe => subqueryContains run probe

def subqueryValue (probe : Option Probe) (run : Subquery) : Except Failure (Value × Subquery) := do
  probeCheck probe
  let run ← match run.state with
    | .pending => subqueryPrepare run
    | _ => pure run
  return (← subqueryAnswer run probe, run)

/-- An evaluation that was admitted. The first failure is kept. -/
def subqueryStart (probe : Option Probe) : EStateM Failure Subquery Value := fun run =>
  match run.state with
  | .failed failure => .error failure run
  | .cancelled => .error ⟨.invalidState, "SQL subquery is cancelled"⟩ run
  | _ =>
    match subqueryValue probe run with
    | .ok (value, run) => .ok value run
    | .error failure => .error failure { run with state := .failed failure }

def subqueryEval (probe : Option Probe) : EStateM Failure Subquery Value := fun run =>
  if run.kind.probe ≠ probe.isSome then
    .error ⟨.invalidArgument, "invalid SQL subquery evaluation arguments"⟩ run
  else if ∃ p ∈ probe, p.comparison.op ≠ .equal ∨ p.comparison.right ≠ run.element then
    .error ⟨.typeError, "IN comparison differs from source column"⟩ run
  else subqueryStart probe run

/-- The answers of evaluations that follow each other. -/
def subqueryAnswers : List (Option Probe) → Subquery → List (Except Failure Value)
  | [], _ => []
  | probe :: probes, run =>
    match subqueryEval probe run with
    | .ok value run => .ok value :: subqueryAnswers probes run
    | .error failure run => .error failure :: subqueryAnswers probes run

section Meaning

/-- `value IN (rows)`. -/
def isIn (value : Value) (rows : List Value) : Value :=
  if ∃ row ∈ rows, sqlEqual value row then .bool true
  else if rows ≠ [] ∧ (value = .null ∨ .null ∈ rows) then .null
  else .bool false

def sqlNot : Value → Value
  | .boolean value => .bool (value = 0)
  | _ => .null

/-- What a subquery stands for. -/
def subqueryMeaning (kind : SubqueryKind) (rows : List Value) (probe : Option Probe) :
    Except Failure Value :=
  match kind, probe with
  | .isIn, some probe => .ok (isIn probe.value rows)
  | .notIn, some probe => .ok (sqlNot (isIn probe.value rows))
  | .exist, _ => .ok (.bool (rows ≠ []))
  | .notExist, _ => .ok (.bool (rows = []))
  | _, _ =>
    match rows with
    | [] => .ok .null
    | [value] => .ok value
    | _ => .error severalRows

/-- A value of the type that its comparison with the elements was bound for. -/
structure Probe.Fits (element : SqlType) (probe : Probe) : Prop where
  bound : predicateBind .equal probe.comparison.left (some element) = .ok probe.comparison
  value : IsValue probe.comparison.left probe.value

/-- What is asked of a subquery; a lookup comes with a value. -/
def Asks (kind : SubqueryKind) (element : SqlType) : Option Probe → Prop
  | none => kind.probe = false
  | some probe => kind.probe = true ∧ probe.Fits element

end Meaning

section Lookup

variable {kind : SubqueryKind} {element : SqlType} {rows : List Value}

/-- The loop answers like `IN` once a match is found or the rows have ended. -/
theorem containsRow_eq {probe : Probe} (fits : probe.Fits element)
    (typed : ∀ row ∈ rows, IsValue element row) (result : Value) :
    containsRow probe rows result =
      .ok (if ∃ row ∈ rows, sqlEqual probe.value row then .bool true
        else if rows ≠ [] ∧ (probe.value = .null ∨ .null ∈ rows) then .null
        else result) := by
  induction rows generalizing result with
  | nil => simp [containsRow]
  | cons row rows ih =>
    obtain ⟨here, others⟩ := forall_mem_cons.mp typed
    rw [containsRow, predicateEval_equal fits.bound fits.value here, ok_bind, truth_equal]
    cases equal : sqlEqual probe.value row with
    | true =>
      have some : ¬(probe.value = .null ∨ row = .null) := by
        rintro (null | null) <;> simp [null, sqlEqual] at equal
      simp [equal, some]
    | false =>
      have next : (if (if probe.value = .null ∨ row = .null then Value.null else .bool false).kind = .null
          then (if probe.value = .null ∨ row = .null then Value.null else .bool false) else result) =
          if probe.value = .null ∨ row = .null then .null else result := by
        split_ifs <;> simp_all [Value.kind, Value.bool]
      have found : (∃ other ∈ row :: rows, sqlEqual probe.value other) ↔
          ∃ other ∈ rows, sqlEqual probe.value other := by simp [equal]
      have null : (row :: rows ≠ [] ∧ (probe.value = .null ∨ .null ∈ row :: rows)) ↔
          (rows ≠ [] ∧ (probe.value = .null ∨ .null ∈ rows)) ∨ probe.value = .null ∨ row = .null := by
        have some : Value.null ∈ rows → rows ≠ [] := ne_nil_of_mem
        grind
      simp only [if_neg (show ¬false = true by simp), next, ih others, found, null]
      split_ifs <;> simp_all

theorem isIn_cases (value : Value) (rows : List Value) :
    isIn value rows = .bool true ∨ isIn value rows = .null ∨ isIn value rows = .bool false := by
  rw [isIn]
  split_ifs <;> simp

/-- A lookup goes through the whole sequence. -/
theorem prepareRows_probe (probe : kind.probe = true) (cache : List Value) (scalar : Value) :
    prepareRows kind .done rows cache scalar = .ok (cache ++ rows, scalar) := by
  have other : ¬(kind = .exist ∨ kind = .notExist) := by
    cases kind <;> simp [SubqueryKind.probe] at probe ⊢
  induction rows generalizing cache with
  | nil => simp [prepareRows, other]
  | cons value rows ih => simp [prepareRows, other, probe, ih]

variable {probe : Option Probe}

/-- A subquery that has kept its rows answers by its meaning. -/
theorem subqueryAnswer_meaning {run : Subquery} (same : run.kind = kind)
    (read : prepareRows kind .done rows [] .null = .ok (run.cache, run.scalar))
    (asks : Asks kind element probe)
    (typed : kind.probe = true → ∀ row ∈ rows, IsValue element row) :
    ∃ value, subqueryMeaning kind rows probe = .ok value ∧ subqueryAnswer run probe = .ok value := by
  cases probe with
  | none =>
    refine ⟨run.scalar, ?_, rfl⟩
    cases kind with
    | isIn | notIn => cases asks
    | exist | notExist => cases rows <;> exact congrArg (Except.map Prod.snd) read
    | scalar =>
      rcases rows with _ | ⟨value, _ | ⟨second, rest⟩⟩
      · exact congrArg (Except.map Prod.snd) read
      · exact congrArg (Except.map Prod.snd) read
      · cases read
  | some probe =>
    obtain ⟨isProbe, fits⟩ := asks
    rw [prepareRows_probe isProbe, nil_append] at read
    obtain ⟨kept, -⟩ := Prod.mk.inj (Except.ok.inj read)
    have found : containsRow probe rows (.bool false) = .ok (isIn probe.value rows) :=
      containsRow_eq fits (typed isProbe) _
    rw [subqueryAnswer, subqueryContains, ← kept, found, ok_bind, same]
    refine ⟨_, ?_, rfl⟩
    cases kind with
    | scalar | exist | notExist => cases isProbe
    | isIn => rfl
    | notIn =>
      rw [subqueryMeaning]
      rcases isIn_cases probe.value rows with isTrue | isNull | isFalse
      · rw [isTrue]
        rfl
      · rw [isNull]
        rfl
      · rw [isFalse]
        rfl

/-- Only the value of several rows cannot be read. -/
theorem subqueryMeaning_lost {e : Failure} (read : prepareRows kind .done rows [] .null = .error e)
    (asks : Asks kind element probe) : subqueryMeaning kind rows probe = .error e := by
  cases kind with
  | isIn | notIn =>
    rw [prepareRows_probe rfl] at read
    cases read
  | exist | notExist => cases rows <;> cases read
  | scalar =>
    rcases rows with _ | ⟨value, _ | ⟨second, rest⟩⟩
    · cases read
    · cases read
    · obtain rfl : severalRows = e := Except.error.inj read
      rfl

end Lookup

section Runs

variable {kind : SubqueryKind} {element : SqlType} {rows : List Value}

/-- What a subquery has kept was read from the rows. -/
inductive Subquery.Reads (kind : SubqueryKind) (element : SqlType) (rows : List Value) :
    Subquery → Prop
  | fresh : Reads kind element rows { kind, element, input := rows, ending := .done }
  | kept {cache : List Value} {scalar : Value}
      (read : prepareRows kind .done rows [] .null = .ok (cache, scalar)) :
      Reads kind element rows ⟨kind, element, rows, .done, .ready, cache, scalar⟩
  | lost {e : Failure} (read : prepareRows kind .done rows [] .null = .error e) :
      Reads kind element rows ⟨kind, element, rows, .done, .failed e, [], .null⟩

theorem Subquery.Reads.same {run : Subquery} (reads : run.Reads kind element rows) :
    run.kind = kind ∧ run.element = element := by
  cases reads <;> exact ⟨rfl, rfl⟩

theorem probeCheck_ok {probe : Option Probe} (asks : Asks kind element probe) :
    probeCheck probe = .ok () := by
  cases probe with
  | none => rfl
  | some probe =>
    obtain ⟨-, fits⟩ := asks
    have validator := predicateBind_isNull.mpr ⟨(predicateBind_bound fits.bound).1, rfl⟩
    simp only [probeCheck, validator, ok_bind, predicateEval_isNull.mpr ⟨fits.value.1, fits.value.2, rfl⟩]
    rfl

theorem subqueryEval_asks {run : Subquery} {probe : Option Probe} (asks : Asks kind element probe)
    (same : run.kind = kind ∧ run.element = element) :
    subqueryEval probe run = subqueryStart probe run := by
  rw [subqueryEval, same.1, same.2]
  cases probe with
  | none => simp [show kind.probe = false from asks]
  | some probe =>
    obtain ⟨isProbe, bound, -⟩ := asks
    obtain ⟨-, op, right⟩ := predicateBind_bound bound
    simp [isProbe, op, right]

/-- An evaluation answers by the meaning, and what is kept then was read from the rows again. -/
theorem subqueryEval_reads {run : Subquery} (reads : run.Reads kind element rows)
    {probe : Option Probe} (asks : Asks kind element probe)
    (typed : kind.probe = true → ∀ row ∈ rows, IsValue element row) :
    ∃ run' : Subquery, run'.Reads kind element rows ∧
      subqueryEval probe run = match subqueryMeaning kind rows probe with
        | .ok value => .ok value run'
        | .error failure => .error failure run' := by
  have checked := probeCheck_ok asks
  have answers {cache : List Value} {scalar : Value}
      (read : prepareRows kind .done rows [] .null = .ok (cache, scalar)) :=
    subqueryAnswer_meaning
      (rfl : Subquery.kind ⟨kind, element, rows, .done, .ready, cache, scalar⟩ = kind) read asks typed
  rw [subqueryEval_asks asks reads.same]
  cases reads with
  | fresh =>
    cases read : prepareRows kind .done rows [] .null with
    | error e =>
      refine ⟨_, .lost read, ?_⟩
      simp only [subqueryMeaning_lost read asks, subqueryStart, subqueryValue, checked, ok_bind,
        subqueryPrepare, read]
      rfl
    | ok result =>
      obtain ⟨value, means, answer⟩ := answers read
      refine ⟨_, .kept read, ?_⟩
      simp only [means, subqueryStart, subqueryValue, checked, ok_bind, subqueryPrepare, read, pure_ok,
        answer]
  | kept read =>
    obtain ⟨value, means, answer⟩ := answers read
    refine ⟨_, .kept read, ?_⟩
    simp only [means, subqueryStart, subqueryValue, checked, ok_bind, pure_ok, answer]
  | lost read => exact ⟨_, .lost read, by rw [subqueryMeaning_lost read asks]; rfl⟩

/-- A subquery answers by its rows and the value that is looked up, however often and in which
order it is evaluated. -/
theorem subqueryAnswers_meaning (kind : SubqueryKind) (element : SqlType) (rows : List Value)
    (typed : kind.probe = true → ∀ row ∈ rows, IsValue element row) (probes : List (Option Probe))
    (asks : ∀ probe ∈ probes, Asks kind element probe) :
    subqueryAnswers probes { kind, element, input := rows, ending := .done } =
      probes.map (subqueryMeaning kind rows) := by
  suffices runs : ∀ run : Subquery, run.Reads kind element rows →
      subqueryAnswers probes run = probes.map (subqueryMeaning kind rows) from runs _ .fresh
  induction probes with
  | nil => exact fun _ _ => rfl
  | cons probe probes ih =>
    intro run reads
    obtain ⟨run', reads', evaluated⟩ := subqueryEval_reads reads (asks probe mem_cons_self) typed
    have rest := ih (fun probe member => asks probe (mem_cons_of_mem _ member)) run' reads'
    rw [subqueryAnswers, evaluated, map_cons, ← rest]
    cases subqueryMeaning kind rows probe <;> rfl

/-- `2 NOT IN (1, NULL)`, then `1 NOT IN (1, NULL)`. -/
theorem subqueryAnswers_meaning_null :
    let equal : Predicate := ⟨.equal, ⟨.int64, true⟩, ⟨.int64, true⟩, ⟨.boolean, true⟩, false⟩
    subqueryAnswers [some ⟨.int64 2, equal⟩, some ⟨.int64 1, equal⟩]
      { kind := .notIn, element := ⟨.int64, true⟩, input := [.int64 1, .null], ending := .done } =
        [.ok .null, .ok (.bool false)] := by
  intro equal
  have fits (n : Int64) : Probe.Fits ⟨.int64, true⟩ ⟨.int64 n, equal⟩ :=
    ⟨rfl, rfl, rfl⟩
  refine subqueryAnswers_meaning .notIn ⟨.int64, true⟩ [.int64 1, .null] (fun _ => ?_) _ ?_
  · simp [IsValue, validValue, validText]
  · simp [Asks, SubqueryKind.probe, fits]

end Runs

end TurboDb.Query
