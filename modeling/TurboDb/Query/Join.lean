import TurboDb.Query.ScanCorrect

/-!
Joins.

The operator is a nested loop that is resumed by every call: it keeps the left
row, the rows of the right side with the position of the next candidate, and
whether the left row was joined to any. The right side is read once, or for every
left row that it depends on. A left join gives a row with NULL on the right when
no candidate matched.

The inputs are lists of rows; the condition is a function of the joined row.
Charges to the budget are left out.
-/

namespace TurboDb.Query

open Effect Pull List

inductive JoinKind where
  | inner
  | left
  | cross
  deriving DecidableEq

inductive JoinRight where
  | fixed (rows : List Row)
  | dependent (bound : Row → Except Failure (List Row))

structure JoinKey where
  left : Nat
  right : Nat
  comparison : Predicate

def joinKey (left right : List SqlType) (key : Nat × Nat) : Except Failure JoinKey := do
  reject (left.length ≤ key.1 ∨ right.length ≤ key.2) ⟨.invalidArgument, "USING key exceeds child width"⟩
  let comparison ← predicateBind .equal (left.getD key.1 ⟨.null, true⟩)
    (some (right.getD key.2 ⟨.null, true⟩))
  pure ⟨key.1, key.2, comparison⟩

structure JoinSpec where
  kind : JoinKind
  keys : List JoinKey
  condition : Option (Row → Except Failure Value)
  leftColumns : Nat
  rightColumns : Nat
  right : JoinRight

structure JoinRun where
  spec : JoinSpec
  left : List Row
  pending : Option Row
  rows : List Row
  position : Nat
  matched : Bool
  ready : Bool
  state : ScanState

def joinOpen (spec : JoinSpec) (left : List Row) : JoinRun :=
  ⟨spec, left, none, [], 0, false, false, .opened⟩

section Run

variable (spec : JoinSpec)

def joinKeysEqual (row : Row) : List JoinKey → Except Failure Bool
  | [] => pure true
  | key :: keys => do
    let value ← predicateEval key.comparison (row.at key.left)
      (some (row.at (spec.leftColumns + key.right)))
    if value.truth then joinKeysEqual row keys else pure false

/-- The keys are compared before the condition is asked. -/
def joinCandidate (row : Row) : Except Failure Bool := do
  let isEqual ← joinKeysEqual spec row spec.keys
  match isEqual, spec.condition with
  | true, some condition => do
    let value ← condition row
    pure value.truth
  | _, _ => pure isEqual

/-- The next candidate that matches, with the position behind it, or the position that failed. -/
def joinSearch (pending : Row) : List Row → Nat → Except (Failure × Nat) (Option (Row × Nat))
  | [], _ => .ok none
  | right :: rights, position =>
    match joinCandidate spec (pending ++ right) with
    | .error cause => .error (cause, position)
    | .ok true => .ok (some (pending ++ right, position + 1))
    | .ok false => joinSearch pending rights (position + 1)

def joinMaterialize (rows : List Row) (pending : Row) : Except Failure (List Row) :=
  match spec.right with
  | .fixed _ => pure rows
  | .dependent bound => bound pending

def JoinRight.isFixed : JoinRight → Bool
  | .fixed _ => true
  | .dependent _ => false

def joinFail (cause : Failure) (run : JoinRun) : Except Failure (Option Row) × JoinRun :=
  let failure : Failure := ⟨cause.status,
    "TidesDB SQL join at candidate " ++ toString run.position ++ ": " ++ cause.message⟩
  (.error failure, { run with state := .error failure, pending := none })

def joinDone (run : JoinRun) : Except Failure (Option Row) × JoinRun :=
  (.ok none, { run with state := .done, pending := none })

def joinGive (row : Row) (run : JoinRun) : Except Failure (Option Row) × JoinRun :=
  (.ok (some row), { run with state := .row, matched := true })

def joinRow (pending : Row) (left : List Row) (run : JoinRun) :
    Option (Except Failure (Option Row) × JoinRun) :=
  match joinSearch spec pending (run.rows.drop run.position) run.position with
  | .error (cause, position) => some (joinFail cause { run with position })
  | .ok (some (row, position)) =>
    some (joinGive row { run with left, pending := some pending, position })
  | .ok none =>
    if spec.kind = .left ∧ run.matched = false then
      some (joinGive (pending ++ replicate spec.rightColumns .null)
        { run with left, pending := some pending, position := run.rows.length })
    else if spec.right.isFixed ∧ run.rows = [] ∧ spec.kind ≠ .left then
      some (joinDone { run with left })
    else none

/-- The loop of a call, with the left row at hand and those that were not read yet. -/
def joinAdvance (pending : Row) : List Row → JoinRun → Except Failure (Option Row) × JoinRun
  | [], run =>
    (joinRow spec pending [] run).getD
      (joinDone { run with left := [], position := 0, matched := false })
  | next :: left, run =>
    match joinRow spec pending (next :: left) run with
    | some answer => answer
    | none =>
      let run := { run with left, position := 0, matched := false }
      match joinMaterialize spec run.rows next with
      | .error cause => joinFail cause run
      | .ok rows => joinAdvance next left { run with rows }

/-- The first call reads a left row and, when there is one, the right side. -/
def joinFirst (run : JoinRun) : Except Failure (Option Row) × JoinRun :=
  match run.left with
  | [] => joinDone { run with ready := true }
  | pending :: left =>
    let rows := match spec.right with
      | .fixed rows => rows
      | .dependent _ => []
    match joinMaterialize spec rows pending with
    | .error cause => joinFail cause { run with left }
    | .ok rows => joinAdvance spec pending left { run with rows, ready := true }

end Run

def joinNext (run : JoinRun) : Except Failure (Option Row) × JoinRun :=
  match run.state with
  | .error failure => (.error failure, run)
  | .done | .cancelled => (.ok none, run)
  | .opened | .row =>
    if run.ready = false then joinFirst run.spec run
    else
      match run.pending with
      | none => joinDone run
      | some pending => joinAdvance run.spec pending run.left run

section Declared

variable (spec : JoinSpec)

def JoinRight.rows : JoinRight → Row → Except Failure (List Row)
  | .fixed rows, _ => .ok rows
  | .dependent bound, pending => bound pending

def JoinSpec.keysMatch (row : Row) : Bool :=
  spec.keys.all fun key => sqlEqual (row.at key.left) (row.at (spec.leftColumns + key.right))

/-- The keys are equal and the condition is TRUE. -/
def JoinSpec.matches (row : Row) : Bool :=
  spec.keysMatch row &&
    match spec.condition with
    | none => true
    | some condition =>
      match condition row with
      | .ok (.boolean value) => value ≠ 0
      | _ => false

def JoinSpec.joined (pending : Row) (rights : List Row) : List Row :=
  (rights.map (pending ++ ·)).filter spec.matches

def JoinSpec.padding (pending : Row) (unmatched : Bool) : List Row :=
  if spec.kind = .left ∧ unmatched = true then [pending ++ replicate spec.rightColumns .null]
  else []

def JoinSpec.declared (pending : Row) : List Row :=
  let rights := (spec.right.rows pending).toOption.getD []
  spec.joined pending rights ++ spec.padding pending (spec.joined pending rights).isEmpty

/-- The right side of a left row fails, or the condition on one of its candidates with equal keys. -/
def JoinSpec.Fails (pending : Row) : Prop :=
  (∃ e, spec.right.rows pending = .error e) ∨ ∃ rights, spec.right.rows pending = .ok rights ∧
    ∃ right ∈ rights, spec.keysMatch (pending ++ right) ∧
      ∃ condition e, spec.condition = some condition ∧ condition (pending ++ right) = .error e

/-- A row of these types. -/
def Row.Sound (types : List SqlType) (row : Row) : Prop :=
  Forall₂ (fun value type => IsValue type value) row types

end Declared

section Correct

variable {spec : JoinSpec} {run : JoinRun} {bad : Prop} {pending : Row} {rights left rows : List Row}

theorem joinKeysEqual_eq {row : Row} {keys : List JoinKey}
    (each : ∀ key ∈ keys, ∃ l r, predicateBind .equal l (some r) = .ok key.comparison ∧
      IsValue l (row.at key.left) ∧ IsValue r (row.at (spec.leftColumns + key.right))) :
    joinKeysEqual spec row keys =
      .ok (keys.all fun key => sqlEqual (row.at key.left) (row.at (spec.leftColumns + key.right))) := by
  induction keys with
  | nil => rfl
  | cons key keys ih =>
    obtain ⟨⟨l, r, bound, validA, validB⟩, others⟩ := forall_mem_cons.mp each
    rw [joinKeysEqual, predicateEval_equal bound validA validB, ok_bind, ih others, truth_equal, all_cons]
    split <;> simp [*]

/-- The loop judges a candidate by its keys and the condition. -/
def JoinSpec.Judged (spec : JoinSpec) (row : Row) : Prop :=
  match joinCandidate spec row with
  | .ok isMatch => spec.matches row = isMatch
  | .error _ => spec.keysMatch row ∧ ∃ condition e, spec.condition = some condition ∧ condition row = .error e

/-- Failures of a left row are bad, and its candidates are judged. -/
structure JoinSpec.Covered (spec : JoinSpec) (bad : Prop) (pending : Row) : Prop where
  isBad : spec.Fails pending → bad
  judged : ∀ rights, spec.right.rows pending = .ok rights → ∀ right ∈ rights, spec.Judged (pending ++ right)

theorem Row.Sound.at {types : List SqlType} {row : Row} (sound : row.Sound types) {slot : Nat} {type : SqlType}
    (isType : types[slot]? = some type) : IsValue type (row.at slot) := by
  induction sound generalizing slot with
  | nil => simp at isType
  | cons valid _ ih =>
    cases slot with
    | zero =>
      obtain rfl := Option.some.inj isType
      exact valid
    | succ slot => exact ih isType

/-- On rows of the types that its keys are bound to, the loop does not fail on a key. -/
theorem joinCandidate_judged {leftTypes rightTypes : List SqlType} {right : Row}
    (bound : ∀ key ∈ spec.keys, joinKey leftTypes rightTypes (key.left, key.right) = .ok key)
    (width : spec.leftColumns = leftTypes.length) (leftSound : pending.Sound leftTypes)
    (rightSound : right.Sound rightTypes) : spec.Judged (pending ++ right) := by
  have sound : (pending ++ right).Sound (leftTypes ++ rightTypes) := rel_append leftSound rightSound
  have keys : joinKeysEqual spec (pending ++ right) spec.keys = .ok (spec.keysMatch (pending ++ right)) := by
    refine joinKeysEqual_eq fun key isKey => ?_
    have isBound := bound key isKey
    simp only [joinKey, bind_eq_ok, reject_eq_ok, exists_unit, pure_eq_ok] at isBound
    obtain ⟨inside, comparison, isBound, isComparison⟩ := isBound
    obtain rfl : comparison = key.comparison := congrArg JoinKey.comparison isComparison
    rw [not_or, not_le, not_le] at inside
    refine ⟨_, _, isBound, sound.at ?_, sound.at ?_⟩
    · rw [getElem?_append_left inside.1]
      simp [inside]
    · simp [width, inside]
  rw [JoinSpec.Judged, joinCandidate, keys, ok_bind, JoinSpec.matches]
  cases spec.keysMatch (pending ++ right) with
  | false => exact rfl
  | true =>
    cases given : spec.condition with
    | none => exact rfl
    | some condition =>
      dsimp only
      cases evaluated : condition (pending ++ right) with
      | error e => exact ⟨rfl, condition, e, rfl, evaluated⟩
      | ok value => cases value <;> exact rfl

theorem joinSearch_spec (position : Nat)
    (judged : ∀ right ∈ rights, spec.Judged (pending ++ right))
    (isBad : ∀ right ∈ rights, ∀ e, joinCandidate spec (pending ++ right) = .error e → bad) :
    (bad ∧ ∃ e, joinSearch spec pending rights position = .error e) ∨
    (joinSearch spec pending rights position = .ok none ∧ spec.joined pending rights = []) ∨
    ∃ row k, joinSearch spec pending rights position = .ok (some (row, position + k)) ∧
      spec.joined pending rights = row :: spec.joined pending (rights.drop k) := by
  induction rights generalizing position with
  | nil => exact .inr (.inl ⟨rfl, rfl⟩)
  | cons right rights ih =>
    rw [joinSearch]
    cases candidate : joinCandidate spec (pending ++ right) with
    | error e => exact .inl ⟨isBad right mem_cons_self e candidate, _, rfl⟩
    | ok isMatch =>
      have matches' : spec.matches (pending ++ right) = isMatch := by
        have here := judged right mem_cons_self
        rwa [JoinSpec.Judged, candidate] at here
      cases isMatch with
      | true =>
        refine .inr (.inr ⟨_, 1, rfl, ?_⟩)
        rw [JoinSpec.joined, map_cons, filter_cons_of_pos matches']
        rfl
      | false =>
        have skips : spec.joined pending (right :: rights) = spec.joined pending rights := by
          rw [JoinSpec.joined, map_cons, filter_cons_of_neg (by simp [matches'])]
          rfl
        rcases ih (position + 1) (fun other isOther => judged other (mem_cons_of_mem _ isOther))
          fun other isOther => isBad other (mem_cons_of_mem _ isOther)
          with failed | ⟨none, empty⟩ | ⟨row, k, found, isFirst⟩
        · exact .inl failed
        · exact .inr (.inl ⟨none, skips.trans empty⟩)
        · refine .inr (.inr ⟨row, k + 1, ?_, skips.trans isFirst⟩)
          rw [← Nat.add_assoc, Nat.add_right_comm]
          exact found

/-- What is left to give while a left row is at hand. -/
def JoinSpec.rest (spec : JoinSpec) (pending : Row) (left : List Row) (run : JoinRun) : List Row :=
  spec.joined pending (run.rows.drop run.position) ++
    spec.padding pending (!run.matched && (spec.joined pending (run.rows.drop run.position)).isEmpty) ++
    left.flatMap spec.declared

structure JoinRest (spec : JoinSpec) (bad : Prop) (run : JoinRun) (rows : List Row) : Prop where
  isSpec : run.spec = spec
  state : run.state = .row
  ready : run.ready = true
  rest : ∃ pending, run.pending = some pending ∧ spec.right.rows pending = .ok run.rows ∧
    (∀ other ∈ pending :: run.left, spec.Covered bad other) ∧ rows = spec.rest pending run.left run

section Same

variable (same : run.spec = spec) (ready : run.ready)
  (isRight : spec.right.rows pending = .ok run.rows)
  (covered : ∀ other ∈ pending :: left, spec.Covered bad other)
include same ready isRight covered

theorem joinRow_answers :
    (∃ answer, joinRow spec pending left run = some answer ∧
      Answers bad (JoinRest spec bad) answer (spec.rest pending left run)) ∨
    joinRow spec pending left run = none ∧ spec.rest pending left run = left.flatMap spec.declared := by
  have first := covered pending mem_cons_self
  have judged (right : Row) (isOne : right ∈ run.rows.drop run.position) : spec.Judged (pending ++ right) :=
    first.judged _ isRight right (mem_of_mem_drop isOne)
  have here : ∀ right ∈ run.rows.drop run.position, ∀ e,
      joinCandidate spec (pending ++ right) = .error e → bad := by
    intro right isOne e failed
    have fails := judged right isOne
    rw [JoinSpec.Judged, failed] at fails
    exact first.isBad (.inr ⟨_, isRight, right, mem_of_mem_drop isOne, fails⟩)
  have given {row : Row} {position : Nat} {rest : List Row}
      (isRest : rest = spec.rest pending left { run with position, matched := true }) :
      Answers bad (JoinRest spec bad)
        (joinGive row { run with left, pending := some pending, position }) (row :: rest) :=
    .inr ⟨_, rfl, same, rfl, ready, pending, rfl, isRight, covered, isRest⟩
  unfold joinRow
  rcases joinSearch_spec run.position judged here with ⟨holds, ⟨cause, position⟩, failed⟩ |
    ⟨isNone, empty⟩ | ⟨row, k, found, isFirst⟩
  · rw [failed]
    exact .inl ⟨_, rfl, answers_fails holds rfl⟩
  · rw [isNone, JoinSpec.rest, empty]
    split_ifs with pads ends
    · refine .inl ⟨_, rfl, ?_⟩
      rw [JoinSpec.padding, if_pos (by simp [pads])]
      refine given ?_
      simp [JoinSpec.rest, JoinSpec.joined, JoinSpec.padding]
    · have nothing : left.flatMap spec.declared = [] := by
        refine flatMap_eq_nil_iff.mpr fun other _ => ?_
        have isEmpty : spec.right.rows other = .ok [] := by
          rw [← ends.2.1, ← isRight]
          cases isFixed : spec.right with
          | fixed rows => rfl
          | dependent bound =>
            rw [isFixed] at ends
            exact absurd ends.1 Bool.false_ne_true
        simp [JoinSpec.declared, isEmpty, Except.toOption, JoinSpec.joined, JoinSpec.padding, ends.2.2]
      refine .inl ⟨_, rfl, ?_⟩
      rw [nothing, JoinSpec.padding, if_neg (by simp [ends.2.2])]
      exact .inr rfl
    · refine .inr ⟨rfl, ?_⟩
      rw [JoinSpec.padding, if_neg (by simpa using pads)]
      rfl
  · rw [found, JoinSpec.rest, isFirst]
    refine .inl ⟨_, rfl, given ?_⟩
    simp [JoinSpec.rest, JoinSpec.padding, drop_drop]

theorem joinAdvance_answers :
    Answers bad (JoinRest spec bad) (joinAdvance spec pending left run) (spec.rest pending left run) := by
  induction left generalizing run pending with
  | nil =>
    rw [joinAdvance]
    rcases joinRow_answers same ready isRight covered with ⟨answer, isSome, answers⟩ | ⟨isNone, empty⟩
    · rw [isSome]
      exact answers
    · rw [isNone, empty]
      exact .inr rfl
  | cons next left ih =>
    rw [joinAdvance]
    rcases joinRow_answers same ready isRight covered with ⟨answer, isSome, answers⟩ | ⟨isNone, others⟩
    · rw [isSome]
      exact answers
    · have later := fun other isOther => covered other (mem_cons_of_mem _ isOther)
      have again : joinMaterialize spec run.rows next = spec.right.rows next := by
        unfold joinMaterialize
        cases isFixed : spec.right with
        | fixed rows =>
          rw [isFixed] at isRight
          exact isRight.symm
        | dependent bound => rfl
      rw [isNone, others]
      dsimp only
      rw [again]
      cases isRight' : spec.right.rows next with
      | error cause =>
        exact answers_fails ((later next mem_cons_self).isBad (.inl ⟨cause, isRight'⟩)) rfl
      | ok rows =>
        have answers := @ih { run with left, rows, position := 0, matched := false } next same ready
          isRight' later
        simpa [JoinSpec.rest, JoinSpec.declared, isRight', Except.toOption] using answers

end Same

theorem joinNext_answers (rest : JoinRest spec bad run rows) :
    Answers bad (JoinRest spec bad) (joinNext run) rows := by
  obtain ⟨same, state, ready, pending, isPending, isRight, covered, rfl⟩ := rest
  have next : joinNext run = joinAdvance spec pending run.left run := by
    simp only [joinNext, state, ready, isPending, same, Bool.true_eq_false, if_false]
  rw [next]
  exact joinAdvance_answers same ready isRight covered

theorem joinOpen_answers (covered : ∀ other ∈ left, spec.Covered bad other) :
    Answers bad (JoinRest spec bad) (joinNext (joinOpen spec left)) (left.flatMap spec.declared) := by
  cases left with
  | nil => exact .inr rfl
  | cons pending left =>
    have first : joinNext (joinOpen spec (pending :: left)) =
        match spec.right.rows pending with
        | .error cause => joinFail cause { joinOpen spec left with ready := false }
        | .ok rows => joinAdvance spec pending left
          { joinOpen spec (pending :: left) with rows, ready := true } := by
      simp only [joinNext, joinOpen, if_true, joinFirst, joinMaterialize]
      cases spec.right <;> rfl
    rw [first]
    cases isRight : spec.right.rows pending with
    | error cause => exact answers_fails ((covered pending mem_cons_self).isBad (.inl ⟨cause, isRight⟩)) rfl
    | ok rows =>
      have answers := @joinAdvance_answers spec
        { joinOpen spec (pending :: left) with rows, ready := true } bad pending left rfl rfl isRight
        covered
      simpa [JoinSpec.rest, JoinSpec.declared, isRight, Except.toOption, joinOpen] using answers

end Correct

/-- For every left row in order a join gives the right rows that match it in order, and a left join
a row with NULL when there is none. -/
theorem join_declared (spec : JoinSpec) {leftTypes rightTypes : List SqlType}
    (bound : ∀ key ∈ spec.keys, joinKey leftTypes rightTypes (key.left, key.right) = .ok key)
    (width : spec.leftColumns = leftTypes.length) (left : List Row)
    (leftSound : ∀ row ∈ left, row.Sound leftTypes)
    (rightSound : ∀ pending rights, spec.right.rows pending = .ok rights →
      ∀ row ∈ rights, row.Sound rightTypes)
    {fuel : Nat} (enough : (left.flatMap spec.declared).length < fuel) :
    Yields (∃ pending ∈ left, spec.Fails pending) (drain joinNext fuel (joinOpen spec left))
      (· = left.flatMap spec.declared) := by
  have covered : ∀ other ∈ left, spec.Covered (∃ pending ∈ left, spec.Fails pending) other :=
    fun other isOther => ⟨fun fails => ⟨other, isOther, fails⟩, fun rights isRight right isOne =>
      joinCandidate_judged bound width (leftSound other isOther) (rightSound other rights isRight right isOne)⟩
  exact (delivers_of_answers joinNext_answers (joinOpen_answers covered)).drain enough

/-- USING of a signed and an unsigned column: 2 is joined to 2, and NULL to none. -/
theorem join_declared_using :
    let types (kind : Kind) : List SqlType := [⟨kind, true⟩]
    let spec : JoinSpec := ⟨.left, [⟨0, 0, ⟨.equal, ⟨.int64, true⟩, ⟨.uint64, true⟩, ⟨.boolean, true⟩, false⟩⟩],
      none, 1, 1, .fixed [[.uint64 1], [.null], [.uint64 2]]⟩
    (∀ key ∈ spec.keys, joinKey (types .int64) (types .uint64) (key.left, key.right) = .ok key) ∧
      drain joinNext 3 (joinOpen spec [[.int64 2], [.null]]) =
        .ok [[.int64 2, .uint64 2], [.null, .null]] := by
  intro types spec
  have bound : ∀ key ∈ spec.keys, joinKey (types .int64) (types .uint64) (key.left, key.right) = .ok key := by
    rintro key (_ | ⟨_, ⟨⟩⟩)
    rfl
  have joined := @join_declared spec _ _ bound rfl [[.int64 2], [.null]]
    (by simp [Row.Sound, IsValue, types, validValue, validText]) (by
      rintro pending _ ⟨⟩
      simp [Row.Sound, IsValue, types, validValue, validText]) 3 (by decide)
  obtain ⟨out, drained, rfl⟩ | ⟨⟨pending, -, fails⟩, -⟩ := joined
  · exact ⟨bound, drained⟩
  · obtain ⟨e, ⟨⟩⟩ | ⟨_, -, _, -, -, condition, e, ⟨⟩, -⟩ := fails

end TurboDb.Query
