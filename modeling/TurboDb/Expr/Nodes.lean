import TurboDb.Expr.Layout

/-!
The compiled code of a tree computes what the tree means.

A node is compiled from any state of the compiler and leaves its value in the
first free register. It writes later ones otherwise, so the values a frame has
saved stay. The code is judged in any program that has it at its place, which is
how a frame may patch its jumps afterwards.
-/

namespace TurboDb

open Effect Steps Function

variable {σ : Type} {b : Bindings} {limits : Limits} {ops : Operators σ} {inputs : List Value}
  {c c' : Compiler} {frame : Frame} {stack : List Frame} {tree : Expr}
  {m : Except Failure (Computation σ)} {i : Instruction} {offset offset' : Nat} {c2 c4 : Compiler}
  {info : Info} {action : Action}

section Statement

variable (b : Bindings) (limits : Limits) (ops : Operators σ) (inputs : List Value)

/-- Between the two places the program computes a value into the register and
keeps the registers below it. -/
def Runs (program : List Instruction) (start stop register : Nat) (registers : Registers)
    (x : EvalM σ Value) : Prop :=
  Simulates (exec ops inputs program) (start, registers) x fun v k =>
    k.1 = stop ∧ k.2 register = v ∧ ∀ r < register, k.2 r = registers r

/-- The code between two states of the compiler is that of a meaning. -/
structure Compiled (m : Except Failure (Computation σ)) (c c' : Compiler) : Prop where
  keeps : Keeps [] c.code c'.code
  register : c'.lastRegister = c.registerCount
  registerCount_lt : c.registerCount < c'.registerCount
  means : ∃ x, m = .ok x ∧ x.type = c'.lastType ∧
    ∀ program, Agrees program c.code.length c'.code → ∀ registers,
      Runs ops inputs program c.code.length c'.code.length c.registerCount registers x.eval

def Finishes (m : Except Failure (Computation σ)) (c c' : Compiler) (action : Action) : Prop :=
  ∃ register type, action = .finish register type ∧
    Compiled ops inputs m c { c' with lastRegister := register, lastType := type }

/-- The frame of the tree is compiled from any state, or refused. -/
def Compiles (tree : Expr) : Prop :=
  ∀ c stack, Leads (compileStep b limits ops) (c, { node := tree } :: stack) fun s =>
    s.2 = stack ∧ Compiled ops inputs (meaning b ops inputs tree) c s.1

/-- What the action leads to on the stack of the frame. -/
def Continues (stack : List Frame) (c : Compiler) (post : Compiler × List Frame → Prop) :
    Action → Prop
  | .push frame child => Leads (compileStep b limits ops) (c, { node := child } :: frame :: stack) post
  | .finish register type => post ({ c with lastRegister := register, lastType := type }, stack)

end Statement

variable {registers' : Registers} {v : Value} {post : Compiler × List Frame → Prop} {slot : Nat}
  {probe : Except Failure (Computation σ)} {negated : Bool} {frame' : Frame}
  {escape : Option (Except Failure (Option UInt8))}

section Rules

variable {α : Type} {program : List Instruction} {start stop register : Nat} {registers : Registers}
  {x : EvalM σ Value} {f : Value → EvalM σ α}

theorem Runs.bind {post : α → Nat × Registers → Prop}
    (first : Runs ops inputs program start stop register registers x)
    (second : ∀ v (registers' : Registers), registers' register = v →
      (∀ r < register, registers' r = registers r) →
      Simulates (exec ops inputs program) (stop, registers') (f v) post) :
    Simulates (exec ops inputs program) (start, registers) (x >>= f) post := by
  refine Simulates.bind first ?_
  rintro v ⟨pc, registers'⟩ ⟨rfl, value, below⟩
  exact second v registers' value below

/-- A run may be judged from any registers that agree below its own. -/
theorem Runs.rebase (h : Runs ops inputs program start stop register registers' x)
    (below : ∀ r < register, registers' r = registers r) :
    Simulates (exec ops inputs program) (start, registers') x fun v k =>
      k.1 = stop ∧ k.2 register = v ∧ ∀ r < register, k.2 r = registers r :=
  h.mono fun _ _ holds => ⟨holds.1, holds.2.1, fun r lt => (holds.2.2 r lt).trans (below r lt)⟩

theorem Runs.pure (value : registers' register = v)
    (below : ∀ r < register, registers' r = registers r) :
    Simulates (exec ops inputs program) (stop, registers') (Pure.pure v : EvalM σ Value) fun v k =>
      k.1 = stop ∧ k.2 register = v ∧ ∀ r < register, k.2 r = registers r :=
  Simulates.pure ⟨rfl, value, below⟩

theorem Continues.mono {post' : Compiler × List Frame → Prop} {action : Action}
    (h : Continues b limits ops stack c post action) (weaker : ∀ s, post s → post' s) :
    Continues b limits ops stack c post' action := by
  cases action with
  | push frame child => exact Leads.mono h weaker
  | finish register type => exact weaker _ h

/-- A step resumes the frame on top and acts on the stack. -/
theorem leads_resume
    (h : ∀ c' action, resume b limits ops (stack.length + 1) c frame = .ok (c', action) →
      Continues b limits ops stack c' post action) :
    Leads (compileStep b limits ops) (c, frame :: stack) post := by
  cases resumed : resume b limits ops (stack.length + 1) c frame with
  | error e => exact ⟨.error e, .fail (by simp [compileStep, resumed]), fun _ same => nomatch same⟩
  | ok acted =>
    obtain ⟨c', action⟩ := acted
    have after := h c' action resumed
    cases action with
    | push frame child =>
      refine Leads.next (by simp [compileStep, resumed]) fun s' stepped => ?_
      simp only [compileStep, resumed, bind_eq_ok, reject_eq_ok, pure_eq_ok, exists_unit,
        Except.ok.injEq, exists_eq_left', Option.some.injEq] at stepped
      exact stepped.2 ▸ after
    | finish register type =>
      refine Leads.next (by simp [compileStep, resumed]) fun s' stepped => ?_
      simp only [compileStep, resumed, bind_eq_ok, pure_eq_ok, Except.ok.injEq,
        exists_eq_left', Option.some.injEq] at stepped
      exact Leads.of_post (stepped ▸ after)

theorem Finishes.continues {action : Action} (h : Finishes ops inputs m c c' action) :
    Continues b limits ops stack c' (fun s => s.2 = stack ∧ Compiled ops inputs m c s.1) action := by
  obtain ⟨register, type, rfl, compiled⟩ := h
  exact ⟨rfl, compiled⟩

theorem leads_finish {c1 : Compiler}
    (h : ∀ c' action, resume b limits ops (stack.length + 1) c1 frame = .ok (c', action) →
      Finishes ops inputs m c c' action) :
    Leads (compileStep b limits ops) (c1, frame :: stack) fun s =>
      s.2 = stack ∧ Compiled ops inputs m c s.1 :=
  leads_resume fun c' action resumed => (h c' action resumed).continues

theorem Compiles.leads (h : Compiles b limits ops inputs tree)
    (rest : ∀ c', Compiled ops inputs (meaning b ops inputs tree) c c' →
      Leads (compileStep b limits ops) (c', stack) post) :
    Leads (compileStep b limits ops) (c, { node := tree } :: stack) post := by
  refine (h c stack).bind ?_
  rintro ⟨c', stack'⟩ ⟨rfl, compiled⟩
  exact rest c' compiled

theorem emit_eq_ok : emit limits c i = .ok c' ↔
      c.code.length < limits.code ∧ { c with code := c.code ++ [i] } = c' := by
  simp [emit]

theorem emitPredicate_eq_ok {op : PredicateOp} {destination left right : Nat} {type : SqlType}
    {other : Option SqlType} {emitted : Compiler × SqlType} :
    emitPredicate limits c op destination left right type other = .ok emitted ↔
      ∃ predicate, predicateBind op type other = .ok predicate ∧ c.code.length < limits.code ∧
        emitted = ({ c with code := c.code ++ [{
          opcode := .predicate predicate, offset := c.offset, destination, left, right
          binary := other.isSome }] }, predicate.result) := by
  simp only [emitPredicate, bind_eq_ok, emit_eq_ok, pure_eq_ok]
  constructor
  · rintro ⟨predicate, bound, _, ⟨space, rfl⟩, rfl⟩
    exact ⟨predicate, bound, space, rfl⟩
  · rintro ⟨predicate, bound, space, rfl⟩
    exact ⟨predicate, bound, _, ⟨space, rfl⟩, rfl⟩

theorem Compiled.single {y : Computation σ}
    (code : c'.code = c.code ++ [i]) (last : c'.lastRegister = c.registerCount)
    (count : c'.registerCount = c.registerCount + 1) (means : m = .ok y)
    (type : y.type = c'.lastType)
    (runs : ∀ program pc registers, program[pc]? = some i →
      Runs ops inputs program pc (pc + 1) c.registerCount registers y.eval) :
    Compiled ops inputs m c c' where
  keeps := code ▸ Keeps.append
  register := last
  registerCount_lt := by omega
  means := by
    refine ⟨y, means, type, fun program agrees registers => ?_⟩
    have here : program[c.code.length]? = some i := by
      rw [agrees _ le_rfl (by simp [code]), code, List.getElem?_concat_length]
    have length : c'.code.length = c.code.length + 1 := by simp [code]
    exact length ▸ runs program _ registers here

theorem update_below {d r : Nat} (lt : r < d) : update registers d v r = registers r :=
  update_of_ne (Nat.ne_of_lt lt) v registers

theorem Runs.stored {pc : Nat} :
    Simulates (exec ops inputs program) (pc, update registers register v)
      (Pure.pure v : EvalM σ Value) fun v k =>
        k.1 = pc ∧ k.2 register = v ∧ ∀ r < register, k.2 r = registers r :=
  Runs.pure (update_self ..) fun _ lt => update_below lt

theorem Runs.stores {pc offset : Nat} (here : program[pc]? = some i) (place : i.offset = offset)
    (effect : execute ops inputs i (pc + 1) registers = (do
      let v ← x
      Pure.pure (pc + 1, update registers register v))) :
    Runs ops inputs program pc (pc + 1) register registers (located offset x) := by
  rw [Runs, ← bind_pure (located _ _)]
  exact simulates_effect here place effect fun _ => Runs.stored

end Rules

section Operands

variable {left right : Except Failure (Computation σ)}

/-- The code of a tree computes its value in any program made from it by
patching jumps elsewhere. -/
theorem Compiled.runs {x : Computation σ} {code program : List Instruction} {registers : Registers}
    {links : List Nat} (h : Compiled ops inputs m c c')
    (means : m = .ok x)
    (agrees : Agrees program c.code.length code) (keeps : Keeps links c'.code code)
    (outside : ∀ l ∈ links, l < c.code.length ∨ c'.code.length ≤ l) :
    Runs ops inputs program c.code.length c'.code.length c.registerCount registers x.eval := by
  obtain ⟨y, means', _, runs⟩ := h.means
  obtain rfl : y = x := Except.ok.inj (means'.symm.trans means)
  exact runs program (agrees.of_keeps keeps outside) registers

theorem Compiled.operand (op : Value → EvalM σ Value)
    (inner : Compiled ops inputs left { c with offset, registerCount := c.registerCount + 1 } c2)
    (code : c'.code = c2.code ++ [i]) (last : c'.lastRegister = c.registerCount)
    (count : c'.registerCount = c2.registerCount)
    (means : ∀ x, left = .ok x → x.type = c2.lastType →
      m = .ok ⟨c'.lastType, do
        let v ← x.eval
        located i.offset (op v)⟩)
    (effect : ∀ next registers, execute ops inputs i next registers = (do
      let v ← op (registers c2.lastRegister)
      pure (next, update registers c.registerCount v))) :
    Compiled ops inputs m c c' where
  keeps := code ▸ inner.keeps.trans Keeps.append
  register := last
  registerCount_lt := count ▸ Nat.lt_of_succ_lt inner.registerCount_lt
  means := by
    obtain ⟨x, meansLeft, type, _⟩ := inner.means
    refine ⟨_, means x meansLeft type, rfl, fun program agrees registers => ?_⟩
    have ends : c'.code.length = c2.code.length + 1 := by simp [code]
    have keeps : Keeps [] c2.code c'.code := code ▸ Keeps.append
    refine (inner.runs meansLeft agrees keeps (by simp)).bind fun v registers1 value below => ?_
    have final := Runs.stores (Agrees.last (code ▸ agrees) inner.keeps.length_le) rfl
      (effect _ registers1)
    rw [inner.register, value, ← ends] at final
    exact final.rebase fun r lt => below r (Nat.lt_succ_of_lt lt)

theorem Compiled.operands (op : Value → Value → EvalM σ Value)
    (first : Compiled ops inputs left { c with offset, registerCount := c.registerCount + 1 } c2)
    (second : Compiled ops inputs right { c2 with offset := offset' } c4)
    (code : c'.code = c4.code ++ [i]) (last : c'.lastRegister = c.registerCount)
    (count : c'.registerCount = c4.registerCount)
    (means : ∀ x y, left = .ok x → x.type = c2.lastType →
      right = .ok y → y.type = c4.lastType →
      m = .ok ⟨c'.lastType, do
        let l ← x.eval
        let r ← y.eval
        located i.offset (op l r)⟩)
    (effect : ∀ next registers, execute ops inputs i next registers = (do
      let v ← op (registers c2.lastRegister) (registers c4.lastRegister)
      pure (next, update registers c.registerCount v))) :
    Compiled ops inputs m c c' := by
  have lt : c.registerCount + 1 < c2.registerCount := first.registerCount_lt
  have lt' : c2.registerCount < c4.registerCount := second.registerCount_lt
  have grown : c.code.length ≤ c2.code.length := first.keeps.length_le
  have keeps : Keeps [] c2.code c'.code := code ▸ second.keeps.trans Keeps.append
  obtain ⟨x, meansLeft, type, _⟩ := first.means
  obtain ⟨y, meansRight, type', _⟩ := second.means
  refine ⟨first.keeps.trans keeps, last, by omega, _, means x y meansLeft type meansRight type', rfl,
    fun program agrees registers => ?_⟩
  have ends : c'.code.length = c4.code.length + 1 := by simp [code]
  refine (first.runs meansLeft agrees keeps (by simp)).bind fun l registers1 valueLeft below => ?_
  have later : Agrees program c2.code.length c'.code := agrees.from grown
  have keeps' : Keeps [] c4.code c'.code := code ▸ Keeps.append
  refine (second.runs meansRight later keeps' (by simp)).bind
    fun r registers2 valueRight below' => ?_
  have final := Runs.stores (Agrees.last (code ▸ later) second.keeps.length_le) rfl
    (effect _ registers2)
  rw [second.register, valueRight, first.register, below' _ lt, valueLeft, ← ends] at final
  exact final.rebase fun r lt => (below' r (by dsimp only; omega)).trans (below r (by dsimp only; omega))

/-- A jump behind the left operand skips the right one and the use of both. -/
theorem Compiled.lazyOperands (both : Value → Value → EvalM σ Value) {op : PredicateOp}
    {jump : Instruction}
    (first : Compiled ops inputs left { c with offset, registerCount := c.registerCount + 1 } c2)
    (second : Compiled ops inputs right
      { c2 with offset := offset', code := c2.code ++ [jump] } c4)
    (opcode : jump.opcode = .branch op) (destination : jump.destination = c.registerCount)
    (saved : jump.left = c2.lastRegister)
    (code : c'.code = (c4.code ++ [i]).modify c2.code.length
      fun j => { j with target := (c4.code ++ [i]).length })
    (last : c'.lastRegister = c.registerCount) (count : c'.registerCount = c4.registerCount)
    (means : ∀ x y, left = .ok x → x.type = c2.lastType →
      right = .ok y → y.type = c4.lastType →
      m = .ok ⟨c'.lastType, do
        let l ← x.eval
        if op.decided l then pure l
        else do
          let r ← y.eval
          located i.offset (both l r)⟩)
    (effect : ∀ next registers, execute ops inputs i next registers = (do
      let v ← both (registers c2.lastRegister) (registers c4.lastRegister)
      pure (next, update registers c.registerCount v))) :
    Compiled ops inputs m c c' := by
  obtain ⟨x, meansLeft, typeLeft, _⟩ := first.means
  obtain ⟨y, meansRight, typeRight, _⟩ := second.means
  have grown : c.code.length ≤ c2.code.length := first.keeps.length_le
  have grown' := second.keeps.length_le
  have lt : c.registerCount + 1 < c2.registerCount := first.registerCount_lt
  have lt' : c2.registerCount < c4.registerCount := second.registerCount_lt
  have length : (c2.code ++ [jump]).length = c2.code.length + 1 := by simp
  dsimp only at grown'
  have ends : c'.code.length = c4.code.length + 1 := by simp [code]
  -- Of the operands' code the jump is the only instruction that changes.
  have keepsRight : Keeps [c2.code.length] c4.code c'.code :=
    code ▸ Keeps.append.trans (Keeps.modify List.mem_cons_self)
  have keepsLeft : Keeps [] c2.code c'.code := by
    have kept : Keeps [c2.code.length] c2.code c'.code :=
      Keeps.append.trans ((second.keeps.drop (by simp)).trans keepsRight)
    exact kept.drop (by simp)
  have jumpAt : c'.code[c2.code.length]? = some { jump with target := c4.code.length + 1 } := by
    have emitted : c4.code[c2.code.length]? = (c2.code ++ [jump])[c2.code.length]? :=
      second.keeps.get c2.code.length (by simp) (by simp)
    rw [code, List.getElem?_modify, List.getElem?_append_left (by omega), emitted]
    simp
  have lastAt : c'.code[c4.code.length]? = some i := by
    have other : c2.code.length ≠ c4.code.length := by omega
    simp [code, other]
  refine ⟨first.keeps.trans keepsLeft, last, by omega, _, means x y meansLeft typeLeft
    meansRight typeRight, rfl, fun program agrees registers => ?_⟩
  refine (first.runs meansLeft agrees keepsLeft (by simp)).bind fun l registers1 valueLeft below => ?_
  dsimp only at valueLeft below
  refine simulates_branch ((agrees _ grown (by omega)).trans jumpAt) opcode ?_ ?_
  · simp only [saved, first.register, valueLeft]
    intro undecided
    rw [if_neg (by simp [undecided]), ← length]
    have later : Agrees program (c2.code ++ [jump]).length c'.code := agrees.from (by omega)
    refine (second.runs meansRight later keepsRight (by simp)).bind
      fun r registers2 valueRight below' => ?_
    have final := Runs.stores ((agrees _ (by omega) (by omega)).trans lastAt) rfl
      (effect _ registers2)
    rw [second.register, valueRight, first.register, below' _ lt, valueLeft, ← ends] at final
    exact final.rebase fun r lt => (below' r (by dsimp only; omega)).trans (below r (by omega))
  · simp only [saved, first.register, valueLeft, destination]
    intro decided
    rw [if_pos decided, ← ends]
    exact Runs.pure (update_self ..) fun r lt => by
      rw [update_below lt, below r (by omega)]

end Operands

section Leaves

variable {depth : Nat}

theorem compiles_of_finish
    (h : ∀ c depth c' action, resume b limits ops depth c { node := tree } = .ok (c', action) →
      Finishes ops inputs (meaning b ops inputs tree) c c' action) :
    Compiles b limits ops inputs tree :=
  fun c _ => leads_finish fun c' action => h c _ c' action

theorem Compiled.input {input : Input}
    (means : meaning b ops inputs tree = inputMeaning ops tree.info.offset inputs slot input)
    (h : compileInput limits
      { c with offset := tree.info.offset, registerCount := c.registerCount + 1 }
      { node := tree, destination := c.registerCount } slot input = .ok (c', action)) :
    Finishes ops inputs (meaning b ops inputs tree) c c' action := by
  simp only [compileInput, bind_eq_ok, emit_eq_ok, pure_eq_ok, Prod.mk.injEq] at h
  obtain ⟨predicate, bound, _, ⟨_, rfl⟩, rfl, rfl⟩ := h
  refine ⟨_, _, rfl, ?_⟩
  rw [inputMeaning, bound, ok_bind, pure_ok] at means
  refine Compiled.single rfl rfl rfl means rfl fun program pc registers here => ?_
  exact simulates_effect here rfl (by simp only [execute]) fun _ => Runs.stored

theorem Compiled.constant (means : meaning b ops inputs tree = .ok (constantMeaning v))
    (h : compileConstant limits
      { c with offset := tree.info.offset, registerCount := c.registerCount + 1 }
      { node := tree, destination := c.registerCount } v = .ok (c', action)) :
    Finishes ops inputs (meaning b ops inputs tree) c c' action := by
  simp only [compileConstant, bind_eq_ok, emit_eq_ok, pure_eq_ok, Prod.mk.injEq] at h
  obtain ⟨_, ⟨_, rfl⟩, rfl, rfl⟩ := h
  refine ⟨_, _, rfl, ?_⟩
  exact Compiled.single rfl rfl rfl means rfl fun program pc registers here =>
    simulates_pure here (by simp only [execute]) Runs.stored

theorem Compiled.query {query : Query} (plain : query.kind.probe = false)
    (means : meaning b ops inputs tree = queryMeaning ops tree.info.offset slot query probe)
    (h : compileQuery limits
      { c with offset := tree.info.offset, registerCount := c.registerCount + 1 }
      { node := tree, destination := c.registerCount } slot query = .ok (c', action)) :
    Finishes ops inputs (meaning b ops inputs tree) c c' action := by
  simp only [compileQuery, compileProbe, plain, Bool.false_eq_true, false_and, if_false, bind_eq_ok,
    emit_eq_ok, pure_eq_ok, Prod.mk.injEq, Except.ok.injEq, exists_eq_left'] at h
  obtain ⟨validator, bound, _, ⟨_, rfl⟩, rfl, rfl⟩ := h
  refine ⟨_, _, rfl, ?_⟩
  simp only [queryMeaning, plain, Bool.false_eq_true, if_false, pure_ok] at means
  refine Compiled.single rfl rfl rfl means rfl fun program pc registers here => ?_
  exact .stores here rfl (by simp [execute])

theorem compiles_probe {query : Query} {table : Bool} {value : Expr} (probe : query.kind.probe)
    (free : replacedAt b info.node = none) (bound : queryAt b info.node = some (slot, query))
    (inner : Compiles b limits ops inputs value) :
    Compiles b limits ops inputs (.inRows info negated table value) := by
  intro c stack
  refine leads_resume fun c1 action resumed => ?_
  simp only [resume, Expr.info, free, bound, compileQuery, probe, and_self, if_true,
    Except.ok.injEq, Prod.mk.injEq] at resumed
  obtain ⟨rfl, rfl⟩ := resumed
  refine inner.leads fun c2 compiled => leads_finish fun c3 action resumed => ?_
  simp only [resume, Expr.info, bound, compileQuery, compileProbe, probe, reduceCtorEq, and_false,
    if_false, if_true, bind_eq_ok, map_eq_ok, emit_eq_ok, pure_eq_ok, Prod.mk.injEq] at resumed
  obtain ⟨_, ⟨comparison, same, rfl⟩, validator, _, _, ⟨_, rfl⟩, rfl, rfl⟩ := resumed
  refine ⟨_, _, rfl, ?_⟩
  refine compiled.operand (fun v => ops.query slot (some (v, comparison))) rfl rfl rfl ?_ ?_
  · intro x means type
    rw [← type] at same
    simp only [meaning, boundMeaning, free, bound, queryMeaning, probe, if_true, means, ok_bind, same,
      pure_ok]
  · simp [execute]

/-- Replaced nodes and bound queries are compiled alike, whatever the node is. -/
theorem compiles_bound {rest : Except Failure (Computation σ)} (info : Info)
    (own : tree.info = info)
    (means : meaning b ops inputs tree = boundMeaning b ops inputs info probe rest)
    (value : ∀ negated table operand, tree = .inRows info negated table operand →
      Compiles b limits ops inputs operand)
    (node : queryAt b info.node = none → meaning b ops inputs tree = rest → ∀ c stack c' action,
      compileNode b limits ops (stack.length + 1)
        { c with offset := info.offset, registerCount := c.registerCount + 1 }
        { node := tree, destination := c.registerCount } = .ok (c', action) →
      Continues b limits ops stack c'
        (fun s => s.2 = stack ∧ Compiled ops inputs (meaning b ops inputs tree) c s.1) action) :
    Compiles b limits ops inputs tree := by
  subst own
  cases free : replacedAt b tree.info.node with
  | some replaced =>
    rw [boundMeaning, free] at means
    refine compiles_of_finish fun c depth c' action resumed => ?_
    rw [resume] at resumed
    simp only [free] at resumed
    exact Compiled.input means resumed
  | none =>
    cases bound : queryAt b tree.info.node with
    | none =>
      rw [boundMeaning, free, bound] at means
      refine fun c stack => leads_resume fun c' action resumed => ?_
      simp only [resume, free, bound] at resumed
      exact node bound means c stack c' action resumed
    | some found =>
      obtain ⟨slot, query⟩ := found
      rw [boundMeaning, free, bound] at means
      cases probe : query.kind.probe with
      | false =>
        refine compiles_of_finish fun c depth c' action resumed => ?_
        rw [resume] at resumed
        simp only [free, bound] at resumed
        exact Compiled.query probe means resumed
      | true =>
        cases tree with
        | inRows info negated table operand =>
          exact compiles_probe probe free bound (value negated table operand rfl)
        | _ =>
          refine compiles_of_finish fun c depth c' action resumed => ?_
          rw [resume] at resumed
          simp only [free, bound, compileQuery, probe] at resumed
          cases resumed

theorem compiles_leaf {leaf : Leaf} : Compiles b limits ops inputs (.leaf info leaf) := by
  refine compiles_bound info rfl (by rw [meaning]) nofun fun plain means c stack c' action resumed =>
    Finishes.continues ?_
  rw [compileNode] at resumed
  cases leaf with
  | name | parameter =>
    simp only [compileLeaf, Expr.info, bind_eq_ok, given_eq_ok] at resumed
    obtain ⟨⟨slot, input⟩, found, compiled⟩ := resumed
    rw [leafMeaning, found] at means
    exact Compiled.input means compiled
  | null => exact Compiled.constant means resumed
  | boolean value => exact Compiled.constant means resumed
  | string literal =>
    simp only [compileLeaf, bind_eq_ok] at resumed
    obtain ⟨value, rfl, compiled⟩ := resumed
    exact Compiled.constant means compiled
  | number literal =>
    simp only [compileLeaf, bind_eq_ok] at resumed
    obtain ⟨value, read, compiled⟩ := resumed
    rw [leafMeaning, read] at means
    exact Compiled.constant means compiled
  | session resolved =>
    simp only [compileLeaf, bind_eq_ok, emit_eq_ok, pure_eq_ok, Prod.mk.injEq] at resumed
    obtain ⟨setting, rfl, _, ⟨_, rfl⟩, rfl, rfl⟩ := resumed
    refine ⟨_, _, rfl, ?_⟩
    refine Compiled.single rfl rfl rfl means rfl fun program pc registers here => ?_
    exact .stores here rfl (by simp [execute])

end Leaves

section Operators

variable {left right : Expr}

theorem compiles_cast {target : Except Failure CastTarget}
    (inner : Compiles b limits ops inputs left) :
    Compiles b limits ops inputs (.cast info target left) := by
  refine compiles_bound info rfl (by rw [meaning]) nofun
    fun plain means c stack c1 action resumed => ?_
  simp only [compileNode, compileCast, bind_eq_ok, pure_eq_ok,
    Prod.mk.injEq] at resumed
  obtain ⟨castTarget, rfl, rfl, rfl⟩ := resumed
  refine inner.leads fun c2 compiled => leads_finish fun c3 action resumed => ?_
  simp only [resume, Expr.info, plain, compileNode, compileCast, bind_eq_ok, emit_eq_ok, pure_eq_ok,
    Prod.mk.injEq] at resumed
  obtain ⟨cast, bound, _, ⟨_, rfl⟩, rfl, rfl⟩ := resumed
  refine ⟨_, _, rfl, ?_⟩
  refine compiled.operand (ops.cast cast) rfl rfl rfl ?_ ?_
  · intro x meansOperand type
    rw [means, ok_bind, meansOperand, ok_bind, castMeaning, type, bound, ok_bind, pure_ok]
  · simp [execute]

section Combine

variable {left right : Except Failure (Computation σ)}

section Inner

variable
  (inner : Compiled ops inputs left { c with offset, registerCount := c.registerCount + 1 } c2)
  (destination : frame.destination = c.registerCount)
include inner destination

theorem Compiled.arithmetic {op : ArithmeticOp} (means : m =
      left >>= arithmeticMeaning ops info.offset op)
    (h : compileArithmetic limits ops { c2 with offset := info.offset } frame op false =
      .ok (c', action)) : Finishes ops inputs m c c' action := by
  simp only [compileArithmetic, Bool.false_eq_true, if_false, bind_eq_ok, emit_eq_ok, pure_eq_ok,
    Prod.mk.injEq] at h
  obtain ⟨arithmetic, bound, _, ⟨_, rfl⟩, rfl, rfl⟩ := h
  refine ⟨_, _, rfl, ?_⟩
  refine inner.operand (fun v => ops.arithmetic arithmetic v none) rfl destination rfl ?_ ?_
  · intro x meansOperand type
    rw [means, meansOperand, ok_bind, arithmeticMeaning, type, bound, ok_bind, pure_ok]
  · simp [execute, destination]

theorem Compiled.predicate (means : m =
      left >>= predicateMeaning ops info.offset frame.op)
    (h : compilePredicate limits { c2 with offset := info.offset } frame false = .ok (c', action)) :
    Finishes ops inputs m c c' action := by
  simp only [compilePredicate, Bool.false_eq_true, Bool.false_and, if_false, bind_eq_ok, emit_eq_ok,
    pure_eq_ok, Prod.mk.injEq] at h
  obtain ⟨predicate, bound, _, ⟨_, rfl⟩, rfl, rfl⟩ := h
  refine ⟨_, _, rfl, ?_⟩
  refine inner.operand (fun v => ops.predicate predicate v none) rfl destination rfl ?_ ?_
  · intro x meansOperand type
    rw [means, meansOperand, ok_bind, predicateMeaning, type, bound, ok_bind, pure_ok]
  · simp [execute, destination]

end Inner

section TwoOperands

variable
  (first : Compiled ops inputs left { c with offset, registerCount := c.registerCount + 1 } c2)
  (second : Compiled ops inputs right { c2 with offset := offset' } c4)
  (destination : frame.destination = c.registerCount) (saved : frame.left = c2.lastRegister)
  (savedType : frame.leftType = c2.lastType)
include first second destination saved savedType

theorem Compiled.arithmetic₂ {op : ArithmeticOp}
    (means : m = (do
      arithmeticMeaning₂ ops info.offset op (← left)
        (← right)))
    (h : compileArithmetic limits ops { c4 with offset := info.offset } frame op true =
      .ok (c', action)) : Finishes ops inputs m c c' action := by
  simp only [compileArithmetic, if_true, bind_eq_ok, emit_eq_ok, pure_eq_ok, Prod.mk.injEq] at h
  obtain ⟨arithmetic, bound, _, ⟨_, rfl⟩, rfl, rfl⟩ := h
  refine ⟨_, _, rfl, ?_⟩
  refine first.operands (fun l r => ops.arithmetic arithmetic l (some r))
    second rfl destination rfl ?_ ?_
  · intro x y meansLeft typeLeft meansRight typeRight
    rw [savedType] at bound
    rw [means, meansLeft, ok_bind, meansRight, ok_bind, arithmeticMeaning₂, typeLeft, typeRight, bound,
      ok_bind, pure_ok]
  · simp [execute, destination, saved]

theorem Compiled.like
    (means : m = (do likeMeaning ops info.offset frame.escape negated (← left) (← right)))
    (h : compileLike limits ops { c4 with offset := info.offset } frame negated = .ok (c', action)) :
    Finishes ops inputs m c c' action := by
  simp only [compileLike, bind_eq_ok, emit_eq_ok, pure_eq_ok, Prod.mk.injEq] at h
  obtain ⟨like, bound, _, ⟨_, rfl⟩, rfl, rfl⟩ := h
  refine ⟨_, _, rfl, ?_⟩
  refine first.operands (ops.like like) second rfl destination rfl ?_ ?_
  · intro x y meansLeft typeLeft meansRight typeRight
    rw [savedType] at bound
    rw [means, meansLeft, ok_bind, meansRight, ok_bind, likeMeaning, typeLeft, typeRight, bound,
      ok_bind, pure_ok]
  · simp [execute, destination, saved]

theorem Compiled.comparison (strict : frame.op.shortCircuit = false)
    (means : m = (do
      comparisonMeaning ops info.offset frame.op (← left)
        (← right)))
    (h : compilePredicate limits { c4 with offset := info.offset } frame true =
      .ok (c', action)) : Finishes ops inputs m c c' action := by
  simp only [compilePredicate, strict, Bool.and_false, Bool.false_eq_true, if_true, if_false, bind_eq_ok,
    emit_eq_ok, pure_eq_ok, Prod.mk.injEq] at h
  obtain ⟨predicate, bound, _, ⟨_, rfl⟩, rfl, rfl⟩ := h
  refine ⟨_, _, rfl, ?_⟩
  refine first.operands (fun l r => ops.predicate predicate l (some r))
    second rfl destination rfl ?_ ?_
  · intro x y meansLeft typeLeft meansRight typeRight
    rw [savedType] at bound
    simp only [means, meansLeft, ok_bind, meansRight, comparisonMeaning, typeLeft, typeRight, bound,
      settles_eq, strict, Bool.false_and, Bool.false_eq_true, if_false, pure_ok]
  · simp [execute, destination, saved]

end TwoOperands

theorem Compiled.shortCircuit
    (first : Compiled ops inputs left { c with offset, registerCount := c.registerCount + 1 } c2)
    (second : Compiled ops inputs right { c2 with offset := offset', code := c2.code ++ [{
      opcode := .branch frame.op, offset := info.offset, destination := frame.destination
      left := frame.left }] } c4)
    (destination : frame.destination = c.registerCount) (saved : frame.left = c2.lastRegister)
    (savedType : frame.leftType = c2.lastType) (branch : frame.branch = c2.code.length)
    (lazy : frame.op.shortCircuit = true)
    (means : m = (do
      comparisonMeaning ops info.offset frame.op (← left)
        (← right)))
    (h : compilePredicate limits { c4 with offset := info.offset } frame true =
      .ok (c', action)) : Finishes ops inputs m c c' action := by
  simp only [compilePredicate, lazy, Bool.and_true, if_true, bind_eq_ok, emit_eq_ok, pure_eq_ok,
    Prod.mk.injEq, Compiler.setTarget, branch] at h
  obtain ⟨predicate, bound, _, ⟨_, rfl⟩, rfl, rfl⟩ := h
  refine ⟨_, _, rfl, ?_⟩
  refine first.lazyOperands (fun l r => ops.predicate predicate l (some r))
    second rfl destination saved rfl destination rfl ?_ ?_
  · intro x y meansLeft typeLeft meansRight typeRight
    rw [savedType] at bound
    simp only [means, meansLeft, ok_bind, meansRight, comparisonMeaning, typeLeft, typeRight, bound,
      settles_eq, lazy, Bool.true_and, pure_ok]
  · simp [execute, destination, saved]

end Combine

variable {op : Operator}

theorem classify_eq_ok {c : Compiler} {frame : Frame} : classify c frame op = .ok frame' ↔
      (∃ arithmetic, arithmeticOf op = some arithmetic ∧
        frame' = { frame with arithmetic := some arithmetic, phase := .afterLeft }) ∨
      ∃ predicate, arithmeticOf op = none ∧ operatorOf op = some predicate ∧
        frame' = { frame with op := predicate, phase := .afterLeft } := by
  rw [classify]
  cases arithmeticOf op with
  | some arithmetic => simp [@eq_comm _ frame']
  | none => cases operatorOf op <;> simp [@eq_comm _ frame']

theorem compiles_unary (inner : Compiles b limits ops inputs left) :
    Compiles b limits ops inputs (.unary info op left) := by
  refine compiles_bound info rfl meaning_unary nofun
    fun plain means c stack c1 action resumed => ?_
  split at means
  · rename_i literal sign number
    simp only [compileNode, compileUnary, sign, number, compileSigned, bind_eq_ok, reject_eq_ok,
      exists_unit] at resumed
    obtain ⟨_, value, read, compiled⟩ := resumed
    rw [read] at means
    exact (Compiled.constant means compiled).continues
  · simp only [compileNode, compileUnary, bind_eq_ok, pure_eq_ok, Prod.mk.injEq,
      classify_eq_ok] at resumed
    obtain ⟨frame, classified, rfl, rfl⟩ := resumed
    refine inner.leads fun c2 compiled => leads_finish fun c3 action resumed => ?_
    obtain ⟨arithmetic, known, rfl⟩ | ⟨predicate, unknown, known, rfl⟩ := classified
    · simp only [resume, Expr.info, plain, compileNode, compileUnary, compileOperator,
        Bool.false_eq_true, if_false] at resumed
      refine compiled.arithmetic rfl ?_ resumed
      simp only [means, operatorMeaning_none, known]
    · simp only [resume, Expr.info, plain, compileNode, compileUnary, compileOperator,
        Bool.false_eq_true, if_false] at resumed
      refine compiled.predicate rfl ?_ resumed
      simp only [means, operatorMeaning_none, unknown, known]

theorem enterBinary_eq_ok {c : Compiler} {frame : Frame}
    (h : enterBinary b c frame op escape = .ok frame') :
    (op.isLike ∧ ∃ e, compileEscape b escape = .ok e ∧
        frame' = { frame with like := true, escape := e, phase := .afterLeft }) ∨
      (op.isLike = false ∧ classify c frame op = .ok frame') := by
  rw [enterBinary] at h
  simp only [bind_eq_ok, reject_eq_ok, exists_unit] at h
  obtain ⟨_, h⟩ := h
  cases like : op.isLike with
  | true =>
    simp only [like, if_true, bind_eq_ok, pure_eq_ok] at h
    obtain ⟨e, read, rfl⟩ := h
    exact .inl ⟨rfl, e, read, rfl⟩
  | false =>
    simp only [like, Bool.false_eq_true, if_false] at h
    exact .inr ⟨rfl, h⟩

theorem compiles_binary (first : Compiles b limits ops inputs left)
    (second : Compiles b limits ops inputs right) :
    Compiles b limits ops inputs (.binary info op escape left right) := by
  refine compiles_bound info rfl (by rw [meaning]) nofun
    fun plain means c stack c1 action resumed => ?_
  simp only [compileNode, compileBinary, bind_eq_ok, pure_eq_ok,
    Prod.mk.injEq] at resumed
  obtain ⟨frame, entered, rfl, rfl⟩ := resumed
  refine first.leads fun c2 compiledLeft => leads_resume fun c3 action resumed => ?_
  obtain ⟨like, e, read, rfl⟩ | ⟨notLike, classified⟩ := enterBinary_eq_ok entered
  · simp only [resume, Expr.info, plain, compileNode, compileBinary, enterRight, Bool.not_true,
      Bool.false_and, Bool.false_eq_true, if_false, bind_eq_ok, pure_eq_ok, Prod.mk.injEq,
      Except.ok.injEq, exists_eq_left'] at resumed
    obtain ⟨rfl, rfl⟩ := resumed
    refine second.leads fun c4 compiledRight => leads_finish fun c5 action resumed => ?_
    simp only [resume, Expr.info, plain, compileNode, compileBinary, compileOperator, if_true] at resumed
    refine compiledLeft.like compiledRight rfl rfl rfl ?_ resumed
    simp only [means, binaryMeaning_eq, like, if_true, read, ok_bind]
  · simp only [binaryMeaning_eq, notLike, Bool.false_eq_true, if_false] at means
    obtain ⟨arithmetic, known, rfl⟩ | ⟨predicate, unknown, known, rfl⟩ := classify_eq_ok.mp classified
    · simp only [resume, Expr.info, plain, compileNode, compileBinary, enterRight, Option.isNone_some,
        Bool.and_false, Bool.false_and, Bool.false_eq_true, if_false, bind_eq_ok, pure_eq_ok,
        Prod.mk.injEq, Except.ok.injEq, exists_eq_left'] at resumed
      obtain ⟨rfl, rfl⟩ := resumed
      refine second.leads fun c4 compiledRight => leads_finish fun c5 action resumed => ?_
      simp only [resume, Expr.info, plain, compileNode, compileBinary, compileOperator,
        Bool.false_eq_true, if_false] at resumed
      refine compiledLeft.arithmetic₂ compiledRight rfl rfl rfl ?_ resumed
      simp only [means, operatorMeaning_some, known]
    · simp only [resume, Expr.info, plain, compileNode, compileBinary, enterRight, Option.isNone_none,
        Bool.not_false, Bool.true_and, bind_eq_ok, pure_eq_ok, Prod.mk.injEq] at resumed
      obtain ⟨⟨c3, frame⟩, entered, rfl, rfl⟩ := resumed
      refine second.leads fun c4 compiledRight => leads_finish fun c5 action resumed => ?_
      cases lazy : predicate.shortCircuit with
      | true =>
        simp only [lazy, if_true, bind_eq_ok, emit_eq_ok, pure_eq_ok, Prod.mk.injEq] at entered
        obtain ⟨_, ⟨_, rfl⟩, rfl, rfl⟩ := entered
        simp only [resume, Expr.info, plain, compileNode, compileBinary, compileOperator,
          Bool.false_eq_true, if_false] at resumed
        refine compiledLeft.shortCircuit compiledRight rfl rfl rfl rfl lazy ?_ resumed
        simp only [means, operatorMeaning_some, unknown, known]
      | false =>
        simp only [lazy, Bool.false_eq_true, if_false, Except.ok.injEq, Prod.mk.injEq] at entered
        obtain ⟨rfl, rfl⟩ := entered
        simp only [resume, Expr.info, plain, compileNode, compileBinary, compileOperator,
          Bool.false_eq_true, if_false] at resumed
        refine compiledLeft.comparison compiledRight rfl rfl rfl lazy ?_ resumed
        simp only [means, operatorMeaning_some, unknown, known]

end Operators

end TurboDb
