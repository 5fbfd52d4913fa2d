import TurboDb.Expr.Selection

/-!
Every tree is compiled to code that computes its meaning.

The nodes come together by recursion over the tree. The frame of the root is alone
on the stack and the registers start out NULL; the run then has the value, the
effects and the failures of the recursive evaluation, and comes to an end.
-/

namespace TurboDb

open Effect Steps

section Trees

variable {σ : Type} {b : Bindings} {limits : Limits} {ops : Operators σ} {inputs : List Value}
  {info : Info}

theorem compiles_refused {tree : Expr} {probe rest : Except Failure (Computation σ)}
    (means : meaning b ops inputs tree = boundMeaning b ops inputs tree.info probe rest)
    (value : ∀ negated table operand, tree = .inRows tree.info negated table operand →
      Compiles b limits ops inputs operand)
    (refused : ∀ depth c frame, frame.node = tree → ∃ e, compileNode b limits ops depth c frame = .error e) :
    Compiles b limits ops inputs tree := by
  refine compiles_bound _ rfl means value fun plain _ c stack c' action resumed => ?_
  obtain ⟨e, failed⟩ := refused (stack.length + 1)
    { c with offset := tree.info.offset, registerCount := c.registerCount + 1 }
    { node := tree, destination := c.registerCount } rfl
  rw [failed] at resumed
  cases resumed

mutual

theorem compiles : ∀ tree : Expr, Compiles b limits ops inputs tree
  | .leaf _ _ => compiles_leaf
  | .unary _ _ operand => compiles_unary (compiles operand)
  | .binary _ _ _ left right => compiles_binary (compiles left) (compiles right)
  | .inList _ _ value items => compiles_list (compiles value) (compiles_all items)
  | .inRows info negated table value =>
    compiles_refused (by rw [meaning, Expr.info])
      (fun _ _ operand same => by
        obtain ⟨_, _, _, rfl⟩ := Expr.inRows.inj same
        exact compiles value)
      fun depth c frame node => ⟨_, by rw [compileNode, node]⟩
  | .between _ _ value lower upper =>
    compiles_between (compiles value) (compiles lower) (compiles upper)
  | .searchedCase _ branches => compiles_searchedCase (compiles_branches branches)
  | .simpleCase _ operand branches =>
    compiles_simpleCase (compiles operand) (compiles_branches branches)
  | .call _ _ _ arguments => compiles_call (compiles_all arguments)
  | .cast _ _ expression => compiles_cast (compiles expression)
  | .subquery info => compiles_refused (by rw [meaning, Expr.info]) (fun _ _ _ same => nomatch same)
    fun depth c frame node => ⟨_, by rw [compileNode, node]⟩
  | .window info => compiles_refused (by rw [meaning, Expr.info]) (fun _ _ _ same => nomatch same)
    fun depth c frame node => ⟨_, by rw [compileNode, node]⟩
  | .other info => compiles_refused (by rw [meaning, Expr.info]) (fun _ _ _ same => nomatch same)
    fun depth c frame node => ⟨_, by rw [compileNode, node]⟩

theorem compiles_all : ∀ list : Exprs, list.All (Compiles b limits ops inputs)
  | .nil => trivial
  | .cons head tail => ⟨compiles head, compiles_all tail⟩

theorem compiles_branches : ∀ branches : Branches, branches.All (Compiles b limits ops inputs)
  | .noElse => trivial
  | .otherwise result => compiles result
  | .when _ condition result rest => ⟨compiles condition, compiles result, compiles_branches rest⟩

end

theorem compile_ends (tree : Expr) :
    ∃ fuel outcome, run (compileStep b limits ops) fuel ({}, [{ node := tree }]) = some outcome := by
  have whole : Compiles b limits ops [] tree := compiles tree
  obtain ⟨r, reaches, finished⟩ := whole {} []
  cases r with
  | error e =>
    obtain ⟨fuel, ended⟩ := reaches.run_fail
    exact ⟨fuel, _, ended⟩
  | ok final =>
    obtain ⟨c, stack⟩ := final
    obtain ⟨rfl, _⟩ := finished _ rfl
    have last : run (compileStep b limits ops) 1 (c, []) = some (.ok (c, [])) := rfl
    obtain ⟨fuel, ended⟩ := reaches.run_eq last
    exact ⟨fuel, _, ended⟩

theorem compile_compiled {tree : Expr} {fuel : Nat} {final : Compiler × List Frame}
    (h : run (compileStep b limits ops) fuel ({}, [{ node := tree }]) = some (.ok final)) :
    Compiled ops inputs (meaning b ops inputs tree) {} final.1 := by
  refine ((compiles tree {} []).of_run ?_ h).2
  rintro ⟨c, _⟩ ⟨rfl, _⟩
  rfl

/-- Complete code, started on NULL registers, is the evaluation. -/
theorem Compiled.run_eval {m : Except Failure (Computation σ)} {x : Computation σ} {c : Compiler}
    (compiled : Compiled ops inputs m {} c) (means : m = .ok x) (s : σ) :
    ∃ enough, ∀ fuel ≥ enough,
      (run (exec ops inputs c.code) fuel ((0, fun _ => .null), s)).map (fun outcome =>
        outcome.map fun ((_, registers), s) => (registers c.lastRegister, s)) =
          some (x.eval s) := by
  have runs : Runs ops inputs c.code 0 c.code.length 0 (fun _ => .null) x.eval :=
    compiled.runs means (fun _ _ _ => rfl) (Keeps.refl : Keeps [] c.code c.code) (by simp)
  cases outcome : x.eval s with
  | error e =>
    obtain ⟨enough, failed⟩ := (runs.of_error outcome).run_fail
    exact ⟨enough, fun fuel le => by rw [run_mono failed le]; rfl⟩
  | ok final =>
    obtain ⟨v, s'⟩ := final
    obtain ⟨⟨pc, registers⟩, reaches, rfl, value, _⟩ := runs.of_ok outcome
    have last : run (exec ops inputs c.code) 1 ((c.code.length, registers), s') =
        some (.ok ((c.code.length, registers), s')) := by
      simp [run, exec]
    obtain ⟨enough, ended⟩ := reaches.run_eq last
    refine ⟨enough, fun fuel le => ?_⟩
    rw [run_mono ended le]
    have register := compiled.register
    dsimp only at register value
    simp [Except.map, register, value]

/-- The compiler comes to an end, and a program it makes runs to the value or
the failure of the recursive evaluation of the tree. -/
theorem exprRunEval_eq_meaning (document : Nat → Option Expr) (b : Bindings) (ops : Operators σ)
    (nodes root maxDepth : Nat) (predicate : Bool) :
    (∃ fuel, exprCompile document b ops fuel nodes root maxDepth predicate ≠ none) ∧
    ∀ fuel program, exprCompile document b ops fuel nodes root maxDepth predicate = some (.ok program) →
      ∃ tree, document root = some tree ∧
        ∀ inputs : List Value, inputs.length = program.inputCount →
          ∃ x, meaning b ops inputs tree = .ok x ∧ x.type = program.result ∧
            ∀ s, ∃ enough, ∀ fuel ≥ enough, exprRunEval ops inputs fuel program s = some (x.eval s) := by
  cases checked : exprCheck document b nodes root maxDepth with
  | error e => exact ⟨⟨0, by simp [exprCompile, checked]⟩, fun _ _ h => by simp [exprCompile, checked] at h⟩
  | ok tree =>
    refine ⟨?_, fun fuel program h => ⟨tree, ?_, fun inputs length => ?_⟩⟩
    · obtain ⟨fuel, outcome, ended⟩ :
          ∃ fuel outcome, run (compileStep b (exprLimits nodes maxDepth) ops) fuel
            ({}, [{ node := tree }]) = some outcome := compile_ends tree
      exact ⟨fuel, by simp [exprCompile, checked, ended]⟩
    · simp only [exprCheck, bind_eq_ok, reject_eq_ok, given_eq_ok, exists_unit, pure_eq_ok] at checked
      obtain ⟨_, tree', found, _, _, _, rfl⟩ := checked
      exact found
    simp only [exprCompile, checked, Option.map_eq_some_iff] at h
    obtain ⟨outcome, ended, h⟩ := h
    cases outcome with
    | error e => cases h
    | ok final =>
      simp only [Except.bind, exprFinish, bind_eq_ok, reject_eq_ok, exists_unit, pure_eq_ok] at h
      obtain ⟨_, _, rfl⟩ := h
      have compiled : Compiled ops inputs (meaning b ops inputs tree) {} final.1 :=
        compile_compiled ended
      obtain ⟨x, means, type, _⟩ := compiled.means
      refine ⟨x, means, type, fun s => ?_⟩
      obtain ⟨enough, runs⟩ := compiled.run_eval means s
      refine ⟨enough, fun fuel le => ?_⟩
      rw [exprRunEval, if_neg (by simp [length])]
      exact runs fuel le

/-- `CASE WHEN TRUE THEN 2 ELSE 1.5 END`, an integer among the results of a real selection. -/
def sampleTree : Expr :=
  .searchedCase ⟨0, 0⟩ (.when 5 (.leaf ⟨1, 10⟩ (.boolean true))
    (.leaf ⟨2, 20⟩ (.number fun _ => .ok (.int64 2)))
    (.otherwise (.leaf ⟨3, 27⟩ (.number fun _ => .ok (.double 0x3FF8000000000000)))))

def sampleOperators : Operators Unit where
  arithmeticBind op left right := .ok ⟨op, left, right.getD left, left⟩
  castBind source target := .ok ⟨source, source, target⟩
  likeBind left right escape negated := .ok ⟨left, right, ⟨.boolean, true⟩, escape, negated, false⟩
  sessionType _ := ⟨.null, true⟩
  predicate _ left _ := pure left
  arithmetic _ left _ := pure left
  cast _ value := pure value
  like _ left _ := pure left
  realPromote value := pure (.double (numericRealValue value))
  session _ := pure .null
  query _ _ := pure .null

theorem exprRunEval_eq_meaning_case :
    ∃ program, exprCompile (fun _ => some sampleTree) ⟨[], [], none⟩ sampleOperators 9 4 0 4 false =
        some (.ok program) ∧ program.result = ⟨.double, false⟩ ∧
      ∃ enough, ∀ fuel ≥ enough, exprRunEval sampleOperators [] fuel program () =
        some (.ok (.double 0x4000000000000000, ())) := by
  have accepted : (exprCompile (fun _ => some sampleTree) ⟨[], [], none⟩ sampleOperators 9 4 0 4
      false).any (fun outcome => outcome.isOk && outcome.toOption.all (·.inputCount = 0)) = true := by
    decide +kernel
  have promoted : meaning ⟨[], [], none⟩ sampleOperators [] sampleTree =
      .ok ⟨⟨.double, false⟩, fun _ => .ok (.double 0x4000000000000000, ())⟩ := by
    have two : doubleOfInt64 2 = 0x4000000000000000 := by decide +kernel
    rw [← two]
    rfl
  cases compiled : exprCompile (fun _ => some sampleTree) ⟨[], [], none⟩ sampleOperators 9 4 0 4 false with
  | none => simp [compiled] at accepted
  | some outcome =>
    cases outcome with
    | error e => simp [compiled, Except.isOk, Except.toBool] at accepted
    | ok program =>
      simp only [compiled, Option.any_some, Except.toOption, Option.all_some, Bool.and_eq_true,
        decide_eq_true_eq] at accepted
      obtain ⟨tree, found, runs⟩ := (exprRunEval_eq_meaning (fun _ => some sampleTree)
        ⟨[], [], none⟩ sampleOperators 4 0 4 false).2 9 program compiled
      obtain rfl := Option.some.inj found
      obtain ⟨x, means, type, eval⟩ := runs [] accepted.2.symm
      obtain rfl := Except.ok.inj (promoted.symm.trans means)
      exact ⟨program, rfl, type.symm, eval ()⟩

end Trees

end TurboDb
