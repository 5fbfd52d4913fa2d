import TurboDb.Expr.Compound

/-!
Selections: COALESCE, CASE and NULLIF, and the other calls.

The results of a selection are moved to its destination by jumps that lead behind
it. Their kind is known only with the last result and patched into the jumps with
their target. The frame keeps the kind of the results so far, that of the
selection of just these.
-/

namespace TurboDb

open Effect Steps Function Exprs Keeps
open List hiding append tail head? length

variable {kind : Kind} {c2 : Compiler} {destination : Nat} {code' : List Instruction}
  {i : Instruction} {program : List Instruction} {items : Exprs}

section Kinds

variable {c : Compiler} {frame frame' : Frame} {kinds : List Kind}

structure Merged (frame : Frame) (kinds : List Kind) : Prop where
  real : frame.resultKinds.real = decide (Kind.double ∈ kinds)
  kind : frame.accumulatedType.kind = selectionKind kinds

theorem selectionKind_append :
    selectionKind (kinds ++ [kind]) =
      if Kind.double ∈ kinds ∨ kind = .double then .double
      else if selectionKind kinds = .null then kind else selectionKind kinds := by
  simp only [selectionKind, mem_append, mem_singleton, find?_append,
    @eq_comm _ Kind.double]
  by_cases real : Kind.double ∈ kinds
  · simp [real]
  by_cases last : kind = .double
  · simp [last]
  simp only [real, last, or_self, if_false]
  cases found : kinds.find? (· ≠ .null) with
  | none =>
    by_cases null : kind = .null <;> simp [null]
  | some first =>
    have := find?_some found
    simp_all

theorem mergeResultType_spec (h : mergeResultType c frame = .ok frame')
    (merged : Merged frame kinds) :
    Merged frame' (kinds ++ [c.lastType.kind]) ∧
      ∃ resultKinds kind, frame' = { frame with
        resultKinds := resultKinds
        accumulatedType := ⟨kind, frame.accumulatedType.nullable || c.lastType.nullable⟩ } := by
  simp only [mergeResultType, bind_eq_ok, reject_eq_ok, exists_unit, pure_eq_ok] at h
  obtain ⟨_, rfl⟩ := h
  refine ⟨⟨?_, ?_⟩, _, _, rfl⟩
  · simp [ResultKinds.union, resultNumericKind, merged.real, @eq_comm _ Kind.double]
  · simp [ResultKinds.union, resultNumericKind, merged.real, merged.kind, selectionKind_append]

end Kinds

section Selection

variable {σ : Type} {b : Bindings} {limits : Limits} {ops : Operators σ} {inputs : List Value}
  {info : Info} {c c' : Compiler} {frame : Frame} {action : Action} {links : List Nat}
  {kinds : List Kind} {stack : List Frame}

theorem finishSelection_closes (ops : Operators σ) (inputs : List Value)
    (h : finishSelection c frame = .ok (c', action)) (chain : Chain c.code frame.branch links) :
    action = .finish frame.destination frame.accumulatedType ∧ c'.registerCount = c.registerCount ∧
      c'.code.length = c.code.length ∧
      Closes ops inputs links frame.destination frame.accumulatedType.kind c.code.length pure
        c.code c'.code := by
  simp only [finishSelection, bind_eq_ok, reject_eq_ok, exists_unit, pure_eq_ok, Prod.mk.injEq] at h
  obtain ⟨_, rfl, rfl⟩ := h
  have length : (c.patchBranchChain frame).code.length = c.code.length := length_patchBranchChain
  refine ⟨rfl, rfl, length, Keeps.patchBranchChain chain, fun l member => ?_,
    fun program _ registers => ?_⟩
  · exact (getElem?_patchBranchChain chain le_rfl l).trans (if_pos member)
  · rw [length]
    exact Runs.pure rfl fun _ _ => rfl

/-- What compiling the arguments of COALESCE from one of them on gives. -/
structure ArgumentsCompiled (b : Bindings) (ops : Operators σ) (inputs : List Value) (info : Info)
    (frame : Frame) (kinds : List Kind) (links : List Nat) (arguments : Exprs) (c c' : Compiler) :
    Prop where
  register : c'.lastRegister = frame.destination
  registerCount_le : c.registerCount ≤ c'.registerCount
  means : ∃ xs kind target, meanings b ops inputs arguments = .ok xs ∧
    kind = selectionKind (kinds ++ xs.map (·.type.kind)) ∧
    c'.lastType = ⟨kind, frame.accumulatedType.nullable && xs.all (·.type.nullable)⟩ ∧
    Closes ops inputs links frame.destination kind target pure c.code c'.code ∧
    ∀ program, Agrees program c.code.length c'.code → ∀ registers : Registers,
      Runs ops inputs program c.code.length c'.code.length frame.destination registers
        (firstValue ops info.offset kind xs (registers frame.destination))

structure CoalesceFrame (info : Info) (frame : Frame) (kinds : List Kind) (links : List Nat)
    (c : Compiler) : Prop where
  node : ∃ name distinct arguments, frame.node = .call info name distinct arguments
  phase : frame.phase = .callArgument
  arithmetic : frame.arithmetic = none
  chain : Chain c.code frame.branch links
  merged : Merged frame kinds
  taken : frame.destination < c.registerCount

theorem Compiled.argument {m : Except Failure (Computation σ)} {x : Computation σ}
    {xs : List (Computation σ)} {target : Nat} (compiled : Compiled ops inputs m c c2)
    (means : m = .ok x) (taken : destination < c.registerCount)
    (coalesce : i.opcode = .coalesce .null) (offset : i.offset = info.offset)
    (into : i.destination = destination) (source : i.left = c2.lastRegister)
    (closes : Closes ops inputs (c2.code.length :: links) destination kind target pure
      (c2.code ++ [i]) code')
    (before : ∀ l ∈ links, l < c.code.length)
    (rest : ∀ program, Agrees program (c2.code.length + 1) code' → ∀ registers : Registers,
      Runs ops inputs program (c2.code.length + 1) code'.length destination registers
        (firstValue ops info.offset kind xs (registers destination)))
    (agrees : Agrees program c.code.length code') (registers : Registers) :
    Runs ops inputs program c.code.length code'.length destination registers
      (firstValue ops info.offset kind (x :: xs) (registers destination)) := by
  have grown := compiled.keeps.length_le
  have space := closes.keeps.length_le
  simp only [length_append, length_singleton] at space
  have kept : Keeps (c2.code.length :: links) c2.code code' := append.trans closes.keeps
  simp only [firstValue, ← promote_eq]
  refine (compiled.runs means agrees kept (outside_of_before before)).bind
    fun v registers1 value below => ?_
  have jump := (agrees c2.code.length grown (by omega)).trans (closes.patched _ mem_cons_self)
  simp only [getElem?_concat_length, Option.map_some, Instruction.patched, coalesce] at jump
  have later : Agrees program (c2.code.length + 1) code' := agrees.from (by omega)
  rw [← offset]
  refine simulates_coalesce jump rfl (by rw [source, compiled.register, value]) fun selected => ?_
  have stored : ∀ r < destination,
      update registers1 destination selected r = registers r := fun r lt => by
    rw [update_below lt, below r (by omega)]
  rw [into, offset]
  split
  · have run := rest program later (update registers1 destination selected)
    rw [update_self] at run
    exact run.rebase stored
  · have run := closes.runs program (by simpa using later)
      (update registers1 destination selected)
    rw [update_self] at run
    exact run.rebase stored

theorem leads_arguments (plain : queryAt b info.node = none) :
    ∀ {rest : Exprs} {argument : Expr} {frame : Frame} {kinds : List Kind} {links : List Nat}
      {c : Compiler}, Compiles b limits ops inputs argument →
      rest.All (Compiles b limits ops inputs) → frame.items = .cons argument rest →
      CoalesceFrame info frame kinds links c →
      Leads (compileStep b limits ops) (c, { node := argument } :: frame :: stack) fun s =>
        s.2 = stack ∧
          ArgumentsCompiled b ops inputs info frame kinds links (.cons argument rest) c s.1
  | rest, argument, frame, kinds, links, c, first, later, items, listed => by
    refine first.leads fun c2 compiled => leads_resume fun c3 action resumed => ?_
    obtain ⟨x, means, type, _⟩ := compiled.means
    obtain ⟨name, distinct, all, node⟩ := listed.node
    have grown := compiled.keeps.length_le
    have before := listed.chain.lt_length
    have chain := listed.chain.keeps compiled.keeps
    have taken := listed.taken
    simp only [resume, listed.phase, node, Expr.info, plain, compileNode, compileCall,
      listed.arithmetic, compileCoalesce, items, tail, bind_eq_ok, emit_eq_ok] at resumed
    obtain ⟨frame', merged, _, ⟨_, rfl⟩, resumed⟩ := resumed
    obtain ⟨known, resultKinds, kind, rfl⟩ := mergeResultType_spec merged
      ⟨listed.merged.real, listed.merged.kind⟩
    cases rest with
    | nil =>
      simp only [head?] at resumed
      obtain ⟨rfl, count, length, closes⟩ :=
        finishSelection_closes ops inputs resumed (chain.push rfl)
      have selected : kind = selectionKind (kinds ++ [x.type.kind]) := type ▸ known.kind
      refine ⟨rfl, rfl, ?_, [x], kind, _, ?_, selected, ?_,
        closes.jump (compiled.keeps.trans append) grown before, fun program agrees registers => ?_⟩
      · exact count ▸ Nat.le_of_lt compiled.registerCount_lt
      · rw [meanings, means, ok_bind, meanings, ok_bind, pure_ok]
      · simp [type]
      · refine compiled.argument means taken rfl rfl rfl rfl closes before ?_ agrees registers
        intro program agrees registers
        simpa [firstValue] using closes.runs program (by simpa using agrees) registers
    | cons next rest =>
      obtain ⟨rfl, rfl⟩ := resumed
      refine Leads.mono (leads_arguments plain later.1 later.2 rfl ⟨⟨name, distinct, all, rfl⟩, rfl,
        rfl, chain.push rfl, ⟨known.real, known.kind⟩, ?_⟩) ?_
      · exact Nat.lt_trans taken compiled.registerCount_lt
      rintro ⟨c', _⟩ ⟨rfl, done⟩
      obtain ⟨xs, kind', target, meansRest, selected, last, closes, run⟩ := done.means
      dsimp only at selected last
      refine ⟨rfl, done.register, ?_, x :: xs, kind', target, ?_, ?_, ?_,
        closes.jump (compiled.keeps.trans append) grown before, fun program agrees registers => ?_⟩
      · exact Nat.le_trans (Nat.le_of_lt compiled.registerCount_lt) done.registerCount_le
      · rw [meanings, means, ok_bind, meansRest, ok_bind, pure_ok]
      · simpa [type] using selected
      · simp [last, type, Bool.and_assoc]
      · refine compiled.argument means taken rfl rfl rfl rfl closes before ?_ agrees registers
        intro program agrees registers
        simpa using run program (by simpa using agrees) registers

/-- NULLIF keeps its first argument while the comparison decides about it. -/
theorem Compiled.nullIf {m left right : Except Failure (Computation σ)} {c4 : Compiler}
    {same : Predicate} {offset offset' : Nat}
    (first : Compiled ops inputs left { c with offset, registerCount := c.registerCount + 1 } c2)
    (second : Compiled ops inputs right
      { c2 with offset := offset', registerCount := c2.registerCount + 1 } c4)
    (code : c'.code = c4.code ++ [{
      opcode := .predicate same, offset := info.offset, destination := c2.registerCount
      left := c2.lastRegister, right := c4.lastRegister, binary := true }] ++ [{
      opcode := .nullIf, offset := info.offset, destination := c.registerCount
      left := c2.lastRegister, right := c2.registerCount }])
    (last : c'.lastRegister = c.registerCount) (count : c'.registerCount = c4.registerCount)
    (bound : predicateBind .equal c2.lastType (some c4.lastType) = .ok same)
    (type : c'.lastType = ⟨c2.lastType.kind, true⟩)
    (means : m = (do nullIfMeaning ops info.offset (← left) (← right))) :
    Compiled ops inputs m c c' := by
  obtain ⟨x, meansLeft, typeLeft, _⟩ := first.means
  obtain ⟨y, meansRight, typeRight, _⟩ := second.means
  have grown : c.code.length ≤ c2.code.length := first.keeps.length_le
  have grown' : c2.code.length ≤ c4.code.length := second.keeps.length_le
  have lt : c.registerCount + 1 < c2.registerCount := first.registerCount_lt
  have lt' : c2.registerCount + 1 < c4.registerCount := second.registerCount_lt
  have register : c2.lastRegister = c.registerCount + 1 := first.register
  have keepsRight : Keeps [] c4.code c'.code := code ▸ append.trans append
  have keepsLeft : Keeps [] c2.code c'.code := second.keeps.trans keepsRight
  refine ⟨first.keeps.trans keepsLeft, last, by omega, ⟨c'.lastType, do
    let l ← x.eval
    let r ← y.eval
    let equal ← located info.offset (ops.predicate same l (some r))
    pure (if equal.truth then .null else l)⟩, ?_, rfl, fun program agrees registers => ?_⟩
  · rw [means, meansLeft, ok_bind, meansRight, ok_bind, nullIfMeaning, typeLeft, typeRight, bound, type]
    rfl
  have emitted : Agrees program c.code.length (c4.code ++ [_] ++ [_]) := code ▸ agrees
  have ends : c'.code.length = c4.code.length + 1 + 1 := by simp [code]
  refine (first.runs meansLeft agrees keepsLeft (by simp)).bind fun l registers1 valueLeft below => ?_
  refine (second.runs meansRight (agrees.from grown) keepsRight (by simp)).bind
    fun r registers2 valueRight below' => ?_
  dsimp only at valueLeft below below'
  have saved : registers2 c2.lastRegister = l := by
    rw [register, below' _ (by omega), valueLeft]
  refine simulates_comparison (emitted.of_append.last (by omega)) (fun equal => ?_) rfl rfl saved
    (second.register ▸ valueRight)
  have here := emitted.last (by simp; omega)
  rw [length_append] at here
  refine simulates_pure here rfl ?_
  have kept : update registers2 c2.registerCount equal c2.lastRegister = l :=
    (update_of_ne (by omega) ..).trans saved
  dsimp only
  rw [update_self, kept, ends]
  refine Runs.pure (update_self ..) fun r lt => ?_
  rw [update_below lt, update_below (by omega), below' r (by omega), below r (by omega)]

theorem defaultPrecision_compiled (ops : Operators σ) (inputs : List Value)
    (h : defaultPrecision limits c = .ok c') :
    Compiled ops inputs (.ok (constantMeaning (.int64 0))) c c' ∧ c'.offset = c.offset := by
  rw [defaultPrecision, emit_eq_ok] at h
  obtain ⟨_, rfl⟩ := h
  refine ⟨Compiled.single rfl rfl rfl rfl rfl fun program pc registers here => ?_, rfl⟩
  exact simulates_pure here rfl Runs.stored

section H

variable {distinct : Bool} {function : ExprFunction} {name : String} {offset count : Nat}
  (h : resolveCall offset name distinct count = .ok function)
include h

theorem resolveCall_count :
    count ≠ 0 ∧ (function = .coalesce ∨ function.arity ≤ count ∧ count ≤ function.maximum) := by
  simp only [resolveCall, bind_eq_ok, given_eq_ok, reject_eq_ok, exists_unit, pure_eq_ok] at h
  obtain ⟨function, _, _, counted, rfl⟩ := h
  by_cases coalesce : function = .coalesce
  · exact ⟨fun zero => counted (.inl zero), .inl coalesce⟩
  · refine ⟨fun zero => counted (.inl zero), .inr ?_⟩
    have fits : ¬ (count < function.arity ∨ count > function.maximum) :=
      fun wrong => counted (.inr ⟨coalesce, wrong⟩)
    omega

theorem resolveCall_arithmetic {op : ArithmeticOp} (arithmetic : function.arithmetic = some op) :
    (count = 1 ∧ arithmeticBinary op = false ∧ op ≠ .round) ∨
      (count = 1 ∧ op = .round) ∨ (count = 2 ∧ arithmeticBinary op) := by
  obtain ⟨_, counted⟩ := resolveCall_count h
  cases function with
  | coalesce | ifNull | nullIf => cases arithmetic
  | abs | sign | floor | ceil | mod | round | truncate =>
    obtain rfl := Option.some.inj arithmetic
    simp only [ExprFunction.maximum, ExprFunction.arity, ExprFunction.arithmetic] at counted
    simp [arithmeticBinary] at counted ⊢
    omega

end H

theorem Exprs.length_eq_one (h : items.length = 1) : ∃ e, items = .cons e .nil := by
  match items, h with
  | .cons e .nil, _ => exact ⟨e, rfl⟩

theorem Exprs.length_eq_two (h : items.length = 2) : ∃ e e', items = .cons e (.cons e' .nil) := by
  match items, h with
  | .cons e (.cons e' .nil), _ => exact ⟨e, e', rfl⟩

section Calls

variable {name : String} {distinct : Bool} {function : ExprFunction} {op : ArithmeticOp}
  {first second : Expr} {arguments rest : Exprs}

def callFrame (info : Info) (name : String) (distinct : Bool) (arguments : Exprs)
    (destination : Nat) (function : ExprFunction) : Frame where
  node := .call info name distinct arguments
  destination := destination
  items := arguments
  accumulatedType := ⟨.null, true⟩
  arithmetic := function.arithmetic
  phase := if function = .nullIf then .nullIfFirst else .callArgument

def CallCompiles (b : Bindings) (limits : Limits) (ops : Operators σ) (inputs : List Value)
    (info : Info) (name : String) (distinct : Bool) (first : Expr) (rest : Exprs)
    (function : ExprFunction) : Prop :=
  ∀ c stack, Leads (compileStep b limits ops)
    ({ c with offset := info.offset, registerCount := c.registerCount + 1 },
      { node := first } ::
        callFrame info name distinct (.cons first rest) c.registerCount function :: stack) fun s =>
    s.2 = stack ∧
      Compiled ops inputs (meaning b ops inputs (.call info name distinct (.cons first rest))) c s.1

theorem callCompiles_one (plain : queryAt b info.node = none)
    (arithmetic : function.arithmetic = some op) (binary : arithmeticBinary op = false)
    (other : op ≠ .round) (compiles : Compiles b limits ops inputs first)
    (means : meaning b ops inputs (.call info name distinct (.cons first .nil)) =
      meaning b ops inputs first >>= arithmeticMeaning ops info.offset op) :
    CallCompiles b limits ops inputs info name distinct first .nil function := by
  intro c stack
  refine compiles.leads fun c2 compiled => leads_finish fun c3 action resumed => ?_
  have later : function ≠ .nullIf := by
    rintro rfl
    cases arithmetic
  simp only [resume, callFrame, later, if_false, Expr.info, plain, compileNode, compileCall,
    arithmetic, tail, compileArithmeticCall, binary, head?, other, false_and] at resumed
  exact compiled.arithmetic rfl means resumed

theorem callCompiles_round (plain : queryAt b info.node = none)
    (arithmetic : function.arithmetic = some .round) (compiles : Compiles b limits ops inputs first)
    (means : meaning b ops inputs (.call info name distinct (.cons first .nil)) = (do
      arithmeticMeaning₂ ops info.offset .round (← meaning b ops inputs first)
        (← .ok (constantMeaning (.int64 0))))) :
    CallCompiles b limits ops inputs info name distinct first .nil function := by
  intro c stack
  refine compiles.leads fun c2 compiled => leads_finish fun c3 action resumed => ?_
  have later : function ≠ .nullIf := by
    rintro rfl
    cases arithmetic
  have binary : arithmeticBinary .round := rfl
  simp only [resume, callFrame, later, if_false, Expr.info, plain, compileNode, compileCall,
    arithmetic, tail, compileArithmeticCall, binary, head?, length,
    Nat.zero_add, and_self, if_true, bind_eq_ok] at resumed
  obtain ⟨c4, precise, resumed⟩ := resumed
  obtain ⟨precision, offset⟩ := defaultPrecision_compiled ops inputs precise
  have same : { c4 with offset := info.offset } = c4 := by
    dsimp only at offset
    rw [← offset]
  exact compiled.arithmetic₂ precision rfl rfl rfl means (same ▸ resumed)

theorem callCompiles_two (plain : queryAt b info.node = none)
    (arithmetic : function.arithmetic = some op) (binary : arithmeticBinary op)
    (compiles : Compiles b limits ops inputs first) (compiles' : Compiles b limits ops inputs second)
    (means : meaning b ops inputs (.call info name distinct (.cons first (.cons second .nil))) = (do
      arithmeticMeaning₂ ops info.offset op (← meaning b ops inputs first)
        (← meaning b ops inputs second))) :
    CallCompiles b limits ops inputs info name distinct first (.cons second .nil) function := by
  intro c stack
  refine compiles.leads fun c2 compiled => leads_resume fun c3 action resumed => ?_
  have later : function ≠ .nullIf := by
    rintro rfl
    cases arithmetic
  simp only [resume, callFrame, later, if_false, Expr.info, plain, compileNode, compileCall,
    arithmetic, tail, compileArithmeticCall, binary, head?, Except.ok.injEq,
    Prod.mk.injEq] at resumed
  obtain ⟨rfl, rfl⟩ := resumed
  refine compiles'.leads fun c4 compiled' => leads_finish fun c5 action resumed => ?_
  simp only [resume, Expr.info, plain, compileNode, compileCall, tail, compileArithmeticCall,
    binary, head?, length, Nat.zero_add, Nat.reduceAdd, Nat.reduceEqDiff, and_false,
    if_false] at resumed
  exact compiled.arithmetic₂ compiled' rfl rfl rfl means resumed

theorem callCompiles_nullIf (plain : queryAt b info.node = none)
    (compiles : Compiles b limits ops inputs first) (compiles' : Compiles b limits ops inputs second)
    (means : meaning b ops inputs (.call info name distinct (.cons first (.cons second .nil))) = (do
      nullIfMeaning ops info.offset (← meaning b ops inputs first) (← meaning b ops inputs second))) :
    CallCompiles b limits ops inputs info name distinct first (.cons second .nil) .nullIf := by
  intro c stack
  refine compiles.leads fun c2 compiled => leads_resume fun c3 action resumed => ?_
  simp only [resume, callFrame, if_true, Expr.info, plain, compileNode, compileCall,
    ExprFunction.arithmetic, tail, head?, bind_eq_ok, given_eq_ok, Option.some.injEq,
    exists_eq_left', pure_eq_ok, Prod.mk.injEq] at resumed
  obtain ⟨rfl, rfl⟩ := resumed
  refine compiles'.leads fun c4 compiled' => leads_finish fun c5 action resumed => ?_
  simp only [resume, Expr.info, plain, compileNode, compileCall, bind_eq_ok, emitPredicate_eq_ok,
    emit_eq_ok, pure_eq_ok] at resumed
  obtain ⟨_, ⟨same, bound, _, rfl⟩, _, ⟨_, rfl⟩, resumed⟩ := resumed
  obtain ⟨rfl, rfl⟩ := Prod.mk.inj resumed
  exact ⟨_, _, rfl, compiled.nullIf compiled' rfl rfl rfl bound rfl means⟩

theorem callCompiles_coalesce (plain : queryAt b info.node = none)
    (arithmetic : function.arithmetic = none) (other : function ≠ .nullIf)
    (compiles : Compiles b limits ops inputs first)
    (later : rest.All (Compiles b limits ops inputs))
    (means : meaning b ops inputs (.call info name distinct (.cons first rest)) =
      coalesceMeaning ops info.offset <$> meanings b ops inputs (.cons first rest)) :
    CallCompiles b limits ops inputs info name distinct first rest function := by
  intro c stack
  refine Leads.mono (leads_arguments plain compiles later rfl ⟨⟨name, distinct, _, rfl⟩, ?_, arithmetic,
    .nil, (⟨rfl, rfl⟩ : Merged _ []), Nat.lt_succ_self _⟩) ?_
  · simp [callFrame, other]
  rintro ⟨c', _⟩ ⟨rfl, done⟩
  obtain ⟨xs, kind, target, meansArguments, selected, last, closes, run⟩ := done.means
  refine ⟨rfl, closes.keeps, done.register, done.registerCount_le, coalesceMeaning ops info.offset xs,
    ?_, ?_, fun program agrees registers => ?_⟩
  · rw [means, meansArguments]
    rfl
  · rw [last, selected]
    rfl
  · have run := run program agrees registers
    simp only [meanings, bind_eq_ok, pure_eq_ok] at meansArguments
    obtain ⟨x, _, xs, _, rfl⟩ := meansArguments
    rw [selected] at run
    exact run

theorem meanings_one_bind {α : Type} {f : List (Computation σ) → Except Failure α} :
    meanings b ops inputs (.cons first .nil) >>= f = (do f [← meaning b ops inputs first]) := by
  rw [meanings, meanings]
  cases meaning b ops inputs first <;> rfl

theorem meanings_two_bind {α : Type} {f : List (Computation σ) → Except Failure α} :
    meanings b ops inputs (.cons first (.cons second .nil)) >>= f = (do
      f [← meaning b ops inputs first, ← meaning b ops inputs second]) := by
  rw [meanings, meanings, meanings]
  cases meaning b ops inputs first with
  | error e => rfl
  | ok x => cases meaning b ops inputs second <;> rfl

theorem length_meanings : ∀ {items : Exprs} {xs : List (Computation σ)},
    meanings b ops inputs items = .ok xs → xs.length = items.length
  | .nil, xs, h => by
    cases h
    rfl
  | .cons head tail, xs, h => by
    simp only [meanings, bind_eq_ok, pure_eq_ok] at h
    obtain ⟨x, _, xs, rest, rfl⟩ := h
    rw [length_cons, length_meanings rest, length]

theorem compiles_call (all : arguments.All (Compiles b limits ops inputs)) :
    Compiles b limits ops inputs (.call info name distinct arguments) := by
  refine compiles_bound info rfl (by rw [meaning]) nofun
    fun plain means c stack c1 action resumed => ?_
  simp only [compileNode, compileCall, bind_eq_ok, given_eq_ok,
    pure_eq_ok, Prod.mk.injEq] at resumed
  obtain ⟨function, resolved, first, head, rfl, rfl⟩ := resumed
  cases arguments with
  | nil => cases head
  | cons first' rest =>
    obtain rfl := Option.some.inj head
    have call : CallCompiles b limits ops inputs info name distinct first' rest function := by
      cases arithmetic : function.arithmetic with
      | none =>
        by_cases nullIf : function = .nullIf
        · subst nullIf
          obtain ⟨_, impossible | ⟨least, most⟩⟩ := resolveCall_count resolved
          · cases impossible
          obtain ⟨_, second, same⟩ := length_eq_two (Nat.le_antisymm most least)
          obtain ⟨rfl, rfl⟩ := cons.inj same
          refine callCompiles_nullIf plain all.1 all.2.1 (means.trans ?_)
          rw [meanings_two_bind]
          simp only [length] at resolved
          simp only [callMeaning_eq, length_cons, length_nil, resolved, ok_bind, arithmetic]
        · refine callCompiles_coalesce plain arithmetic nullIf all.1 all.2 (means.trans ?_)
          cases found : meanings b ops inputs (.cons first' rest) with
          | error e => rfl
          | ok xs =>
            rw [← length_meanings found] at resolved
            simp only [ok_bind, callMeaning_eq, resolved, arithmetic]
            split <;> simp_all
      | some op =>
        obtain ⟨count, binary, other⟩ | ⟨count, rfl⟩ | ⟨count, binary⟩ :=
          resolveCall_arithmetic resolved arithmetic
        · obtain ⟨_, same⟩ := length_eq_one count
          obtain ⟨rfl, rfl⟩ := cons.inj same
          refine callCompiles_one plain arithmetic binary other all.1 (means.trans ?_)
          rw [meanings_one_bind]
          simp only [length] at resolved
          simp only [callMeaning_eq, length_singleton, resolved, ok_bind, arithmetic]
        · obtain ⟨_, same⟩ := length_eq_one count
          obtain ⟨rfl, rfl⟩ := cons.inj same
          refine callCompiles_round plain arithmetic all.1 (means.trans ?_)
          rw [meanings_one_bind]
          simp only [length] at resolved
          simp only [callMeaning_eq, length_singleton, resolved, ok_bind, arithmetic]
        · obtain ⟨_, second, same⟩ := length_eq_two count
          obtain ⟨rfl, rfl⟩ := cons.inj same
          refine callCompiles_two plain arithmetic binary all.1 all.2.1 (means.trans ?_)
          rw [meanings_two_bind]
          simp only [length] at resolved
          simp only [callMeaning_eq, length_cons, length_nil, resolved, ok_bind, arithmetic]
    exact call c stack

end Calls

variable {operand : Option Expr} {branches : Branches}

def Branches.All (p : Expr → Prop) : Branches → Prop
  | .noElse => True
  | .otherwise result => p result
  | .when _ condition result rest => p condition ∧ p result ∧ rest.All p

/-- A CASE under way, with or without an operand in its `left` register. -/
structure CaseFrame (b : Bindings) (limits : Limits) (ops : Operators σ) (info : Info)
    (operand : Option Expr) (frame : Frame) (kinds : List Kind) (links : List Nat) (c : Compiler) :
    Prop where
  resumes : ∀ depth c (frame' : Frame), frame'.node = frame.node → frame'.phase ≠ .enter →
    ∃ branches, resume b limits ops depth c frame' =
      compileCase limits { c with offset := info.offset } frame' operand branches
  chain : Chain c.code frame.branch links
  merged : Merged frame kinds
  taken : frame.destination < c.registerCount
  saved : operand.isSome = true → frame.destination < frame.scratch ∧ frame.scratch < frame.left ∧
    frame.left < c.registerCount

/-- What compiling the branches of a CASE from one of them on gives. -/
structure BranchesCompiled (b : Bindings) (ops : Operators σ) (inputs : List Value) (info : Info)
    (operand : Option Expr) (frame : Frame) (kinds : List Kind) (links : List Nat)
    (branches : Branches) (c c' : Compiler) : Prop where
  register : c'.lastRegister = frame.destination
  registerCount_le : c.registerCount ≤ c'.registerCount
  means : ∃ choices otherwise tests kind target,
    branchMeanings b ops inputs branches = .ok (choices, otherwise) ∧
    choices.mapM (bindTest ops (operand.map fun _ => frame.leftType)) = .ok tests ∧
    kind = selectionKind (kinds ++ choices.map (·.result.type.kind) ++
      otherwise.toList.map (·.type.kind)) ∧
    c'.lastType = ⟨kind, frame.accumulatedType.nullable || otherwise.isNone ||
      choices.any (·.result.type.nullable) || otherwise.toList.any (·.type.nullable)⟩ ∧
    Closes ops inputs links frame.destination kind target pure c.code c'.code ∧
    ∀ program, Agrees program c.code.length c'.code → ∀ (registers : Registers) v,
      (operand.isSome = true → registers frame.left = v) →
      Runs ops inputs program c.code.length c'.code.length frame.destination registers
        (firstTrue ops kind (otherwiseEval ops info.offset kind otherwise) v tests)

theorem emitCaseResult_spec {frame' : Frame} (h : emitCaseResult limits c frame = .ok (c', frame'))
    (merged : Merged frame kinds) :
    Merged frame' (kinds ++ [c.lastType.kind]) ∧
      (∃ resultKinds kind, frame' = { frame with
        resultKinds := resultKinds
        accumulatedType := ⟨kind, frame.accumulatedType.nullable || c.lastType.nullable⟩
        branch := c.code.length + 1 }) ∧
      c' = { c with code := c.code ++ [{
        opcode := .moveJump .null, offset := c.offset, destination := frame.destination
        left := c.lastRegister, target := frame.branch }] } := by
  simp only [emitCaseResult, bind_eq_ok, emit_eq_ok, pure_eq_ok, Prod.mk.injEq] at h
  obtain ⟨frame1, hmerged, _, ⟨_, rfl⟩, rfl, rfl⟩ := h
  obtain ⟨known, resultKinds, kind, rfl⟩ := mergeResultType_spec hmerged merged
  exact ⟨⟨known.real, known.kind⟩, ⟨resultKinds, kind, rfl⟩, rfl⟩

/-- The code that decides about a branch, and the register it decides in. -/
structure TestCompiled (ops : Operators σ) (inputs : List Value) (operand : Option Expr)
    (frame : Frame) (offset register : Nat) (x : Computation σ) (c c' : Compiler) : Prop where
  keeps : Keeps [] c.code c'.code
  registerCount_le : c.registerCount ≤ c'.registerCount
  means : ∃ test : Value → EvalM σ Value,
    (∀ y, bindTest ops (operand.map fun _ => frame.leftType) ⟨offset, x, y⟩ =
      .ok ⟨offset, test, y.eval⟩) ∧
    ∀ (program code : List Instruction) (links : List Nat) (f : Value → EvalM σ Value)
      (post : Value → Nat × Registers → Prop) (registers : Registers) (v : Value),
      Agrees program c.code.length code → Keeps links c'.code code →
      (∀ l ∈ links, l < c.code.length ∨ c'.code.length ≤ l) →
      (operand.isSome = true → registers frame.left = v) →
      (∀ registers' : Registers, (operand.isSome = true → registers' frame.left = v) →
        (∀ r < frame.destination, registers' r = registers r) →
        Simulates (exec ops inputs program) (c'.code.length, registers') (f (registers' register))
          post) →
      Simulates (exec ops inputs program) (c.code.length, registers) (test v >>= f) post

theorem Compiled.test {m : Except Failure (Computation σ)} {x : Computation σ}
    {offset register : Nat} {c3 : Compiler} (compiled : Compiled ops inputs m c c2)
    (means : m = .ok x)
    (h : caseCondition limits { c2 with offset := offset } frame operand.isSome = .ok (c3, register))
    (taken : frame.destination < c.registerCount)
    (saved : operand.isSome = true → frame.destination < frame.scratch ∧ frame.scratch < frame.left ∧
      frame.left < c.registerCount) :
    TestCompiled ops inputs operand frame offset register x c c3 := by
  have type : x.type = c2.lastType := by
    obtain ⟨y, means', type, _⟩ := compiled.means
    obtain rfl := Except.ok.inj (means.symm.trans means')
    exact type
  have lt := compiled.registerCount_lt
  cases operand with
  | none =>
    simp only [caseCondition, Option.isSome_none, Bool.false_eq_true, if_false, bind_eq_ok,
      reject_eq_ok, exists_unit, pure_eq_ok, Prod.mk.injEq] at h
    obtain ⟨_, rfl, rfl⟩ := h
    refine ⟨compiled.keeps, Nat.le_of_lt lt, fun _ => x.eval, fun y => rfl, ?_⟩
    intro program code links f post registers v agrees keeps outside _ rest
    refine (compiled.runs means agrees keeps outside).bind fun w registers1 value below => ?_
    have run := rest registers1 (by simp) fun r lt => below r (by omega)
    rwa [compiled.register, value] at run
  | some operand =>
    obtain ⟨scratch, left, saved⟩ := saved rfl
    simp only [caseCondition, Option.isSome_some, if_true, bind_eq_ok, emitPredicate_eq_ok,
      pure_eq_ok] at h
    obtain ⟨_, ⟨same, bound, _, rfl⟩, h⟩ := h
    obtain ⟨rfl, rfl⟩ := Prod.mk.inj h
    refine ⟨compiled.keeps.trans append, Nat.le_of_lt lt, fun v => do
      let w ← x.eval
      located offset (ops.predicate same v (some w)), fun y => ?_, ?_⟩
    · simp only [bindTest, Option.map_some, type, bound, ok_bind, pure_ok]
    intro program code links f post registers v agrees keeps outside operandAt rest
    have emitted : Agrees program c.code.length (c2.code ++ [_]) := agrees.of_keeps keeps outside
    have kept {i : Instruction} : Keeps [] c2.code (c2.code ++ [i]) := append
    rw [bind_assoc]
    refine (compiled.runs means emitted kept (by simp)).bind fun w registers1 value below => ?_
    have operandKept : registers1 frame.left = v := (below _ saved).trans (operandAt rfl)
    refine simulates_comparison (emitted.last compiled.keeps.length_le) (fun decision => ?_) rfl rfl
      operandKept (compiled.register ▸ value)
    have run := rest (update registers1 frame.scratch decision)
      (fun _ => (update_of_ne (by omega) ..).trans operandKept)
      fun r lt => (update_below (by omega)).trans (below r (by omega))
    simpa using run

/-- A result that is moved to the destination, and the jump behind the selection. -/
theorem Compiled.moved {m : Except Failure (Computation σ)} {y : Computation σ} {stop : Nat}
    (compiled : Compiled ops inputs m c c') (means : m = .ok y)
    (agrees : Agrees program c.code.length code') (kept : Keeps links c'.code code')
    (outside : ∀ l ∈ links, l < c.code.length ∨ c'.code.length ≤ l)
    (jump : program[c'.code.length]? = some i) (opcode : i.opcode = .moveJump kind)
    (source : i.left = c'.lastRegister) (into : i.destination = destination)
    (taken : destination < c.registerCount)
    (ending : ∀ registers : Registers, Runs ops inputs program i.target stop destination registers
      (pure (registers destination)))
    (registers : Registers) :
    Runs ops inputs program c.code.length stop destination registers (do
      let v ← y.eval
      located i.offset (selected ops kind v)) := by
  simp only [← promote_eq]
  refine (compiled.runs means agrees kept outside).bind fun v registers1 value below => ?_
  rw [← bind_pure (located _ _)]
  refine simulates_moveJump jump opcode (by rw [source, compiled.register, value]) fun selected => ?_
  have run := ending (update registers1 destination selected)
  rw [update_self] at run
  rw [into]
  refine run.rebase fun r lt => ?_
  rw [update_below lt, below r (by omega)]

theorem leads_branches (info : Info) (operand : Option Expr) : ∀ {branches : Branches} {frame : Frame}
    {kinds : List Kind} {links : List Nat} {c c1 : Compiler} {action : Action},
    branches.All (Compiles b limits ops inputs) → frame.branches = branches →
    CaseFrame b limits ops info operand frame kinds links c →
    nextCaseBranch limits c frame = .ok (c1, action) →
    Continues b limits ops stack c1 (fun s => s.2 = stack ∧
      BranchesCompiled b ops inputs info operand frame kinds links branches c s.1) action
  | .noElse, frame, kinds, links, c, c1, action, _, branches, listed, h => by
    have before := listed.chain.lt_length
    simp only [nextCaseBranch, branches, bind_eq_ok, emit_eq_ok] at h
    obtain ⟨_, ⟨_, rfl⟩, h⟩ := h
    obtain ⟨rfl, count, length, closes⟩ :=
      finishSelection_closes ops inputs h (listed.chain.keeps append)
    refine ⟨rfl, rfl, Nat.le_of_eq count.symm, [], none, [], _, _, ?_, rfl, ?_, ?_,
      closes.after append before, fun program agrees registers v _ => ?_⟩
    · rw [branchMeanings]
    · simpa using listed.merged.kind
    · simp
    · have emitted : Agrees program c.code.length (c.code ++ [_]) :=
        agrees.of_keeps closes.keeps fun l member => .inl (before l member)
      refine simulates_pure (emitted.last le_rfl) rfl ?_
      simp only [length_append, length_singleton] at length
      rw [length, firstTrue, otherwiseEval]
      exact Runs.stored
  | .otherwise result, frame, kinds, links, c, c1, action, all, branches, listed, h => by
    have before := listed.chain.lt_length
    simp only [nextCaseBranch, branches, Except.ok.injEq, Prod.mk.injEq] at h
    obtain ⟨rfl, rfl⟩ := h
    refine Compiles.leads all fun c2 compiled => leads_resume fun c3 action resumed => ?_
    obtain ⟨x, means, type, _⟩ := compiled.means
    obtain ⟨_, resumes⟩ := listed.resumes (stack.length + 1) c2
      { frame with phase := .caseElse, branches := .otherwise result } rfl (by simp)
    rw [resumes] at resumed
    simp only [compileCase, bind_eq_ok] at resumed
    obtain ⟨⟨c4, frame'⟩, emitted, resumed⟩ := resumed
    obtain ⟨known, ⟨resultKinds, kind, rfl⟩, rfl⟩ :=
      emitCaseResult_spec emitted ⟨listed.merged.real, listed.merged.kind⟩
    obtain ⟨rfl, count, length, closes⟩ := finishSelection_closes ops inputs resumed
      ((listed.chain.keeps compiled.keeps).push rfl)
    dsimp only at known count length closes ⊢
    have grown := compiled.keeps.length_le
    have kept : Keeps (c2.code.length :: links) c2.code c3.code := append.trans closes.keeps
    refine ⟨rfl, rfl, count ▸ Nat.le_of_lt compiled.registerCount_lt, [], some x, [], kind, _, ?_, rfl,
      ?_, ?_, closes.jump (compiled.keeps.trans append) grown before, fun program agrees registers v _ => ?_⟩
    · rw [branchMeanings, means, ok_bind, pure_ok]
    · simpa [type] using known.kind
    · simp [type]
    · simp only [length_append, length_singleton] at length
      have jump := (agrees c2.code.length grown (by dsimp only; omega)).trans
        (closes.patched _ mem_cons_self)
      simp only [getElem?_concat_length, Option.map_some, Instruction.patched] at jump
      exact compiled.moved means agrees kept (outside_of_before before) jump rfl rfl rfl listed.taken
        (closes.runs program (agrees.from (by simp; omega))) registers
  | .when offset condition result rest, frame, kinds, links, c, c1, action, all, branches, listed,
      h => by
    have before := listed.chain.lt_length
    simp only [nextCaseBranch, branches, Except.ok.injEq, Prod.mk.injEq] at h
    obtain ⟨rfl, rfl⟩ := h
    refine Compiles.leads all.1 fun c2 compiledCondition => leads_resume fun c3 action resumed => ?_
    obtain ⟨x, meansCondition, _⟩ := compiledCondition.means
    obtain ⟨_, resumes⟩ := listed.resumes (stack.length + 1) c2
      { frame with phase := .caseCondition, branches := .when offset condition result rest } rfl
      (by simp)
    rw [resumes] at resumed
    simp only [compileCase, if_true, bind_eq_ok, emit_eq_ok, pure_eq_ok, Prod.mk.injEq] at resumed
    obtain ⟨⟨c3, register⟩, tested, _, ⟨_, rfl⟩, rfl, rfl⟩ := resumed
    have tests := compiledCondition.test meansCondition tested listed.taken listed.saved
    refine Compiles.leads all.2.1 fun c5 compiled => leads_resume fun c6 action resumed => ?_
    obtain ⟨y, meansResult, type, _⟩ := compiled.means
    obtain ⟨_, resumes⟩ := listed.resumes (stack.length + 1) c5
      { frame with
        skip := c3.code.length, phase := .caseResult, branches := .when offset condition result rest }
      rfl (by simp)
    rw [resumes] at resumed
    simp only [compileCase, reduceCtorEq, if_false, bind_eq_ok] at resumed
    obtain ⟨⟨c6, frame'⟩, moved, resumed⟩ := resumed
    obtain ⟨known, ⟨resultKinds, kind, rfl⟩, rfl⟩ :=
      emitCaseResult_spec moved ⟨listed.merged.real, listed.merged.kind⟩
    dsimp only at resumed known
    generalize skipped : Compiler.setTarget _ _ _ = c7 at resumed
    have grown := tests.keeps.length_le
    have grown' := compiled.keeps.length_le
    have lt := compiled.registerCount_lt
    simp only [length_append, length_singleton] at grown'
    have skipAt : c5.code[c3.code.length]? = some _ :=
      (compiled.keeps.get _ (by simp) (by simp)).trans getElem?_concat_length
    obtain ⟨length, keeps, skip, count⟩ :=
      setTarget_spec skipped ((getElem?_append_left (by omega)).trans skipAt)
    simp only [length_append, length_singleton] at length skip
    dsimp only at keeps count
    have keepsBefore : Keeps [] c.code c5.code :=
      tests.keeps.trans (append.trans compiled.keeps)
    have chain' : Chain c7.code (c5.code.length + 1) (c5.code.length :: links) := by
      refine ((listed.chain.keeps keepsBefore).push rfl).congr (forall_mem_cons.mpr
        ⟨keeps.get _ (by simp) (by simp; omega), fun l member => ?_⟩)
      have := before l member
      exact keeps.get l (by simp; omega) (by simp; omega)
    have le := tests.registerCount_le
    have listed' : CaseFrame b limits ops info operand
        { frame with
          skip := c3.code.length, phase := .caseResult, branch := c5.code.length + 1
          branches := rest, resultKinds := resultKinds
          accumulatedType := ⟨kind, frame.accumulatedType.nullable || c5.lastType.nullable⟩ }
        (kinds ++ [c5.lastType.kind]) (c5.code.length :: links) c7 :=
      ⟨listed.resumes, chain', ⟨known.real, known.kind⟩, by have := listed.taken; dsimp only at *; omega,
        fun some => by have := listed.saved some; dsimp only at *; omega⟩
    refine Continues.mono (leads_branches info operand all.2.2 rfl listed' resumed) ?_
    rintro ⟨c', _⟩ ⟨rfl, done⟩
    dsimp only at done ⊢
    obtain ⟨choices, otherwise, tests', kind', target, meansRest, boundRest, selected, last, closes,
      run⟩ := done.means
    dsimp only at boundRest selected last run
    obtain ⟨test, bound, decide⟩ := tests.means
    refine ⟨rfl, done.register, ?_, ⟨offset, x, y⟩ :: choices, otherwise,
      ⟨offset, test, y.eval⟩ :: tests', kind', target, ?_, ?_, ?_, ?_, ?_, ?_⟩
    · have := done.registerCount_le
      dsimp only at *
      omega
    · simp only [branchMeanings, meansCondition, meansResult, meansRest, ok_bind, pure_ok]
    · dsimp only at bound
      simp only [mapM_cons, bound, boundRest, ok_bind, pure_ok]
    · simpa [type] using selected
    · rw [last]
      simp [type, Bool.or_assoc, Bool.or_left_comm]
    · have kept : Keeps [] c.code c7.code :=
        ((keepsBefore.trans append).drop (by simp)).trans keeps |>.drop (by simp; omega)
      exact closes.jump kept (by omega) before
    · intro program agrees registers v operandAt
      have space := closes.keeps.length_le
      have keepsEnd : Keeps (c3.code.length :: c5.code.length :: links) c5.code c'.code :=
        (append.trans (keeps.drop (by simp))).trans (closes.keeps.drop (by simp_all))
      have keepsTest : Keeps (c3.code.length :: c5.code.length :: links) c3.code c'.code :=
        (append.trans (compiled.keeps.drop (by simp))).trans keepsEnd
      have skipClosed : c3.code.length ∉ c5.code.length :: links :=
        not_mem_cons_of_ne_of_not_mem (by omega) fun member => by
          have := before _ member
          omega
      have skipHere : program[c3.code.length]? = some _ :=
        (agrees _ grown (by omega)).trans ((closes.keeps.get _ (by omega) skipClosed).trans skip)
      have moveHere := (agrees c5.code.length (by omega) (by omega)).trans
        (closes.patched _ mem_cons_self)
      rw [keeps.get _ (by simp) (by simp; omega), getElem?_concat_length] at moveHere
      simp only [Option.map_some, Instruction.patched] at moveHere
      rw [firstTrue]
      refine decide program _ _ _ _ registers v agrees keepsTest ?_ operandAt
        fun registers1 operandAt' below => ?_
      · exact forall_mem_cons.mpr ⟨.inr le_rfl, fun l member =>
          (outside_of_before before l member).imp_right (by omega)⟩
      refine simulates_caseSkip skipHere rfl ?_ ?_
      · intro decided
        rw [if_pos decided]
        have later : Agrees program (c3.code.length + 1) c'.code := agrees.from (by omega)
        have outside : ∀ l ∈ c3.code.length :: c5.code.length :: links,
            l < c3.code.length + 1 ∨ c5.code.length ≤ l := by
          refine forall_mem_cons.mpr ⟨.inl (Nat.lt_succ_self _),
            forall_mem_cons.mpr ⟨.inr le_rfl, fun l member => ?_⟩⟩
          have := before l member
          omega
        have taken : frame.destination < c3.registerCount := by
          have := listed.taken
          omega
        have moved := compiled.moved meansResult (by simpa using later) keepsEnd (by simpa using outside)
          moveHere rfl rfl rfl taken (closes.runs program (agrees.from (by omega))) registers1
        simp only [length_append, length_singleton] at moved
        exact moved.rebase below
      · intro decided
        rw [if_neg (by rw [decided]; simp)]
        have rest := run program (agrees.from (by omega)) registers1 v operandAt'
        rw [length] at rest
        exact rest.rebase below

theorem BranchesCompiled.selects
    (done : BranchesCompiled b ops inputs info operand frame [] [] branches c c')
    (fresh : frame.accumulatedType.nullable = false) (value : Option (Computation σ))
    (typed : value.map Computation.type = operand.map fun _ => frame.leftType) :
    ∃ select : Value → EvalM σ Value, Keeps [] c.code c'.code ∧
      (do
        let (choices, otherwise) ← branchMeanings b ops inputs branches
        caseMeaning ops info.offset value choices otherwise) = .ok ⟨c'.lastType, match value with
          | none => select .null
          | some operand => do
            let v ← operand.eval
            select v⟩ ∧
      ∀ program, Agrees program c.code.length c'.code → ∀ (registers : Registers) v,
        (operand.isSome → registers frame.left = v) →
        Runs ops inputs program c.code.length c'.code.length frame.destination registers (select v) := by
  obtain ⟨choices, otherwise, tests, kind, target, means, bound, selected, last, closes, run⟩ :=
    done.means
  refine ⟨_, closes.keeps, ?_, run⟩
  simp only [means, ok_bind, caseMeaning, typed, bound, pure_ok, last, fresh, selected]
  cases value <;> simp [comp_def, Bool.or_assoc]

theorem resume_case {frame : Frame} {depth : Nat}
    {c : Compiler} (plain : queryAt b frame.node.info.node = none)
    (node : ∀ c frame', frame'.node = frame.node → compileNode b limits ops depth c frame' =
      compileCase limits c frame' operand branches)
    (entered : frame.phase ≠ .enter) :
    resume b limits ops depth c frame =
      compileCase limits { c with offset := frame.node.info.offset } frame operand branches := by
  rw [resume]
  cases phase : frame.phase with
  | enter => exact absurd phase entered
  | _ => simp only [plain, node _ frame rfl]

theorem compiles_searchedCase (all : branches.All (Compiles b limits ops inputs)) :
    Compiles b limits ops inputs (.searchedCase info branches) := by
  refine compiles_bound info rfl (by rw [meaning]) nofun
    fun plain means c stack c1 action resumed => ?_
  simp only [compileNode, compileCase, bind_eq_ok, reject_eq_ok,
    exists_unit] at resumed
  obtain ⟨_, resumed⟩ := resumed
  refine Continues.mono (leads_branches info none all rfl
    ⟨?_, .nil, (⟨rfl, rfl⟩ : Merged _ []), Nat.lt_succ_self _, by simp⟩ resumed) ?_
  · rintro depth c ⟨⟩ rfl entered
    exact ⟨branches, resume_case plain (fun c frame' node => by rw [compileNode, node]) entered⟩
  rintro ⟨c', _⟩ ⟨rfl, done⟩
  obtain ⟨select, keeps, selected, run⟩ := done.selects rfl none rfl
  refine ⟨rfl, keeps, done.register, done.registerCount_le, _, means.trans selected, rfl, ?_⟩
  intro program agrees registers
  exact run program agrees registers .null (by simp)

theorem compiles_simpleCase {operand : Expr} (first : Compiles b limits ops inputs operand)
    (all : branches.All (Compiles b limits ops inputs)) :
    Compiles b limits ops inputs (.simpleCase info operand branches) := by
  refine compiles_bound info rfl (by rw [meaning]) nofun
    fun plain means c stack c1 action resumed => ?_
  simp only [compileNode, compileCase, bind_eq_ok, reject_eq_ok,
    exists_unit, pure_eq_ok, Prod.mk.injEq] at resumed
  obtain ⟨_, rfl, rfl⟩ := resumed
  refine first.leads fun c2 compiled => leads_resume fun c3 action resumed => ?_
  simp only [resume, Expr.info, plain, compileNode, compileCase] at resumed
  obtain ⟨x, meansOperand, type, _⟩ := compiled.means
  have register := compiled.register
  have taken := compiled.registerCount_lt
  dsimp only at register taken
  refine Continues.mono (leads_branches info (some operand) all rfl
    ⟨?_, .nil, (⟨rfl, rfl⟩ : Merged _ []), ?_, fun _ => ?_⟩ resumed) ?_
  · rintro depth c ⟨⟩ rfl entered
    exact ⟨branches, resume_case plain (fun c frame' node => by rw [compileNode, node]) entered⟩
  · dsimp only
    omega
  · dsimp only
    omega
  rintro ⟨c', _⟩ ⟨rfl, done⟩
  dsimp only at done ⊢
  obtain ⟨select, keeps, selected, run⟩ := done.selects rfl (some x) (by simp [type])
  dsimp only at keeps run
  have count := done.registerCount_le
  dsimp only at count
  refine ⟨rfl, compiled.keeps.trans keeps, done.register, by omega, ⟨c'.lastType, do
    let v ← x.eval
    select v⟩, ?_, rfl, ?_⟩
  · rw [means, meansOperand, ok_bind]
    exact selected
  intro program agrees registers
  have grown := compiled.keeps.length_le
  refine (compiled.runs meansOperand agrees keeps (by simp)).bind fun v registers1 value below => ?_
  dsimp only at value below
  have branches := run program (agrees.from grown) registers1 v fun _ => by rw [register, value]
  exact branches.rebase fun r lt => below r (by omega)

end Selection

end TurboDb
