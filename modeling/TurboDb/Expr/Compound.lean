import TurboDb.Expr.Nodes

/-!
Lists and ranges.

The comparisons of IN and BETWEEN are collected in the destination of the node.
Once it is decided a jump leaves the rest out. All jumps end where the node is
complete and a negation is applied, with the value in the destination.
-/

namespace TurboDb

open Effect Steps Function Keeps Instruction List

section Compound

variable {σ : Type} {b : Bindings} {limits : Limits} {ops : Operators σ} {inputs : List Value}
  {info : Info} {c c' : Compiler} {frame : Frame} {action : Action} {links : List Nat}

/-- The code is complete but for the jumps into its last part, which starts at
the target with the value so far in the destination. -/
structure Closes (ops : Operators σ) (inputs : List Value) (links : List Nat) (destination : Nat)
    (kind : Kind) (target : Nat) (last : Value → EvalM σ Value) (code code' : List Instruction) :
    Prop where
  keeps : Keeps links code code'
  patched : ∀ l ∈ links, code'[l]? = code[l]?.map (patched kind target)
  runs : ∀ program, Agrees program code.length code' → ∀ registers : Registers,
    Runs ops inputs program target code'.length destination registers (last (registers destination))

section Closes

variable {destination target index : Nat} {kind : Kind} {last : Value → EvalM σ Value}
  {code code1 code' : List Instruction}

theorem Closes.after (closes : Closes ops inputs links destination kind target last code1 code')
    (keeps : Keeps [] code code1) (before : ∀ l ∈ links, l < code.length) :
    Closes ops inputs links destination kind target last code code' where
  keeps := (keeps.drop (by simp)).trans closes.keeps
  patched := by
    intro l member
    rw [closes.patched l member, keeps.get l (before l member) (by simp)]
  runs := fun program agrees => closes.runs program (agrees.from keeps.length_le)

theorem Closes.jump
    (closes : Closes ops inputs (index :: links) destination kind target last code1 code')
    (keeps : Keeps [] code code1) (later : code.length ≤ index)
    (before : ∀ l ∈ links, l < code.length) :
    Closes ops inputs links destination kind target last code code' := by
  refine ⟨?_, ?_, fun program agrees => closes.runs program (agrees.from keeps.length_le)⟩
  · refine ((keeps.drop (by simp)).trans closes.keeps).drop fun l member => ?_
    obtain rfl | member := mem_cons.mp member
    · exact .inr later
    · exact .inl member
  · intro l member
    rw [closes.patched l (mem_cons_of_mem _ member), keeps.get l (before l member) (by simp)]

end Closes

variable {negated : Bool}

theorem finishCompound_closes (ops : Operators σ) (inputs : List Value)
    (h : finishCompound limits c frame negated = .ok (c', action))
    (chain : Chain c.code frame.branch links) :
    ∃ type negate, negation ops c.offset negated frame.accumulatedType = .ok (type, negate) ∧
      action = .finish frame.destination type ∧ c'.registerCount = c.registerCount ∧
      Closes ops inputs links frame.destination frame.accumulatedType.kind c.code.length negate
        c.code c'.code := by
  have keeps : Keeps links c.code (c.patchBranchChain frame).code := Keeps.patchBranchChain chain
  have patched : ∀ l ∈ links, (c.patchBranchChain frame).code[l]? =
      c.code[l]?.map (patched frame.accumulatedType.kind c.code.length) :=
    fun l member => (getElem?_patchBranchChain chain le_rfl l).trans (if_pos member)
  have length : (c.patchBranchChain frame).code.length = c.code.length := length_patchBranchChain
  cases negated with
  | false =>
    obtain ⟨rfl, rfl⟩ := h
    refine ⟨_, _, rfl, rfl, rfl, keeps, patched, ?_⟩
    intro program _ registers
    exact length ▸ Runs.pure rfl fun _ _ => rfl
  | true =>
    simp only [finishCompound, if_true, bind_eq_ok, emitPredicate_eq_ok, pure_eq_ok] at h
    obtain ⟨_, ⟨predicate, bound, _, rfl⟩, h⟩ := h
    obtain ⟨rfl, rfl⟩ := Prod.mk.inj h
    refine ⟨_, _, by rw [negation, if_pos rfl, bound, ok_bind, pure_ok], rfl, rfl,
      keeps.trans append, ?_, ?_⟩
    · intro l member
      rw [← patched l member]
      exact getElem?_append_left (length ▸ chain.lt_length l member)
    · intro program agrees registers
      have here := agrees.last (Nat.le_of_eq length.symm)
      rw [length] at here
      rw [length_append, length]
      exact .stores here rfl (by simp [execute])

def Exprs.All (p : Expr → Prop) : Exprs → Prop
  | .nil => True
  | .cons head tail => p head ∧ tail.All p

/-- What compiling the items of a list from one of them on gives. -/
structure ListCompiled (b : Bindings) (ops : Operators σ) (inputs : List Value) (info : Info)
    (negated : Bool) (frame : Frame) (links : List Nat) (items : Exprs) (c c' : Compiler) : Prop where
  register : c'.lastRegister = frame.destination
  registerCount_le : c.registerCount ≤ c'.registerCount
  means : ∃ xs bound type negate target type', meanings b ops inputs items = .ok xs ∧
    bindItems frame.leftType frame.accumulatedType xs = .ok (type, bound) ∧
    negation ops info.offset negated type = .ok (type', negate) ∧ c'.lastType = type' ∧
    Closes ops inputs links frame.destination type.kind target negate c.code c'.code ∧
    ∀ program, Agrees program c.code.length c'.code → ∀ registers : Registers,
      Runs ops inputs program c.code.length c'.code.length frame.destination registers do
        let found ← anyItem ops info.offset (registers frame.left) bound (registers frame.destination)
        negate found

structure ListFrame (info : Info) (negated : Bool) (frame : Frame) (links : List Nat) (c : Compiler) :
    Prop where
  node : ∃ value items, frame.node = .inList info negated value items
  phase : frame.phase = .afterItem
  chain : Chain c.code frame.branch links
  scratch : frame.destination < frame.scratch
  left : frame.scratch < frame.left
  taken : frame.left < c.registerCount

structure ItemCompiled (b : Bindings) (ops : Operators σ) (inputs : List Value) (info : Info)
    (frame : Frame) (item : Expr) (type : SqlType) (c c' : Compiler) : Prop where
  keeps : Keeps [] c.code c'.code
  registerCount_le : c.registerCount ≤ c'.registerCount
  offset : c'.offset = info.offset
  means : ∃ x same either, meaning b ops inputs item = .ok x ∧
    predicateBind .equal frame.leftType (some x.type) = .ok same ∧
    predicateBind .or frame.accumulatedType (some same.result) = .ok either ∧
    either.result = type ∧
    ∀ (α : Type) (program code : List Instruction) (links : List Nat) (f : Value → EvalM σ α)
      (post : α → Nat × Registers → Prop) (registers : Registers),
      Agrees program c.code.length code → Keeps links c'.code code →
      (∀ l ∈ links, l < c.code.length ∨ c'.code.length ≤ l) →
      (∀ registers' : Registers, registers' frame.left = registers frame.left →
        (∀ r < frame.destination, registers' r = registers r) →
        Simulates (exec ops inputs program) (c'.code.length, registers')
          (f (registers' frame.destination)) post) →
      Simulates (exec ops inputs program) (c.code.length, registers) (do
        let v ← x.eval
        let same ← located info.offset (ops.predicate same (registers frame.left) (some v))
        let found ← located info.offset
          (ops.predicate either (registers frame.destination) (some same))
        f found) post

theorem Compiled.item {item : Expr} {c2 c3 c4 : Compiler} {comparison accumulated : SqlType}
    (listed : ListFrame info negated frame links c)
    (compiled : Compiled ops inputs (meaning b ops inputs item) c c2)
    (compared : emitPredicate limits { c2 with offset := info.offset } .equal frame.scratch
      frame.left c2.lastRegister frame.leftType (some c2.lastType) = .ok (c3, comparison))
    (collected : emitPredicate limits c3 .or frame.destination frame.destination frame.scratch
      frame.accumulatedType (some comparison) = .ok (c4, accumulated)) :
    ItemCompiled b ops inputs info frame item accumulated c c4 := by
  obtain ⟨same, boundSame, _, h⟩ := emitPredicate_eq_ok.mp compared
  obtain ⟨rfl, rfl⟩ := Prod.mk.inj h
  obtain ⟨either, boundEither, _, h⟩ := emitPredicate_eq_ok.mp collected
  obtain ⟨rfl, rfl⟩ := Prod.mk.inj h
  obtain ⟨x, means, type, _⟩ := compiled.means
  have grown := compiled.keeps.length_le
  have taken := listed.taken
  have scratch := listed.scratch
  have left := listed.left
  refine ⟨compiled.keeps.trans (append.trans append),
    Nat.le_of_lt compiled.registerCount_lt, rfl, x, same, either, means, type ▸ boundSame, boundEither,
    rfl, ?_⟩
  intro α program code links f post registers agrees keeps outside rest
  have emitted : Agrees program c.code.length (c2.code ++ [_] ++ [_]) :=
    agrees.of_keeps keeps outside
  have kept {i j : Instruction} : Keeps [] c2.code (c2.code ++ [i] ++ [j]) :=
    append.trans append
  refine (compiled.runs means emitted kept (by simp)).bind fun v registers1 value below => ?_
  refine simulates_comparison (emitted.of_append.last grown) (fun s => ?_) rfl rfl
    (below _ taken) (compiled.register ▸ value)
  have here := emitted.last (grown.trans (by simp))
  rw [length_append] at here
  refine simulates_comparison here (fun found => ?_) rfl rfl ?_ (update_self ..)
  · have run := rest (update (update registers1 frame.scratch s) frame.destination found)
    simp only [update_self, length_append, length_singleton] at run
    refine run ?_ fun r lt => ?_
    · rw [update_of_ne (by omega), update_of_ne (by omega), below _ taken]
    · rw [update_below lt, update_below (by omega), below r (by omega)]
  · rw [update_below scratch, below _ (by omega)]

theorem leads_items {stack : List Frame} (plain : queryAt b info.node = none) :
    ∀ {rest : Exprs} {item : Expr} {frame : Frame} {links : List Nat} {c : Compiler},
      Compiles b limits ops inputs item → rest.All (Compiles b limits ops inputs) →
      frame.items = .cons item rest → ListFrame info negated frame links c →
      Leads (compileStep b limits ops) (c, { node := item } :: frame :: stack) fun s =>
        s.2 = stack ∧ ListCompiled b ops inputs info negated frame links (.cons item rest) c s.1
  | rest, item, frame, links, c, first, later, items, listed => by
    refine first.leads fun c2 compiled => leads_resume fun c3 action resumed => ?_
    obtain ⟨value, all, node⟩ := listed.node
    simp only [resume, listed.phase, node, Expr.info, plain, compileNode, compileList, bind_eq_ok,
      items, Exprs.tail] at resumed
    obtain ⟨⟨c4, comparison⟩, compared, ⟨c5, accumulated⟩, collected, resumed⟩ := resumed
    have one := compiled.item listed compared collected
    obtain ⟨x, same, either, means, boundSame, boundEither, type, run⟩ := one.means
    have chain := listed.chain.keeps one.keeps
    cases rest with
    | nil =>
      obtain ⟨type', negate, bound, rfl, count, closes⟩ :=
        finishCompound_closes ops inputs resumed chain
      refine ⟨rfl, rfl, count ▸ one.registerCount_le, [x], [⟨x.eval, same, either⟩], accumulated,
        negate, _, type', ?_, ?_, ?_, rfl,
        closes.after one.keeps listed.chain.lt_length, ?_⟩
      · rw [meanings, means, ok_bind, meanings, ok_bind, pure_ok]
      · simp only [bindItems, boundSame, boundEither, type, ok_bind, pure_ok]
      · rw [← one.offset]
        exact bound
      intro program agrees registers
      simp only [Runs, anyItem, ite_self, bind_assoc, pure_bind]
      refine run Value program _ links negate _ registers agrees closes.keeps
        (fun l member => .inl (listed.chain.lt_length l member)) fun registers' left below => ?_
      exact (closes.runs program (agrees.from one.keeps.length_le) registers').rebase below
    | cons next rest =>
      simp only [Exprs.head?, emitCompoundBranch, bind_eq_ok, emit_eq_ok, pure_eq_ok,
        Prod.mk.injEq] at resumed
      obtain ⟨_, ⟨_, ⟨_, rfl⟩, rfl⟩, rfl, rfl⟩ := resumed
      refine Leads.mono (leads_items plain later.1 later.2 rfl ⟨⟨value, all, rfl⟩, rfl,
        chain.push rfl, listed.scratch, listed.left,
        listed.taken.trans_le one.registerCount_le⟩) ?_
      rintro ⟨c', _⟩ ⟨rfl, done⟩
      dsimp only at done ⊢
      obtain ⟨xs, bound, type1, negate, target, type', meansRest, boundRest, negated, last, closes,
        runRest⟩ := done.means
      have below := listed.chain.lt_length
      have grown := one.keeps.length_le
      have kept : Keeps (c5.code.length :: links) c5.code c'.code := append.trans closes.keeps
      have space := closes.keeps.length_le
      simp only [length_append, length_singleton] at space runRest
      refine ⟨rfl, done.register, Nat.le_trans one.registerCount_le done.registerCount_le, x :: xs,
        ⟨x.eval, same, either⟩ :: bound, type1, negate, target, type', ?_, ?_, negated, last,
        closes.jump (one.keeps.trans append) grown below, ?_⟩
      · rw [meanings, means, ok_bind, meansRest, ok_bind, pure_ok]
      · simp only [bindItems, boundSame, boundEither, type, boundRest, ok_bind, pure_ok]
      intro program agrees registers
      simp only [Runs, anyItem, settles_or, bind_assoc]
      refine run Value program _ _ _ _ registers agrees kept (outside_of_before below)
        fun registers' left below' => ?_
      have later : Agrees program (c5.code.length + 1) c'.code := agrees.from (by omega)
      have jump := (agrees c5.code.length grown (by omega)).trans
        (closes.patched _ mem_cons_self)
      simp only [getElem?_concat_length, Option.map_some, patched] at jump
      refine simulates_branch jump rfl ?_ ?_
      · intro undecided
        rw [if_neg (by rw [undecided]; simp), ← left]
        exact (runRest program later registers').rebase below'
      · intro decided
        rw [if_pos decided, pure_bind]
        have rest := closes.runs program (by simpa using later)
          (update registers' frame.destination (registers' frame.destination))
        rw [update_eq_self] at rest ⊢
        exact rest.rebase below'

theorem compiles_list {value : Expr} {items : Exprs}
    (first : Compiles b limits ops inputs value) (all : items.All (Compiles b limits ops inputs)) :
    Compiles b limits ops inputs (.inList info negated value items) := by
  refine compiles_bound info rfl (by rw [meaning]) nofun
    fun plain means c stack c1 action resumed => ?_
  simp only [compileNode, compileList, bind_eq_ok, reject_eq_ok,
    exists_unit, pure_eq_ok, Prod.mk.injEq] at resumed
  obtain ⟨_, rfl, rfl⟩ := resumed
  refine first.leads fun c2 compiled => leads_resume fun c3 action resumed => ?_
  simp only [resume, Expr.info, plain, compileNode, compileList, bind_eq_ok, given_eq_ok, emit_eq_ok,
    pure_eq_ok, Prod.mk.injEq] at resumed
  obtain ⟨item, head, _, ⟨_, rfl⟩, rfl, rfl⟩ := resumed
  cases items with
  | nil => cases head
  | cons item' rest =>
    obtain rfl := Option.some.inj head
    have register := compiled.register
    have taken := compiled.registerCount_lt
    dsimp only at register taken ⊢
    refine Leads.mono (leads_items plain all.1 all.2 rfl ⟨⟨value, _, rfl⟩, rfl, .nil,
      Nat.lt_succ_self _, ?_, ?_⟩) ?_
    · dsimp only
      omega
    · dsimp only
      omega
    rintro ⟨c', _⟩ ⟨rfl, done⟩
    dsimp only at done ⊢
    obtain ⟨xs, bound, type, negate, target, type', meansItems, boundItems, negated', last, closes,
      run⟩ := done.means
    obtain ⟨x, meansValue, typeValue, _⟩ := compiled.means
    have kept : Keeps [] c2.code c'.code := append.trans closes.keeps
    refine ⟨rfl, compiled.keeps.trans kept, done.register, ?_, ⟨type', do
      let v ← x.eval
      let found ← anyItem ops info.offset v bound (.bool false)
      negate found⟩, ?_, last.symm, ?_⟩
    · have := done.registerCount_le
      dsimp only at this
      omega
    · simp only [means, meansValue, ok_bind, meansItems, listMeaning, typeValue, boundItems, negated',
        pure_ok]
    · intro program agrees registers
      refine (compiled.runs meansValue agrees kept (by simp)).bind fun v registers1 value below => ?_
      have grown : c.code.length ≤ c2.code.length := compiled.keeps.length_le
      have emitted : Agrees program c.code.length (c2.code ++ [_]) :=
        agrees.of_keeps closes.keeps (by simp)
      refine simulates_pure (emitted.last grown) rfl ?_
      have loop := run program (agrees.from (by simp; omega))
        (update registers1 c.registerCount (.bool false))
      dsimp only at loop
      rw [update_self, update_of_ne (by omega), register, value] at loop
      simp only [length_append, length_singleton] at loop
      exact loop.rebase fun r lt => (update_below lt).trans (below r (by dsimp only; omega))

theorem aggregateReal_spec {code : List Instruction} {lower upper : Instruction}
    {above below : Predicate} {skip : Nat} {real : Bool} (lowerAt : code[skip]? = some lower)
    (lowerIs : lower.opcode = .predicate above) (upperIs : upper.opcode = .predicate below)
    (emitted : c.code = code ++ [upper])
    (h : c.aggregateReal real skip code.length = c') :
    c'.code.length = code.length + 1 ∧ Keeps [skip] code c'.code ∧
      c'.registerCount = c.registerCount ∧ c'.offset = c.offset ∧
      c'.code[skip]? = some { lower with opcode := .predicate (above.real real) } ∧
      c'.code[code.length]? = some { upper with opcode := .predicate (below.real real) } := by
  have inside := (List.getElem?_eq_some_iff.mp lowerAt).1
  have other : code.length ≠ skip := by omega
  subst h
  cases real with
  | false =>
    simp only [Compiler.aggregateReal, Bool.false_eq_true, if_false, emitted]
    refine ⟨by simp, append, trivial, trivial, ?_, ?_⟩
    · simp [List.getElem?_append_left inside, lowerAt, Predicate.real, ← lowerIs]
    · simp [Predicate.real, ← upperIs]
  | true =>
    simp only [Compiler.aggregateReal, if_true, Compiler.setReal, emitted]
    refine ⟨by simp, ?_, trivial, trivial, ?_, ?_⟩
    · have kept : Keeps [skip, code.length] code
          (((code ++ [upper]).modify skip .setReal).modify code.length .setReal) :=
        Keeps.append.trans ((Keeps.modify (by simp)).trans (Keeps.modify (by simp)))
      exact kept.drop (by simp)
    · simp [List.getElem?_append_left inside, lowerAt, setReal, lowerIs, Predicate.real,
        other]
    · simp [setReal, upperIs, Predicate.real, other.symm]

/-- The run of a range: a jump behind the lower comparison leaves the upper out. -/
theorem Compiled.range {value lower upper : Except Failure (Computation σ)} {c2 c4 c6 c7 : Compiler}
    {code' : List Instruction} {x low high : Computation σ} {above below both : Predicate}
    {kind : Kind} {negate : Value → EvalM σ Value} {i : Instruction} {offset offset' offset'' : Nat}
    (first : Compiled ops inputs value
      { c with offset, registerCount := c.registerCount + 2 } c2)
    (second : Compiled ops inputs lower { c2 with offset := offset' } c4)
    (third : Compiled ops inputs upper { c4 with
      offset := offset''
      code := c4.code ++ [i] ++ [{
        opcode := .branch .and, offset := info.offset, destination := c.registerCount
        left := c.registerCount }] } c6)
    (meansValue : value = .ok x) (meansLower : lower = .ok low) (meansUpper : upper = .ok high)
    (keeps : Keeps [c4.code.length] c6.code c7.code) (length : c7.code.length = c6.code.length + 1)
    (lowerAt : c7.code[c4.code.length]? = some {
      opcode := .predicate above, offset := info.offset, destination := c.registerCount
      left := c2.lastRegister, right := c4.lastRegister, binary := true })
    (upperAt : c7.code[c6.code.length]? = some {
      opcode := .predicate below, offset := info.offset, destination := c.registerCount + 1
      left := c2.lastRegister, right := c6.lastRegister, binary := true })
    (closes : Closes ops inputs [c4.code.length + 1] c.registerCount kind (c6.code.length + 2) negate
      (c7.code ++ [{
        opcode := .predicate both, offset := info.offset, destination := c.registerCount
        left := c.registerCount, right := c.registerCount + 1, binary := true }]) code')
    {program : List Instruction} (agrees : Agrees program c.code.length code') (registers : Registers) :
    Runs ops inputs program c.code.length code'.length c.registerCount registers
      (withinRange ops info.offset above below both negate x.eval low.eval high.eval) := by
  have grown : c.code.length ≤ c2.code.length := first.keeps.length_le
  have grown' : c2.code.length ≤ c4.code.length := second.keeps.length_le
  have grown'' := third.keeps.length_le
  simp only [length_append, length_singleton] at grown''
  have lt : c.registerCount + 2 < c2.registerCount := first.registerCount_lt
  have lt' : c2.registerCount < c4.registerCount := second.registerCount_lt
  have register : c2.lastRegister = c.registerCount + 2 := first.register
  have keepsEnd : Keeps [c4.code.length, c4.code.length + 1] c6.code code' :=
    ((keeps.drop (by simp)).trans append).trans (closes.keeps.drop (by simp))
  have keepsLower : Keeps [c4.code.length, c4.code.length + 1] c4.code code' :=
    (append.trans append).trans ((third.keeps.drop (by simp)).trans keepsEnd)
  have last := closes.keeps.length_le
  simp only [length_append, length_singleton, length] at last
  have sameAt : ∀ i, i ≠ c4.code.length + 1 → i < c6.code.length + 2 → c.code.length ≤ i →
      program[i]? = (c7.code ++ [_])[i]? := fun i other lt le =>
    (agrees i le (by omega)).trans (closes.keeps.get i (by simp; omega) (by simpa using other))
  have lowerHere := sameAt c4.code.length (by omega) (by omega) (by omega)
  rw [getElem?_append_left (by omega), lowerAt] at lowerHere
  have upperHere := sameAt c6.code.length (by omega) (by omega) (by omega)
  rw [getElem?_append_left (by omega), upperAt] at upperHere
  have bothHere := sameAt (c6.code.length + 1) (by omega) (by omega) (by omega)
  rw [← length, getElem?_concat_length, length] at bothHere
  have jumpHere := (agrees (c4.code.length + 1) (by omega) (by omega)).trans
    (closes.patched _ mem_cons_self)
  have jumpKept : c7.code[c4.code.length + 1]? = some _ :=
    (keeps.get _ (by omega) (by simp)).trans
      ((third.keeps.get _ (by simp) (by simp)).trans (by simp; rfl))
  rw [getElem?_append_left (by omega), jumpKept, Option.map_some,
    patched_branch rfl] at jumpHere
  have ending := closes.runs program (agrees.from (by simp; omega))
  have outside : ∀ l ∈ [c4.code.length, c4.code.length + 1], c4.code.length ≤ l := by simp
  have keepsValue : Keeps [c4.code.length, c4.code.length + 1] c2.code code' :=
    (second.keeps.drop (by simp)).trans keepsLower
  refine (first.runs meansValue agrees keepsValue fun l member =>
    .inr (Nat.le_trans grown' (outside l member))).bind fun v registers1 valueAt below1 => ?_
  refine (second.runs meansLower (agrees.from grown) keepsLower fun l member =>
    .inr (outside l member)).bind fun l registers2 lowAt below2 => ?_
  dsimp only at valueAt below1 below2
  have saved : registers2 c2.lastRegister = v := by
    rw [register, below2 _ (by omega), valueAt]
  refine simulates_comparison lowerHere (fun isAbove => ?_) rfl rfl saved
    (second.register ▸ lowAt)
  dsimp only
  rw [settles_and]
  refine simulates_branch jumpHere rfl ?_ ?_
  · rw [update_self]
    intro undecided
    rw [if_neg (by simp [undecided])]
    have run (registers : Registers) : Runs ops inputs program _ _ _ registers _ :=
      third.runs meansUpper (agrees.from (by simp; omega)) keepsEnd fun l member =>
        .inl (by simp at member ⊢; omega)
    simp only [length_append, length_singleton] at run
    refine (run _).bind fun h registers3 highAt below3 => ?_
    have savedValue : registers3 c2.lastRegister = v := by
      rw [below3 _ (by omega), update_of_ne (by omega), saved]
    have savedAbove : registers3 c.registerCount = isAbove := by
      rw [below3 _ (by omega), update_self]
    refine simulates_comparison upperHere (fun isBelow => ?_) rfl rfl savedValue
      (third.register ▸ highAt)
    refine simulates_comparison bothHere (fun within => ?_) rfl rfl
      ((update_below (Nat.lt_succ_self _)).trans savedAbove) (update_self ..)
    have run := ending (update (update registers3 (c.registerCount + 1) isBelow)
      c.registerCount within)
    rw [update_self] at run
    refine run.rebase fun r lt => ?_
    rw [update_below lt, update_below (by omega), below3 r (by omega), update_below lt,
      below2 r (by omega), below1 r (by omega)]
  · rw [update_self, update_idem]
    intro decided
    rw [if_pos decided]
    have run := ending (update registers2 c.registerCount isAbove)
    rw [update_self] at run
    refine run.rebase fun r lt => ?_
    rw [update_below lt, below2 r (by omega), below1 r (by omega)]

theorem compiles_between {value lower upper : Expr}
    (first : Compiles b limits ops inputs value) (second : Compiles b limits ops inputs lower)
    (third : Compiles b limits ops inputs upper) :
    Compiles b limits ops inputs (.between info negated value lower upper) := by
  refine compiles_bound info rfl (by rw [meaning]) nofun
    fun plain means c stack c1 action resumed => ?_
  simp only [compileNode, compileBetween, Except.ok.injEq,
    Prod.mk.injEq] at resumed
  obtain ⟨rfl, rfl⟩ := resumed
  refine first.leads fun c2 compiledValue => leads_resume fun c3 action resumed => ?_
  simp only [resume, Expr.info, plain, compileNode, compileBetween, Except.ok.injEq,
    Prod.mk.injEq] at resumed
  obtain ⟨rfl, rfl⟩ := resumed
  refine second.leads fun c3 compiledLower => leads_resume fun c4 action resumed => ?_
  simp only [resume, Expr.info, plain, compileNode, compileBetween, emitCompoundBranch, bind_eq_ok,
    emitPredicate_eq_ok, emit_eq_ok, pure_eq_ok] at resumed
  obtain ⟨_, ⟨above, boundAbove, _, rfl⟩, _, ⟨_, ⟨_, rfl⟩, rfl⟩, resumed⟩ := resumed
  obtain ⟨rfl, rfl⟩ := Prod.mk.inj resumed
  refine third.leads fun c5 compiledUpper => leads_finish fun c6 action resumed => ?_
  obtain ⟨x, meansValue, typeValue, _⟩ := compiledValue.means
  obtain ⟨low, meansLower, typeLower, _⟩ := compiledLower.means
  obtain ⟨high, meansUpper, typeUpper, _⟩ := compiledUpper.means
  have lowerAt : c5.code[c3.code.length]? = some _ :=
    (compiledUpper.keeps.get _ (by simp) (by simp)).trans (by simp; rfl)
  simp only [resume, Expr.info, plain, compileNode, compileBetween, bind_eq_ok,
    emitPredicate_eq_ok, reject_eq_ok, exists_unit, lowerAt, Option.map_some, Option.getD_some,
    predicateRight, (predicateBind_bound boundAbove).2.2] at resumed
  obtain ⟨_, _, ⟨below, boundBelow, _, rfl⟩, _, ⟨both, boundBoth, _, rfl⟩, resumed⟩ := resumed
  generalize aggregated : Compiler.aggregateReal _ _ _ _ = c7 at resumed
  obtain ⟨length, keeps, count, offset, lowerAt', upperAt⟩ :=
    aggregateReal_spec lowerAt rfl rfl rfl aggregated
  dsimp only at count offset
  have grown := compiledUpper.keeps.length_le
  simp only [length_append, length_singleton] at grown
  have jumpAt : c7.code[c3.code.length + 1]? = some _ :=
    (keeps.get _ (by omega) (by simp)).trans
      ((compiledUpper.keeps.get _ (by simp) (by simp)).trans (by simp; rfl))
  have chain : Chain c7.code (c3.code.length + 1 + 1) [c3.code.length + 1] :=
    .cons jumpAt (by simp) .nil
  obtain ⟨type, negate, negated', rfl, count', closes⟩ := finishCompound_closes ops inputs resumed
    (by simpa using chain.keeps append)
  dsimp only at negated' count' closes
  have lt := compiledValue.registerCount_lt
  have lt' := compiledLower.registerCount_lt
  have lt'' := compiledUpper.registerCount_lt
  dsimp only at lt lt' lt''
  generalize realDef : realBetween c2.lastType.kind c3.lastType.kind c5.lastType.kind = real at *
  refine ⟨_, _, rfl, ?_, rfl, ?_, ⟨type, withinRange ops info.offset (above.real real)
    (below.real real) both negate x.eval low.eval high.eval⟩, ?_, rfl, fun program agrees registers => ?_⟩
  · have kept : Keeps [c3.code.length, c3.code.length + 1] c3.code c6.code :=
      ((append.trans append).trans ((compiledUpper.keeps.drop (by simp)).trans
        ((keeps.drop (by simp)).trans append))).trans (closes.keeps.drop (by simp))
    exact compiledValue.keeps.trans (compiledLower.keeps.trans (kept.drop (by simp)))
  · dsimp only
    omega
  · rw [offset] at negated'
    simp only [means, meansValue, meansLower, meansUpper, ok_bind, betweenMeaning, typeValue,
      typeLower, typeUpper, boundAbove, boundBelow, boundBoth, negated', realRange_eq, realDef,
      pure_ok]
  · rw [length_append, length, offset] at closes
    exact compiledValue.range compiledLower compiledUpper meansValue meansLower meansUpper keeps
      length lowerAt' upperAt closes agrees registers

end Compound

end TurboDb
