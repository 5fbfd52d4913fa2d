import TurboDb.Query.Order

/-!
Scalar reductions, as groups and window frames share them.

A reduction starts from the result of no input and takes one value after the
other; NULL is no input. What binary64 arithmetic computes is a parameter, and
nothing is claimed of the reductions that use it. The others are compared with
what their names say of all values together.
-/

namespace TurboDb.Query

open Effect Wire List

/-- The binary64 operations of the processor, on bit patterns. -/
structure RealArithmetic where
  add : UInt64 → UInt64 → UInt64
  sub : UInt64 → UInt64 → UInt64
  mul : UInt64 → UInt64 → UInt64
  div : UInt64 → UInt64 → UInt64
  sqrt : UInt64 → UInt64
  rint : UInt64 → UInt64
  toInt64 : UInt64 → Int64

inductive AggregateKind
  | countAll | countValue | min | max | sum | avg | varPop | varSamp | stddevPop | stddevSamp
  | bitAnd | bitOr | bitXor
  deriving DecidableEq

def AggregateKind.moment : AggregateKind → Bool
  | .varPop | .varSamp | .stddevPop | .stddevSamp => true
  | _ => false

def AggregateKind.bit : AggregateKind → Bool
  | .bitAnd | .bitOr | .bitXor => true
  | _ => false

/-- The type of a result; only the count of all rows has no input. -/
def aggregateType (kind : AggregateKind) (input : Option SqlType) : Except Failure SqlType := do
  if kind = .countAll then return ⟨.int64, false⟩
  let input ← given input ⟨.invalidArgument, "aggregate type requires input and output"⟩
  let _ ← predicateBind .isNull input none
  if kind = .countValue then return ⟨.int64, false⟩
  else if kind.bit then
    reject (keyType input = false)
      ⟨.unsupported, "SQL numeric bit aggregates require numeric, BOOL or NULL input"⟩
    return ⟨.uint64, false⟩
  else if kind.moment then
    reject (keyType input = false)
      ⟨.unsupported, "SQL variance/stddev requires numeric, BOOL or NULL input"⟩
    return ⟨.double, true⟩
  else
    if kind = .sum ∨ kind = .avg then
      reject (input.kind = .int64 ∨ input.kind = .uint64 ∨ input.kind = .boolean)
        ⟨.unsupported, "SQL SUM/AVG exact-value input requires DECIMAL support"⟩
      reject (input.kind ≠ .double ∧ input.kind ≠ .null)
        ⟨.unsupported, "SQL SUM/AVG requires DOUBLE or NULL input"⟩
    else
      reject (keyType input = false)
        ⟨.unsupported, "SQL MIN/MAX requires numeric, BOOL or NULL input"⟩
    return ⟨input.kind, true⟩

structure Reduction where
  value : Value
  count : UInt64
  mean : UInt64
  squaredDeviation : UInt64
  deriving DecidableEq

def reductionBegin (kind : AggregateKind) : Reduction :=
  let value : Value :=
    if kind.bit then .uint64 (if kind = .bitAnd then 0xFFFFFFFFFFFFFFFF else 0)
    else if kind = .countAll ∨ kind = .countValue then .int64 0 else .null
  ⟨value, 0, 0, 0⟩

section Add

variable (real : RealArithmetic)

/-- The pattern of the least signed integer as a binary64, and of its negative. -/
def realInt64Min : UInt64 := 0xC3E0000000000000

def realInt64End : UInt64 := 0x43E0000000000000

def aggregateBitNumber : Value → Except Failure UInt64
  | .int64 value => pure value.toUInt64
  | .uint64 value => pure value
  | .boolean value => pure (if value ≠ 0 then 1 else 0)
  | value => do
    let rounded := real.rint (numericRealValue value)
    reject (compareDouble rounded realInt64Min = .lt ∨ compareDouble rounded realInt64End ≠ .lt)
      ⟨.limitExceeded, "SQL bit aggregate DOUBLE exceeds signed integer capacity"⟩
    pure (real.toInt64 rounded).toUInt64

def momentSample : Value → UInt64
  | .boolean value => doubleOfMagnitude value.toNat
  | value => numericRealValue value

def aggregateMomentAdd (state : Reduction) (input : Value) : Except Failure Reduction := do
  reject (state.count = 0xFFFFFFFFFFFFFFFF)
    ⟨.limitExceeded, "SQL variance/stddev count exceeds capacity"⟩
  let sample := momentSample input
  let count := state.count + 1
  let delta := real.sub sample state.mean
  let mean := if state.count = 0 then sample
    else real.add state.mean (real.div delta (doubleOfUInt64 count))
  let deviation := if state.count = 0 then 0
    else real.add state.squaredDeviation (real.mul delta (real.sub sample mean))
  reject (isFinite mean = false ∨ isFinite deviation = false ∨ compareDouble deviation 0 = .lt)
    ⟨.limitExceeded, "SQL variance/stddev exceeds finite DOUBLE capacity"⟩
  pure { state with count, mean, squaredDeviation := deviation }

def wordOf : Value → UInt64
  | .uint64 value => value
  | _ => 0

def integerOf : Value → Int64
  | .int64 value => value
  | _ => 0

def bitStep (kind : AggregateKind) (current bits : UInt64) : UInt64 :=
  if kind = .bitAnd then current &&& bits
  else if kind = .bitOr then current ||| bits
  else current ^^^ bits

def countAdd (state : Reduction) : Except Failure Reduction := do
  let count := integerOf state.value
  reject (count = Int64.maxValue) ⟨.limitExceeded, "SQL COUNT exceeds BIGINT capacity"⟩
  pure { state with value := .int64 (count + 1) }

def sumAdd (kind : AggregateKind) (state : Reduction) (input : Value) :
    Except Failure Reduction := do
  reject (kind = .avg ∧ state.count = 0xFFFFFFFFFFFFFFFF)
    ⟨.limitExceeded, "SQL AVG count exceeds capacity"⟩
  let total := real.add (numericRealValue state.value) (numericRealValue input)
  reject (isFinite total = false)
    ⟨.limitExceeded, "SQL SUM/AVG exceeds finite DOUBLE capacity"⟩
  pure { state with
    value := .double total
    count := if kind = .avg then state.count + 1 else state.count }

/-- Keep the better of two values; the first one stays when they are equal. -/
def extremeAdd (kind : AggregateKind) (state : Reduction) (input : Value) : Reduction :=
  let better := if kind = .min then Ordering.lt else Ordering.gt
  if state.value = .null ∨ valueOrder input state.value = better then
    { state with value := input }
  else state

/-- One more input; the count of all rows has none. -/
def reductionAdd (kind : AggregateKind) (state : Reduction) (input : Option Value) :
    Except Failure Reduction :=
  if input = some .null then pure state
  else if kind.moment then aggregateMomentAdd real state (input.getD .null)
  else if kind.bit then do
    let bits ← aggregateBitNumber real (input.getD .null)
    pure { state with value := .uint64 (bitStep kind (wordOf state.value) bits) }
  else if kind = .countAll ∨ kind = .countValue then countAdd state
  else if kind = .sum ∨ kind = .avg then sumAdd real kind state (input.getD .null)
  else pure (extremeAdd kind state (input.getD .null))

def reductionResult (kind : AggregateKind) (state : Reduction) : Except Failure Value :=
  if kind.moment then
    let sample : Bool := kind = .varSamp || kind = .stddevSamp
    if state.count ≤ (if sample then 1 else 0) then pure .null
    else
      let variance := real.div state.squaredDeviation
        (doubleOfUInt64 (state.count - if sample then 1 else 0))
      pure (.double (if kind = .stddevPop ∨ kind = .stddevSamp then real.sqrt variance else variance))
  else if kind = .avg ∧ state.value ≠ .null then do
    reject (state.count = 0) ⟨.internalError, "SQL AVG non-NULL sum has no inputs"⟩
    pure (.double (real.div (numericRealValue state.value) (doubleOfUInt64 state.count)))
  else pure state.value

end Add

variable {better : ℤ → ℤ → Prop} {result : Value} {op : UInt64 → UInt64 → UInt64}

section Meaning

def AggregateKind.exact : AggregateKind → Bool
  | .countAll | .countValue | .min | .max | .bitAnd | .bitOr | .bitXor => true
  | _ => false

def AggregateKind.counts (kind : AggregateKind) : Bool := kind = .countAll || kind = .countValue

def present (values : List Value) : List Value := values.filter (· ≠ .null)

def bitsOf : Value → UInt64
  | .int64 value => value.toUInt64
  | .uint64 value => value
  | .boolean value => if value ≠ 0 then 1 else 0
  | _ => 0

/-- One of the values that is at least as good as every other, or NULL if there is none. -/
def IsExtreme (better : ℤ → ℤ → Prop) (values : List Value) (result : Value) : Prop :=
  values = [] ∧ result = .null ∨
    result ∈ values ∧ ∀ value ∈ values, better (amount result) (amount value)

/-- What a reduction says of its inputs, one for every row. -/
def IsAggregate : AggregateKind → List Value → Value → Prop
  | .countAll, values, result => result = .int64 (.ofNat values.length)
  | .countValue, values, result => result = .int64 (.ofNat (present values).length)
  | .min, values, result => IsExtreme (· ≤ ·) (present values) result
  | .max, values, result => IsExtreme (· ≥ ·) (present values) result
  | .bitAnd, values, result =>
    result = .uint64 ((present values).foldr (bitsOf · &&& ·) 0xFFFFFFFFFFFFFFFF)
  | .bitOr, values, result => result = .uint64 ((present values).foldr (bitsOf · ||| ·) 0)
  | .bitXor, values, result => result = .uint64 ((present values).foldr (bitsOf · ^^^ ·) 0)
  | _, _, _ => False

def AggregateKind.counted (kind : AggregateKind) (values : List Value) : Nat :=
  if kind = .countAll then values.length else (present values).length

/-- The state of a reduction that has taken `values`. -/
structure Reduces (kind : AggregateKind) (values : List Value) (state : Reduction) : Prop where
  value : IsAggregate kind values state.value
  counted : kind.counts = true → kind.counted values < 2 ^ 63

/-- The values of one column, of which a bit reduction has no binary64. -/
structure Reducible (kind : AggregateKind) (type : SqlType) (values : List Value) : Prop where
  exact' : kind.exact = true
  typed : ∀ value ∈ values, validValue value type = true
  numeric : kind.counts = false → keyType type = true
  integral : kind.bit = true → type.kind ≠ .double

def reductionInput (kind : AggregateKind) (value : Value) : Option Value :=
  if kind = .countAll then none else some value

variable {real : RealArithmetic} {kind : AggregateKind} {type : SqlType} {values : List Value}
  {value : Value} {state : Reduction}

theorem present_append (first second : List Value) :
    present (first ++ second) = present first ++ present second := filter_append ..

theorem present_null : present [.null] = [] := rfl

theorem present_some (some : value ≠ .null) : present [value] = [value] := by
  simp [present, some]

theorem reductionBegin_reduces (exact' : kind.exact) :
    Reduces kind [] (reductionBegin kind) := by
  cases kind <;> first | exact Bool.noConfusion exact' | skip
  all_goals first
    | exact ⟨rfl, fun _ => Nat.two_pow_pos 63⟩
    | exact ⟨.inl ⟨rfl, rfl⟩, nofun⟩

def countFull : Failure := ⟨.limitExceeded, "SQL COUNT exceeds BIGINT capacity"⟩

theorem countAdd_eq {n : Nat} (isCount : state.value = .int64 (.ofNat n)) (bound : n < 2 ^ 63) :
    countAdd state =
      if n + 1 < 2 ^ 63 then .ok { state with value := .int64 (.ofNat (n + 1)) }
      else .error countFull := by
  have full : Int64.ofNat n = Int64.maxValue ↔ ¬n + 1 < 2 ^ 63 := by
    rw [← Int64.toInt_inj, Int64.toInt_ofNat_of_lt bound, Int64.toInt_maxValue]
    omega
  unfold countAdd
  rw [isCount]
  by_cases less : n + 1 < 2 ^ 63
  · have open' : ¬Int64.ofNat n = Int64.maxValue := fun h => full.mp h less
    rw [if_pos less, Int64.ofNat_add]
    simp [integerOf, reject, open', pure, Except.pure, bind, Except.bind]
  · rw [if_neg less]
    simp [integerOf, reject, full.mpr less, countFull, throw, throwThe, MonadExceptOf.throw, bind,
      Except.bind]

/-- The better of the best so far and one more value is the best of all. -/
theorem IsExtreme.add [Std.Refl better] [IsTrans ℤ better]
    (extreme : IsExtreme better (present values) result) {replaces : Prop} [Decidable replaces]
    (iff : result ≠ .null → (replaces → better (amount value) (amount result)) ∧
      (¬replaces → better (amount result) (amount value))) :
    IsExtreme better (present values ++ [value])
      (if result = .null ∨ replaces then value else result) := by
  obtain ⟨none, rfl⟩ | ⟨isOne, best⟩ := extreme
  · rw [if_pos (.inl rfl), none]
    refine .inr ⟨mem_singleton_self _, fun other isOther => ?_⟩
    rw [mem_singleton.mp isOther]
    exact Std.Refl.refl _
  · have some : result ≠ .null := by simpa using (mem_filter.mp isOne).2
    obtain ⟨yes, no⟩ := iff some
    by_cases replace : replaces
    · rw [if_pos (.inr replace)]
      refine .inr ⟨by simp, fun other isOther => ?_⟩
      obtain before | last := mem_append.mp isOther
      · exact IsTrans.trans _ _ _ (yes replace) (best other before)
      · rw [mem_singleton.mp last]
        exact Std.Refl.refl _
    · rw [if_neg (by simp [some, replace])]
      refine .inr ⟨mem_append_left _ isOne, fun other isOther => ?_⟩
      obtain before | last := mem_append.mp isOther
      · exact best other before
      · rw [mem_singleton.mp last]
        exact no replace

theorem foldr_op (comm : ∀ a b, op a b = op b a) (assoc : ∀ a b c, op (op a b) c = op a (op b c))
    (values : List Value) (init : UInt64) :
    (values ++ [value]).foldr (fun v w => op (bitsOf v) w) init =
      op (values.foldr (fun v w => op (bitsOf v) w) init) (bitsOf value) := by
  induction values with
  | nil => exact comm _ _
  | cons first values ih => rw [cons_append, foldr_cons, foldr_cons, ih, assoc]

theorem aggregateBitNumber_eq (valid : validValue value type) (some : value ≠ .null)
    (numeric : keyType type) (integral : type.kind ≠ .double) :
    aggregateBitNumber real value = .ok (bitsOf value) := by
  cases value <;> simp_all [validValue, keyType, aggregateBitNumber, bitsOf, pure, Except.pure]

theorem Reducible.init (reducible : Reducible kind type (values ++ [value])) :
    Reducible kind type values :=
  ⟨reducible.exact', fun v isValue => reducible.typed v (mem_append_left _ isValue),
    reducible.numeric, reducible.integral⟩

/-- NULL is no input, and changes no result but the count of all rows. -/
theorem IsAggregate.null (is : IsAggregate kind values result) (other : kind ≠ .countAll) :
    IsAggregate kind (values ++ [.null]) result := by
  have same : present (values ++ [.null]) = present values := by
    rw [present_append, present_null, append_nil]
  cases kind <;> first | exact absurd rfl other | skip
  all_goals first
    | exact is
    | (rw [IsAggregate, same]; exact is)

/-- What one more input makes of a reduction, unless a count is full. -/
def Takes (real : RealArithmetic) (kind : AggregateKind) (values : List Value) (state : Reduction)
    (value : Value) : Prop :=
  (∃ state', reductionAdd real kind state (reductionInput kind value) = .ok state' ∧
      Reduces kind (values ++ [value]) state') ∨
    kind.counts = true ∧ 2 ^ 63 ≤ kind.counted (values ++ [value]) ∧
      reductionAdd real kind state (reductionInput kind value) = .error countFull

theorem takes_null (other : kind ≠ .countAll) (reduces : Reduces kind values state) :
    Takes real kind values state .null := by
  refine .inl ⟨state, ?_, reduces.value.null other, fun counts => ?_⟩
  · rw [reductionInput, if_neg other]
    rfl
  · have bound := reduces.counted counts
    rw [AggregateKind.counted, if_neg other] at bound ⊢
    rwa [present_append, present_null, append_nil]

theorem takes_count {n : Nat} (counts : kind.counts) (isCount : state.value = .int64 (.ofNat n))
    (bound : n < 2 ^ 63) (next : kind.counted (values ++ [value]) = n + 1)
    (is : IsAggregate kind (values ++ [value]) (.int64 (.ofNat (n + 1))))
    (adds : reductionAdd real kind state (reductionInput kind value) = countAdd state) :
    Takes real kind values state value := by
  have added := countAdd_eq isCount bound
  by_cases less : n + 1 < 2 ^ 63
  · rw [if_pos less] at added
    exact .inl ⟨_, adds.trans added, is, fun _ => next ▸ less⟩
  · rw [if_neg less] at added
    exact .inr ⟨counts, by omega, adds.trans added⟩

theorem takes_bit {init : UInt64} (bit : kind.bit) (comm : ∀ a b, op a b = op b a)
    (assoc : ∀ a b c, op (op a b) c = op a (op b c)) (step : bitStep kind = op)
    (is : ∀ values result, IsAggregate kind values result ↔
      result = .uint64 ((present values).foldr (fun v w => op (bitsOf v) w) init))
    (reducible : Reducible kind type (values ++ [value])) (some : value ≠ .null)
    (reduces : Reduces kind values state) : Takes real kind values state value := by
  have other : kind ≠ .countAll := fun h => by rw [h] at bit; cases bit
  have plain : kind.moment = false := by cases kind <;> first | rfl | cases bit
  have noCount : kind.counts = false := by cases kind <;> first | rfl | cases bit
  have bits : aggregateBitNumber real value = .ok (bitsOf value) :=
    aggregateBitNumber_eq (reducible.typed value (by simp)) some (reducible.numeric noCount)
      (reducible.integral bit)
  have word : wordOf state.value = (present values).foldr (fun v w => op (bitsOf v) w) init := by
    rw [(is _ _).mp reduces.value]
    rfl
  refine .inl ⟨{ state with value := .uint64 (op (wordOf state.value) (bitsOf value)) }, ?_,
    (is _ _).mpr ?_, fun counts => absurd (noCount.symm.trans counts) (by simp)⟩
  · rw [reductionInput, if_neg other, reductionAdd, if_neg (by simpa using some), plain,
      if_neg (by simp), if_pos bit, Option.getD_some, bits, step]
    rfl
  · rw [present_append, present_some some, foldr_op comm assoc, word]

theorem takes_extreme [Std.Refl better] [IsTrans ℤ better]
    (extreme : kind = .min ∧ better = (· ≤ ·) ∨ kind = .max ∧ better = (· ≥ ·))
    (reducible : Reducible kind type (values ++ [value])) (some : value ≠ .null)
    (reduces : Reduces kind values state) : Takes real kind values state value := by
  have is (values : List Value) (result : Value) :
      IsAggregate kind values result ↔ IsExtreme better (present values) result := by
    obtain ⟨rfl, rfl⟩ | ⟨rfl, rfl⟩ := extreme <;> rfl
  have adds : reductionAdd real kind state (reductionInput kind value) =
      .ok (extremeAdd kind state value) := by
    obtain ⟨rfl, -⟩ | ⟨rfl, -⟩ := extreme <;>
      simp [reductionInput, reductionAdd, some, AggregateKind.moment, AggregateKind.bit, pure,
        Except.pure]
  have noCount : kind.counts = false := by obtain ⟨rfl, -⟩ | ⟨rfl, -⟩ := extreme <;> rfl
  refine .inl ⟨_, adds, (is _ _).mpr ?_, fun counts => absurd (noCount.symm.trans counts) (by simp)⟩
  have before := (is _ _).mp reduces.value
  rw [present_append, present_some some]
  have result : (extremeAdd kind state value).value = if state.value = .null ∨
      valueOrder value state.value = (if kind = .min then .lt else .gt) then value
      else state.value := by
    unfold extremeAdd
    dsimp only
    split_ifs <;> rfl
  rw [result]
  refine before.add fun some' => ?_
  -- A result that is not NULL is one of the values, so that both have the type of the column.
  obtain ⟨-, isNull⟩ | ⟨isOne, -⟩ := before
  · exact absurd isNull some'
  have valid' := reducible.typed state.value
    (mem_append_left _ (mem_filter.mp isOne).1)
  have order := valueOrder_amount (reducible.typed value (by simp)) valid' some some'
  obtain ⟨rfl, rfl⟩ | ⟨rfl, rfl⟩ := extreme
  · rw [if_pos rfl, order.eq_lt]
    exact ⟨le_of_lt, le_of_not_gt⟩
  · rw [if_neg (by simp), order.eq_gt]
    exact ⟨le_of_lt, le_of_not_gt⟩

theorem takes_all (reduces : Reduces .countAll values state) :
    Takes real .countAll values state value := by
  refine takes_count rfl reduces.value (reduces.counted rfl) ?_ ?_ rfl
  · simp [AggregateKind.counted]
  · simp [IsAggregate]

theorem takes (reducible : Reducible kind type (values ++ [value]))
    (reduces : Reduces kind values state) : Takes real kind values state value := by
  by_cases all : kind = .countAll
  · subst all
    exact takes_all reduces
  by_cases null : value = .null
  · subst null
    exact takes_null all reduces
  cases kind <;> first | exact Bool.noConfusion reducible.exact' | skip
  case countAll => exact absurd rfl all
  case countValue =>
      refine takes_count rfl reduces.value (reduces.counted rfl) ?_ ?_ ?_
      · simp [AggregateKind.counted, present_append, present_some null]
      · simp [IsAggregate, present_append, present_some null]
      · simp [reductionInput, reductionAdd, null, AggregateKind.moment, AggregateKind.bit]
  case min => exact takes_extreme (.inl ⟨rfl, rfl⟩) reducible null reduces
  case max => exact takes_extreme (.inr ⟨rfl, rfl⟩) reducible null reduces
  case bitAnd =>
      exact takes_bit rfl UInt64.and_comm UInt64.and_assoc rfl (fun _ _ => Iff.rfl) reducible null
        reduces
  case bitOr =>
      exact takes_bit rfl UInt64.or_comm UInt64.or_assoc rfl (fun _ _ => Iff.rfl) reducible null
        reduces
  case bitXor =>
      exact takes_bit rfl UInt64.xor_comm UInt64.xor_assoc rfl (fun _ _ => Iff.rfl) reducible null
        reduces

theorem reductionResult_eq (exact' : kind.exact) :
    reductionResult real kind state = .ok state.value := by
  cases kind <;> first | exact Bool.noConfusion exact' | rfl

end Meaning

end TurboDb.Query
