import TurboDb.Library.Effect
import TurboDb.Library.Words
import TurboDb.Status

/-!
The statement and transaction budget ledger.

Counters are unsigned 64-bit words with wrapping arithmetic. A witness bit beside
the ledger turns false at the first subtraction below zero and at the first sum or
product that does not fit, so that exactness is a statement about runs of this
very code. A pointer argument is whether it is present, or an optional value when
the callee reads it; a resource outside the enumeration is `none`.
-/

namespace TurboDb.Budget

open Effect Words

inductive Resource
  | workBytes | materializedRows | groups | astNodes | planNodes | joinPairs | executionSteps
  | writeRows | writeBytes | readRows | readBytes
  deriving DecidableEq, Repr

/-- The enumeration in declaration order, as the loops of the ledger visit it. -/
def Resource.all : List Resource :=
  [.workBytes, .materializedRows, .groups, .astNodes, .planNodes, .joinPairs, .executionSteps,
    .writeRows, .writeBytes, .readRows, .readBytes]

def Resource.name : Resource → String
  | .workBytes => "work bytes"
  | .materializedRows => "materialized rows"
  | .groups => "groups"
  | .astNodes => "AST nodes"
  | .planNodes => "plan nodes"
  | .joinPairs => "join pairs"
  | .executionSteps => "execution steps"
  | .writeRows => "write rows"
  | .writeBytes => "write bytes"
  | .readRows => "read rows"
  | .readBytes => "read bytes"

abbrev Amount := Resource → UInt64

def Amount.set (a : Amount) (r : Resource) (v : UInt64) : Amount :=
  fun i => if i = r then v else a i

@[simp] theorem Amount.set_self (a : Amount) (r : Resource) (v : UInt64) :
    a.set r v r = v := by simp [Amount.set]

theorem Amount.set_ne (a : Amount) {r i : Resource} (v : UInt64) (h : i ≠ r) :
    a.set r v i = a i := by simp [Amount.set, h]

def Amount.single (r : Resource) (v : UInt64) : Amount :=
  Amount.set (fun _ => 0) r v

structure TransactionAmount where
  readRows : UInt64
  readBytes : UInt64
  writeBytes : UInt64
  deriving DecidableEq, Repr

structure Limits where
  statement : Amount
  transaction : TransactionAmount

structure Ledger where
  limits : Limits
  used : Amount
  peak : Amount
  transactionUsed : TransactionAmount
  retainedWorkBytes : UInt64
  statementActive : Bool

/-- The ledger under execution and whether all its arithmetic was exact so far. -/
structure Machine where
  ledger : Ledger
  exact : Bool

abbrev BudgetM := EStateM Failure Machine

def minus (a b : UInt64) : BudgetM UInt64 :=
  modifyGet fun m => (a - b, { m with exact := m.exact && decide (SubExact a b) })

def plus (a b : UInt64) : BudgetM UInt64 :=
  modifyGet fun m => (a + b, { m with exact := m.exact && decide (AddExact a b) })

def times (a b : UInt64) : BudgetM UInt64 :=
  modifyGet fun m => (a * b, { m with exact := m.exact && decide (MulExact a b) })

def ledger : BudgetM Ledger := do return (← get).ledger

def store (l : Ledger) : BudgetM Unit := modify fun m => { m with ledger := l }

def budgetRequired : String := "TidesDB SQL budget is required"

def limitError (scope resource : String) : Failure :=
  ⟨.limitExceeded, "TidesDB SQL reserve exceeds " ++ scope ++ " " ++ resource ++ " budget"⟩

def releasable (resource : Resource) : Bool :=
  resource = .workBytes || resource = .materializedRows || resource = .groups

def requireActive (budget : Bool) : BudgetM Unit := do
  reject (budget = false) ⟨.invalidArgument, budgetRequired⟩
  reject ((← ledger).statementActive = false)
    ⟨.invalidState, "TidesDB SQL budget requires an active statement"⟩

def init (out : Bool) (limits : Option Limits) : BudgetM Unit := do
  let missing : Failure :=
    ⟨.invalidArgument, "TidesDB SQL budget init requires output and limits"⟩
  reject (out = false) missing
  let limits ← given limits missing
  Resource.all.forM fun i =>
    reject (limits.statement i = 0)
      ⟨.invalidArgument, "TidesDB SQL statement budgets must be positive"⟩
  reject (limits.statement .workBytes > max ∨
      limits.transaction.readRows < limits.statement .readRows ∨
      limits.transaction.readBytes < limits.statement .readBytes ∨
      limits.transaction.writeBytes < limits.statement .writeBytes)
    ⟨.invalidArgument, "TidesDB SQL budget limits are inconsistent"⟩
  store { limits, used := fun _ => 0, peak := fun _ => 0, transactionUsed := ⟨0, 0, 0⟩,
          retainedWorkBytes := 0, statementActive := false }

def begin (budget : Bool) : BudgetM Unit := do
  reject (budget = false) ⟨.invalidArgument, budgetRequired⟩
  let l ← ledger
  reject (l.statementActive = true)
    ⟨.busy, "TidesDB SQL budget already has an active statement"⟩
  store { l with
    used := Amount.single .workBytes l.retainedWorkBytes
    peak := Amount.single .workBytes l.retainedWorkBytes
    statementActive := true }

def endStatement (budget : Bool) : BudgetM Unit := do
  requireActive budget
  Resource.all.forM fun i => do
    let l ← ledger
    let retained := if i = .workBytes then l.retainedWorkBytes else 0
    reject (releasable i = true ∧ l.used i ≠ retained)
      ⟨.busy, "TidesDB SQL statement still owns budgeted resources"⟩
  store { (← ledger) with statementActive := false }

/-- One guard of a reservation: the charge against the room left under a limit. -/
def admitResource (limit used charge : UInt64) (scope resource : String) : BudgetM Unit := do
  let room ← minus limit used
  reject (charge > room) (limitError scope resource)

/-- One counter of a reservation and the peak it may raise. -/
def charge (amount : Amount) (i : Resource) : BudgetM Unit := do
  let used ← plus ((← ledger).used i) (amount i)
  let l ← ledger
  store { l with
    used := l.used.set i used
    peak := if used > l.peak i then l.peak.set i used else l.peak }

def admitStatement (amount : Amount) : BudgetM Unit :=
  Resource.all.forM fun i => do
    let l ← ledger
    admitResource (l.limits.statement i) (l.used i) (amount i) "statement" i.name

def chargeStatement (amount : Amount) : BudgetM Unit :=
  Resource.all.forM fun i => charge amount i

def reserve (budget : Bool) (amount : Option Amount) : BudgetM Unit := do
  requireActive budget
  let amount ← given amount ⟨.invalidArgument, "TidesDB SQL reserve requires an amount"⟩
  admitStatement amount
  let l ← ledger
  admitResource l.limits.transaction.readRows l.transactionUsed.readRows (amount .readRows)
    "transaction" "read rows"
  admitResource l.limits.transaction.readBytes l.transactionUsed.readBytes (amount .readBytes)
    "transaction" "read bytes"
  admitResource l.limits.transaction.writeBytes l.transactionUsed.writeBytes (amount .writeBytes)
    "transaction" "write bytes"
  chargeStatement amount
  let l ← ledger
  let readRows ← plus l.transactionUsed.readRows (amount .readRows)
  let readBytes ← plus l.transactionUsed.readBytes (amount .readBytes)
  let writeBytes ← plus l.transactionUsed.writeBytes (amount .writeBytes)
  store { l with transactionUsed := ⟨readRows, readBytes, writeBytes⟩ }

def reserveCapacity (budget : Bool) (capacity elementBytes overheadBytes : UInt64)
    (reserved : Bool) : BudgetM UInt64 := do
  requireActive budget
  reject (reserved = false ∨ elementBytes = 0)
    ⟨.invalidArgument, "TidesDB SQL capacity reserve requires output and element size"⟩
  let room ← minus max overheadBytes
  reject (capacity > room / elementBytes)
    ⟨.limitExceeded, "TidesDB SQL capacity byte calculation overflows size_t"⟩
  let bytes ← plus (← times capacity elementBytes) overheadBytes
  reserve budget (some (Amount.single .workBytes bytes))
  return bytes

def release (budget : Bool) (resource : Option Resource) (amount : UInt64) : BudgetM Unit := do
  let unowned : Failure :=
    ⟨.invalidArgument, "TidesDB SQL release requires owned live resources"⟩
  requireActive budget
  let resource ← given resource unowned
  let l ← ledger
  reject (releasable resource = false ∨ amount > l.used resource) unowned
  -- The short-circuit makes the difference below evaluated for work bytes only.
  if resource = .workBytes then
    let left ← minus (l.used resource) amount
    reject (left < l.retainedWorkBytes) unowned
  let left ← minus (l.used resource) amount
  store { l with used := l.used.set resource left }

def reserveRetainedCapacity (budget : Bool) (capacity elementBytes overheadBytes : UInt64)
    (reserved : Bool) : BudgetM UInt64 := do
  reject (reserved = false)
    ⟨.invalidArgument, "TidesDB SQL retained reserve requires output"⟩
  let bytes ← reserveCapacity budget capacity elementBytes overheadBytes true
  let retained ← plus (← ledger).retainedWorkBytes bytes
  store { (← ledger) with retainedWorkBytes := retained }
  return bytes

def releaseRetained (budget : Bool) (amount : UInt64) : BudgetM Unit := do
  reject (budget = false) ⟨.invalidArgument, budgetRequired⟩
  let l ← ledger
  reject (amount > l.retainedWorkBytes ∨ amount > l.used .workBytes)
    ⟨.invalidArgument, "TidesDB SQL release requires owned retained work"⟩
  let retained ← minus l.retainedWorkBytes amount
  let used ← minus (l.used .workBytes) amount
  store { l with retainedWorkBytes := retained, used := l.used.set .workBytes used }

def resetTransaction (budget : Bool) : BudgetM Unit := do
  reject (budget = false) ⟨.invalidArgument, budgetRequired⟩
  let l ← ledger
  reject (l.statementActive = true ∨ l.retainedWorkBytes ≠ 0)
    ⟨.busy,
      "TidesDB SQL transaction budget still has an active statement or retained owner"⟩
  store { l with transactionUsed := ⟨0, 0, 0⟩ }

/-- The entry points of the ledger with every argument left to the caller. -/
inductive Call
  | init (out : Bool) (limits : Option Limits)
  | begin (budget : Bool)
  | endStatement (budget : Bool)
  | reserve (budget : Bool) (amount : Option Amount)
  | reserveCapacity (budget : Bool) (capacity elementBytes overheadBytes : UInt64)
      (reserved : Bool)
  | release (budget : Bool) (resource : Option Resource) (amount : UInt64)
  | reserveRetainedCapacity (budget : Bool) (capacity elementBytes overheadBytes : UInt64)
      (reserved : Bool)
  | releaseRetained (budget : Bool) (amount : UInt64)
  | resetTransaction (budget : Bool)

def call : Call → BudgetM Unit
  | .init out limits => init out limits
  | .begin budget => begin budget
  | .endStatement budget => endStatement budget
  | .reserve budget amount => reserve budget amount
  | .reserveCapacity budget capacity elementBytes overheadBytes reserved => do
    let _ ← reserveCapacity budget capacity elementBytes overheadBytes reserved
  | .release budget resource amount => release budget resource amount
  | .reserveRetainedCapacity budget capacity elementBytes overheadBytes reserved => do
    let _ ← reserveRetainedCapacity budget capacity elementBytes overheadBytes reserved
  | .releaseRetained budget amount => releaseRetained budget amount
  | .resetTransaction budget => resetTransaction budget

/-- The owner keeps calling whether or not a call failed. -/
def run : List Call → Machine → Machine
  | [], m => m
  | c :: rest, m =>
    match call c m with
    | .ok _ next => run rest next
    | .error _ next => run rest next

end TurboDb.Budget
