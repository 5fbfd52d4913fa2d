import TurboDb.Mysql.Response

/-!
What the server is linked against.

The SQL engine, its statements and results, and the fixed vectors are a state of
their own with one function for each call, so that a proof for every such state
is one for every behaviour. An answer that is not a success carries a status
other than `ok`. Calls of the engine are recorded in a log, the oldest first.
-/

namespace TurboDb.Mysql

open ByteOrder Effect

structure Fault extends Failure where
  failed : status ≠ .ok

/-- The identity of a statement or of a result. -/
abbrev Handle := Nat

structure SessionState where
  autocommit : Bool
  inTransaction : Bool
  transactionReadOnly : Bool
  busy : Bool
  warningCount : UInt64
  failure : Status
  deriving DecidableEq

/-- The kind of a response; a response that was not filled in has neither. -/
inductive ResponseKind
  | none | command | rows
  deriving DecidableEq

structure SqlResponse where
  kind : ResponseKind
  affectedRows : UInt64
  lastInsertId : UInt64
  result : Option Handle
  deriving DecidableEq

def SqlResponse.default : SqlResponse := ⟨.none, 0, 0, .none⟩

inductive RowState
  | row | done | cancelled
  deriving DecidableEq

/-- A step of a result; `values` is missing when the engine hands out no array. -/
structure SqlRow where
  state : RowState
  values : Option (List Value)
  deriving DecidableEq

inductive StlStatus
  | ok | outOfMemory | capacityExceeded | other
  deriving DecidableEq

structure VectorAnswer where
  init : StlStatus
  reserve : StlStatus
  resize : StlStatus
  deriving DecidableEq

structure Sdk (σ : Type) where
  state : σ → Except Fault SessionState
  run : Bytes → σ → Except Fault SqlResponse × σ
  prepare : Bytes → σ → Except Fault Handle × σ
  parameters : Handle → Nat
  columns : Handle → Nat
  parameter : Handle → Nat → σ → Except Fault Column
  column : Handle → Nat → σ → Except Fault Column
  execute : Handle → List Value → σ → Except Fault SqlResponse × σ
  reset : Handle → σ → Except Fault Unit × σ
  close : Handle → σ → Except Fault Unit × σ
  resultColumns : Handle → Nat
  resultColumn : Handle → Nat → σ → Except Fault Column
  next : Handle → σ → Except Fault SqlRow × σ
  destroy : Handle → σ → Except Fault Unit × σ
  vector : Nat → σ → VectorAnswer × σ

/-- An engine that accepts every call: it counts what it hands out and knows the live results. -/
def Sdk.counting : Sdk (Nat × List Handle) where
  state _ := .ok ⟨true, false, false, false, 0, .ok⟩
  run _ s := (.ok ⟨.command, 0, 0, .none⟩, s)
  prepare _ s := (.ok s.1, s.1 + 1, s.2)
  parameters _ := 1
  columns _ := 1
  parameter _ _ _ := .ok ⟨some [], some .text, true⟩
  column _ _ _ := .ok ⟨some [], some .text, true⟩
  execute _ _ s := (.ok ⟨.rows, 0, 0, some s.1⟩, s.1 + 1, s.1 :: s.2)
  reset _ s := (.ok (), s)
  close _ s := (.ok (), s)
  resultColumns _ := 1
  resultColumn _ _ _ := .ok ⟨some [], some .text, true⟩
  next _ s := (.ok ⟨.done, .none⟩, s)
  destroy result s := (.ok (), s.1, s.2.erase result)
  vector _ s := (⟨.ok, .ok, .ok⟩, s)

/-- The response of a command that succeeded: a result is handed out with rows only. -/
def Responds {σ : Type} (live : σ → List Handle) (before : σ) :
    Except Fault SqlResponse × σ → Prop
  | (.error _, after) => live after = live before
  | (.ok response, after) =>
    response.kind = .command ∧ response.result = none ∧ live after = live before ∨
      ∃ result, response.kind = .rows ∧ response.result = some result ∧
        live after = result :: live before

/-- The contract of the engine, in terms of the results that are live: it hands them out, they
are gone once they are destroyed, whatever that reports, and only a live one keeps a statement
from being closed. -/
structure Sdk.Lawful {σ : Type} (sdk : Sdk σ) (live : σ → List Handle) : Prop where
  run : ∀ sql s, Responds live s (sdk.run sql s)
  execute : ∀ statement values s, Responds live s (sdk.execute statement values s)
  destroy : ∀ result s, live (sdk.destroy result s).2 = (live s).erase result
  prepare : ∀ sql s, live (sdk.prepare sql s).2 = live s
  reset : ∀ statement s, live (sdk.reset statement s).2 = live s
  close : ∀ statement s, live (sdk.close statement s).2 = live s
  next : ∀ result s, live (sdk.next result s).2 = live s
  vector : ∀ count s, live (sdk.vector count s).2 = live s
  busy : ∀ statement s fault, (sdk.close statement s).1 = .error fault → fault.status = .busy →
    live s ≠ []

theorem Sdk.counting_lawful : Sdk.counting.Lawful Prod.snd where
  run _ _ := .inl ⟨rfl, rfl, rfl⟩
  execute _ _ s := .inr ⟨s.1, rfl, rfl, rfl⟩
  destroy _ _ := rfl
  prepare _ _ := rfl
  reset _ _ := rfl
  close _ _ := rfl
  next _ _ := rfl
  vector _ _ := rfl
  busy := nofun

inductive SqlEvent
  | ran (sql : Bytes) (answer : Except Fault SqlResponse)
  | prepared (sql : Bytes) (answer : Except Fault Handle)
  | executed (statement : Handle) (values : List Value) (answer : Except Fault SqlResponse)
  | rewound (statement : Handle) (answer : Except Fault Unit)
  | closed (statement : Handle) (answer : Except Fault Unit)
  | fetched (result : Handle) (answer : Except Fault SqlRow)
  | destroyed (result : Handle) (answer : Except Fault Unit)

structure Env (σ : Type) where
  engine : σ
  log : List SqlEvent

variable {σ α : Type}

def Env.call (f : σ → Except Fault α × σ) (event : Except Fault α → SqlEvent) :
    EStateM Failure (Env σ) α := fun env =>
  let (answer, engine) := f env.engine
  match answer with
  | .ok a => .ok a ⟨engine, env.log ++ [event answer]⟩
  | .error fault => .error fault.toFailure ⟨engine, env.log ++ [event answer]⟩

/-- A look at the engine, which changes nothing and is not recorded. -/
def Env.look (f : σ → Except Fault α) : EStateM Failure (Env σ) α := fun env =>
  match f env.engine with
  | .ok a => .ok a env
  | .error fault => .error fault.toFailure env

end TurboDb.Mysql
