import Mathlib.Logic.Basic

/-!
Status codes of the engine and the error record a failing call fills in.

A status other than `ok` comes with a message. A Lean action that fails carries
the pair; one that does not fail stands for `ok` and the untouched record.
-/

namespace TurboDb

inductive Status
  | ok | invalidArgument | abiMismatch | outOfMemory | connectionError | sqlError | typeError
  | outOfRange | limitExceeded | invalidState | nullValue | internalError | busy | unsupported
  | datastoreError | constraint | commitUnknown | cleanupFailed
  deriving DecidableEq, Repr

structure Failure where
  status : Status
  message : String
  deriving DecidableEq, Repr

end TurboDb
