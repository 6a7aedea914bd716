import Mathlib.Data.Nat.Notation

/-!
# Errors

`rusqlite::Error` as far as the isle inspects it, and `IsleError`.
-/

namespace RusqliteIsle

/-- The result codes of SQLite that the isle tells apart. -/
inductive ErrorCode where
  | operationInterrupted
  | databaseBusy
  | other (code : ℕ)
  deriving DecidableEq, Repr

/-- `rusqlite::Error`: a failure reported by SQLite, or a variant of rusqlite's own. -/
inductive RusqliteError where
  | sqliteFailure (code : ErrorCode) (message : Option String)
  | other (variant : ℕ)
  deriving DecidableEq, Repr

/-- Errors returned by isle operations. -/
inductive IsleError where
  | sqlite (e : RusqliteError)
  | cancelled
  | timeout
  | closed
  | queueFull
  | panicked (message : String)
  deriving DecidableEq, Repr

/-- Whether the underlying rusqlite error is `SQLITE_INTERRUPT`. -/
def IsleError.isInterrupt : RusqliteError → Bool
  | .sqliteFailure .operationInterrupted _ => true
  | _ => false

/-- The error with which SQLite aborts an interrupted statement. -/
def interruptError : RusqliteError := .sqliteFailure .operationInterrupted (some "interrupted")

@[simp] lemma isInterrupt_interruptError : IsleError.isInterrupt interruptError = true := rfl

end RusqliteIsle
