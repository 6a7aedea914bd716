import RusqliteIsle.Token

/-!
# Jobs on the SQLite thread

What a user closure does with the connection, how it ends, and the positions of
the SQLite thread inside `run_loop` and the job wrapper built by `make_job`.
-/

namespace RusqliteIsle

/-- The payload of a panic, as far as `panic_message` can downcast it. -/
inductive PanicPayload where
  | str (s : String)
  | string (s : String)
  | other

/-- Extract a readable message from a panic payload. -/
def panicMessage : PanicPayload → String
  | .str s => s
  | .string s => s
  | .other => "unknown panic payload"

/-- A user closure, one interaction with the connection at a time: it starts a statement,
waits for the end of the statement it started last, returns or panics. -/
inductive Closure (V : Type) where
  | ret (r : Except RusqliteError V)
  | panic (payload : PanicPayload)
  | start (sql : String) (next : Closure V)
  | finish (next : Except RusqliteError V → Closure V)

namespace Closure

variable {V : Type}

/-- The closure, entered with `n` statements in progress, leaves none in progress. -/
def Balanced : ℕ → Closure V → Prop
  | n, ret _ => n = 0
  | n, panic _ => n = 0
  | n, start _ next => Balanced (n + 1) next
  | 0, finish _ => False
  | n + 1, finish next => ∀ r, Balanced n (next r)

/-- Whether the closure has ended. -/
def atEnd : Closure V → Bool
  | ret _ => true
  | panic _ => true
  | _ => false

/-- The closure that runs the statements one after the other, returns the first error, and
otherwise the value `out` of their results. -/
def ofStmts (out : List V → V) (done : List V) : List String → Closure V
  | [] => ret (.ok (out done))
  | sql :: rest => start sql (finish fun r =>
      match r with
      | .ok v => ofStmts out (done ++ [v]) rest
      | .error e => ret (.error e))

lemma ofStmts_balanced (out : List V → V) (done : List V) (stmts : List String) :
    (ofStmts out done stmts).Balanced 0 := by
  induction stmts generalizing done with
  | nil => rfl
  | cons sql rest ih =>
    intro r
    cases r with
    | ok v => exact ih (done ++ [v])
    | error e => rfl

end Closure

/-- What `catch_unwind` hands back: the closure's result or the payload of its panic. -/
inductive Caught (V : Type) where
  | returned (r : Except RusqliteError V)
  | panicked (payload : PanicPayload)

/-- What the loop needs to know after running a job. -/
inductive JobOutcome where
  | completed
  | panicked
  deriving DecidableEq, Repr

/-- Why `run_loop` returned. -/
inductive Exit where
  | shutdown
  | disconnected
  | unhealthy
  deriving DecidableEq, Repr

/-- Where the SQLite thread is. `next` is the blocking receive of `run_loop`, `loadAbort` to
`discard` its handling of a job, `queuedCheck` to `respond` the job wrapper, `healthStart` and
`healthFinish` the `SELECT 1` after a panic; `exited` is after the loop has returned, `signalled`
after the completion signal of the async front-end, `finished` after the thread has ended. -/
inductive Pc (J V : Type) where
  | next
  | loadAbort (j : J)
  | discard (j : J)
  | queuedCheck (j : J)
  | attachStore (j : J)
  | attachCheck (j : J)
  | attachInterrupt (j : J)
  | closure (j : J) (c : Closure V)
  | detach (j : J) (result : Caught V)
  | normalizeToken (j : J) (e : RusqliteError)
  | normalizeAbort (j : J) (e : RusqliteError)
  | respond (j : J) (r : Except IsleError V) (outcome : JobOutcome)
  | healthStart
  | healthFinish
  | exited (why : Exit)
  | signalled (why : Exit)
  | finished (why : Exit)

namespace Pc

variable {J V : Type}

/-- The job that the thread has taken from the channel and not yet finished with. -/
def job? : Pc J V → Option J
  | loadAbort j | discard j | queuedCheck j | attachStore j | attachCheck j | attachInterrupt j
  | closure j _ | detach j _ | normalizeToken j _ | normalizeAbort j _ | respond j _ _ => some j
  | _ => none

/-- The job that the loop has let past its abort check. -/
def letPast? : Pc J V → Option J
  | queuedCheck j | attachStore j | attachCheck j | attachInterrupt j
  | closure j _ | detach j _ | normalizeToken j _ | normalizeAbort j _ | respond j _ _ => some j
  | _ => none

/-- The job whose token holds the interrupt handle: from the store of `attach` to the store
of `detach`. -/
def attached? : Pc J V → Option J
  | attachCheck j | attachInterrupt j | closure j _ | detach j _ => some j
  | _ => none

/-- Whether the loop has returned, and why. -/
def exit? : Pc J V → Option Exit
  | exited why | signalled why | finished why => some why
  | _ => none

def isFinished : Pc J V → Bool
  | finished _ => true
  | _ => false

/-- Whether the thread is blocked in its receive. -/
def isReceiving : Pc J V → Bool
  | next => true
  | _ => false

/-- Where the wrapper goes after `detach`. -/
def afterDetach (j : J) : Caught V → Pc J V
  | .returned (.ok v) => respond j (.ok v) .completed
  | .returned (.error e) =>
    if IsleError.isInterrupt e then normalizeToken j e
    else respond j (.error (.sqlite e)) .completed
  | .panicked payload => respond j (.error (.panicked (panicMessage payload))) .panicked

/-- Where the loop goes after a job. -/
def afterJob : JobOutcome → Pc J V
  | .completed => next
  | .panicked => healthStart

lemma afterDetach_cases (j : J) (result : Caught V) :
    (∃ e, afterDetach j result = normalizeToken j e) ∨
      ∃ r outcome, afterDetach j result = respond j r outcome := by
  unfold afterDetach
  split
  · exact Or.inr ⟨_, _, rfl⟩
  · split
    · exact Or.inl ⟨_, rfl⟩
    · exact Or.inr ⟨_, _, rfl⟩
  · exact Or.inr ⟨_, _, rfl⟩

@[simp] lemma afterDetach_job? (j : J) (result : Caught V) :
    (afterDetach j result).job? = some j := by
  obtain ⟨e, h⟩ | ⟨r, outcome, h⟩ := afterDetach_cases j result <;> rw [h] <;> rfl

@[simp] lemma afterDetach_exit? (j : J) (result : Caught V) :
    (afterDetach j result).exit? = none := by
  obtain ⟨e, h⟩ | ⟨r, outcome, h⟩ := afterDetach_cases j result <;> rw [h] <;> rfl

@[simp] lemma afterDetach_isFinished (j : J) (result : Caught V) :
    (afterDetach j result).isFinished = false := by
  obtain ⟨e, h⟩ | ⟨r, outcome, h⟩ := afterDetach_cases j result <;> rw [h] <;> rfl

@[simp] lemma afterDetach_attached? (j : J) (result : Caught V) :
    (afterDetach j result).attached? = none := by
  obtain ⟨e, h⟩ | ⟨r, outcome, h⟩ := afterDetach_cases j result <;> rw [h] <;> rfl

end Pc

end RusqliteIsle
