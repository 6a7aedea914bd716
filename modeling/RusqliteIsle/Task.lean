import RusqliteIsle.Error

/-!
# Tasks

A job answers through a channel of its own. Its sender is captured by the job, so
a job that is dropped without answering disconnects the channel.
-/

namespace RusqliteIsle

/-- The response channel of a job. -/
inductive Response (V : Type*) where
  | pending
  | answered (r : Except IsleError V)
  | dropped

namespace Response

variable {V : Type*}

/-- `Task::wait` and `AsyncTask::poll`: no result while the job is pending, and `Closed`
once the sender is gone without an answer. -/
def wait : Response V → Option (Except IsleError V)
  | pending => none
  | answered r => some r
  | dropped => some (.error .closed)

/-- Why `Receiver::try_recv` has no message. -/
inductive TryRecvError where
  | empty
  | disconnected
  deriving DecidableEq, Repr

/-- `Receiver::try_recv`. -/
def poll : Response V → Except TryRecvError (Except IsleError V)
  | pending => .error .empty
  | answered r => .ok r
  | dropped => .error .disconnected

/-- `Task::try_recv`: both errors of the receiver become `None`. -/
def tryRecv (p : Response V) : Option (Except IsleError V) := p.poll.toOption

lemma wait_eq_some {p : Response V} {r : Except IsleError V} (h : p.wait = some r) :
    p = answered r ∨ p = dropped ∧ r = .error .closed := by
  cases p with
  | pending => cases h
  | answered r' =>
    cases h
    exact Or.inl rfl
  | dropped =>
    cases h
    exact Or.inr ⟨rfl, rfl⟩

lemma wait_eq_none {p : Response V} : p.wait = none ↔ p = pending := by
  cases p <;> simp [wait]

lemma wait_of_empty {p : Response V} : p.wait = none ↔ p.poll = .error .empty := by
  cases p <;> simp [wait, poll]

lemma wait_of_poll {p : Response V} {r : Except IsleError V} (h : p.poll = .ok r) :
    p.wait = some r := by
  cases p with
  | answered r' =>
    cases h
    rfl
  | _ => cases h

lemma wait_of_disconnected {p : Response V} (h : p.poll = .error .disconnected) :
    p.wait = some (.error .closed) := by
  cases p with
  | dropped => rfl
  | _ => cases h

lemma poll_of_wait {p : Response V} {r : Except IsleError V} (h : p.wait = some r) :
    p.poll = .ok r ∨ p.poll = .error .disconnected ∧ r = .error .closed := by
  rcases wait_eq_some h with rfl | ⟨rfl, rfl⟩
  · exact Or.inl rfl
  · exact Or.inr ⟨rfl, rfl⟩

/-- Polling and waiting differ on one state of the channel. -/
lemma tryRecv_eq_wait {p : Response V} : p.tryRecv = p.wait ↔ p ≠ dropped := by
  cases p <;> simp [tryRecv, poll, wait, Except.toOption]

end Response

end RusqliteIsle
