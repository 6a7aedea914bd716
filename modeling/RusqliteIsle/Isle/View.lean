import RusqliteIsle.Isle.System

/-!
# What a pool sees of an isle

A pool asks its isles whether they are alive, and shuts them down. Both depend on two facts
only: whether the thread has finished and whether its join handle was taken. The view also
remembers whether the loop has returned, which comes before the end of the thread.
-/

namespace RusqliteIsle

set_option linter.unusedSectionVars false

structure IsleView where
  exited : Bool
  finished : Bool
  joinTaken : Bool
  deriving DecidableEq, Repr

namespace IsleView

/-- An isle that has just been spawned. -/
def spawned : IsleView := ⟨false, false, false⟩

/-- `Isle::is_alive`. -/
def isAlive (v : IsleView) : Bool := !v.joinTaken && !v.finished

/-- Whether a call of `Isle::shutdown` that has sent its message can return: there is no handle
to join, or the thread has finished. -/
def shutdownReturns (v : IsleView) : Bool := v.joinTaken || v.finished

def exit (v : IsleView) : IsleView := { v with exited := true }

def finish (v : IsleView) : IsleView := { v with finished := true }

def takeJoin (v : IsleView) : IsleView := { v with joinTaken := true }

@[simp] lemma spawned_isAlive : spawned.isAlive = true := rfl

@[simp] lemma exit_isAlive (v : IsleView) : v.exit.isAlive = v.isAlive := rfl

@[simp] lemma finish_isAlive (v : IsleView) : v.finish.isAlive = false := by
  simp [finish, isAlive]

@[simp] lemma takeJoin_isAlive (v : IsleView) : v.takeJoin.isAlive = false := rfl

/-- A move of an isle: its loop returns, its thread finishes, its handle is taken. -/
inductive Move : IsleView → IsleView → Prop
  | exit {v : IsleView} : Move v v.exit
  | finish {v : IsleView} (hexited : v.exited = true) : Move v v.finish
  | takeJoin {v : IsleView} : Move v v.takeJoin

lemma Move.dead {v v' : IsleView} (h : Move v v') (hv : v.isAlive = false) :
    v'.isAlive = false := by
  cases h with
  | exit => rw [exit_isAlive, hv]
  | finish => exact finish_isAlive v
  | takeJoin => rfl

end IsleView

variable {J K V : Type} [DecidableEq J] [DecidableEq K] {cfg : Config J V}

def State.view (s : State J K V) : IsleView := ⟨s.pc.exit?.isSome, s.pc.isFinished, !s.join⟩

/-- Every step of an isle is a move of its view or leaves the view alone, and the loop does not
return while it serves a job. -/
theorem view_step {s t : State J K V} {l : Label J K V} (hs : Step cfg s l t) :
    t.view = s.view ∨
      s.view.Move t.view ∧ (t.view.exited = true → s.view.exited = true ∨ s.pc.job? = none) := by
  have keep {pc : Pc J V} (hpc : s.pc = pc) (hexit : t.pc.exit? = pc.exit?)
      (hfin : t.pc.isFinished = pc.isFinished) (hjoin : t.join = s.join) : t.view = s.view := by
    simp only [State.view, hpc, hexit, hfin, hjoin]
  cases hs with
  | recvShutdown hpc | recvDisconnected hpc | healthFail hpc =>
    refine Or.inr ⟨?_, fun _ => Or.inr (by rw [hpc]; rfl)⟩
    convert IsleView.Move.exit using 1
    simp only [State.view, IsleView.exit, hpc]
    rfl
  | threadFinish hpc =>
    have hexited : s.view.exited = true := by
      rcases hpc with ⟨-, h⟩ | h <;> simp only [State.view, h] <;> rfl
    refine Or.inr ⟨?_, fun _ => Or.inl hexited⟩
    convert IsleView.Move.finish hexited using 1
    rw [IsleView.finish, hexited]
    rfl
  | shutTake =>
    exact Or.inr ⟨.takeJoin, fun h => Or.inl h⟩
  | loadAbort hpc | queuedCheck hpc | normalizeToken hpc =>
    refine Or.inl (keep hpc ?_ ?_ rfl) <;> dsimp only <;> split <;> rfl
  | detach hpc => exact Or.inl (keep hpc (Pc.afterDetach_exit? _ _) (Pc.afterDetach_isFinished _ _) rfl)
  | @respond _ _ outcome hpc =>
    refine Or.inl (keep hpc ?_ ?_ rfl) <;> cases outcome <;> rfl
  | recvJob hpc | discard hpc | attachStore hpc | attachCheckNone hpc | attachCheckFired hpc
  | attachInterrupt hpc | stmtStart hpc | stmtComplete hpc | stmtFail hpc | stmtAbort hpc
  | closureRet hpc | closurePanic hpc | normalizeAbort hpc | healthStart hpc | healthPass hpc
  | signalDone _ hpc => exact Or.inl (keep hpc rfl rfl rfl)
  | _ => exact Or.inl rfl

/-- A call of `Isle::shutdown` returns only when the view lets it. -/
theorem shutdownReturns_of_returned {s t : State J K V} {l : Label J K V} {k : K}
    (hs : Step cfg s l t) (hcall : s.calls k ≠ .returned) (hret : t.calls k = .returned) :
    s.view.shutdownReturns = true := by
  have other {k' : K} {call : ShutdownCall} (hne : call ≠ .returned) :
      Function.update s.calls k' call k ≠ .returned := by
    by_cases hk : k = k'
    · subst hk
      rwa [Function.update_self]
    · rwa [Function.update_of_ne hk]
  cases hs with
  | shutSkip _ hjoin => simp [State.view, IsleView.shutdownReturns, hjoin]
  | shutJoin _ hfin => simp [State.view, IsleView.shutdownReturns, hfin]
  | shutCall | shutSend | shutSendClosed | shutTake => exact absurd hret (other (by simp))
  | _ => exact absurd hret hcall

end RusqliteIsle
