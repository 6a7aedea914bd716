import RusqliteIsle.Isle.Abort
import RusqliteIsle.Isle.Poll
import RusqliteIsle.Isle.View

/-!
# The death of a synchronous isle

A synchronous isle has no driver, so its abort flag is never set. Its callers get `Closed` for
one reason only: the loop has returned. An isle whose loop still runs can answer `Closed` later,
but then it dies in between.
-/

namespace RusqliteIsle

set_option linter.unusedSectionVars false

variable {J K V : Type} [DecidableEq J] [DecidableEq K] {cfg : Config J V}

lemma not_abort_of_sync (hfront : cfg.front = .sync) {s : State J K V}
    (h : (isle cfg).Reachable s) : s.abort = false := by
  have hboth : s.driver = .dropped ∧ s.abort = false := by
    refine TransitionSystem.Reachable.invariant
      (I := fun s => s.driver = .dropped ∧ s.abort = false) ?_ ?_ h
    · simp [isle, State.init, hfront]
    · rintro s l t ⟨hdriver, habort⟩ hs
      have none_left {d : Driver} (hd : s.driver = d) (hne : d ≠ .dropped) : False :=
        hne (hd.symm.trans hdriver)
      cases hs with
      | driverShutdown hd | driverShutdownNow hd | driverStore hd | driverInterrupt hd
      | driverSend hd | driverSendClosed hd | driverDone hd | driverJoin hd =>
        exact (none_left hd (by simp)).elim
      | driverDrop => exact ⟨rfl, habort⟩
      | _ => exact ⟨hdriver, habort⟩
  exact hboth.2

lemma abort_of_read {s : State J K V} (h : (isle cfg).Reachable s) {j : J}
    (hread : (s.history j).abortRead = some true) : s.abort = true := by
  refine TransitionSystem.Reachable.invariant
    (I := fun s => (s.history j).abortRead = some true → s.abort = true) ?_ ?_ h hread
  · intro h
    cases h
  · intro s l t hi hs ht
    have hkeep := abort_step hs
    obtain rfl | hf | hl := step_about hs j
    · cases hs with
      | threadFinish => exact hkeep (hi ht)
    · exact hkeep (hi (by rwa [hf.history] at ht))
    cases hs with
    | normalizeAbort =>
      cases hl
      simpa using ht
    | queuedCheck | attachCheckNone | attachInterrupt | stmtStart | stmtComplete | closureRet
    | closurePanic | normalizeToken | respond | deadline | cancel | dropAsyncTask
    | fireInterrupt =>
      cases hl
      refine hkeep (hi ?_)
      simpa [State.beginFire, State.invoke] using ht
    | threadFinish => cases hl
    | _ => exact hkeep (hi ht)

lemma finished_of_refused {s : State J K V} (h : (isle cfg).Reachable s) {j : J}
    (hsub : (s.jobs j).submission = .refused .closed) : s.pc.isFinished = true := by
  refine TransitionSystem.ReachableVia.invariant_of (J := Link)
    (I := fun s => (s.jobs j).submission = .refused .closed → s.pc.isFinished = true)
    (fun s => link_reachable) ?_ ?_ h hsub
  · intro h
    cases h
  · intro s l t hlink hi _ hs ht
    have hkeep := finished_step hs
    obtain rfl | hf | hl := step_about hs j
    · cases hs with
      | threadFinish => rfl
    · exact hkeep (hi (by rwa [hf.job] at ht))
    cases hs with
    | refuseClosed _ hdead =>
      change s.pc.isFinished = true
      simpa [hdead] using hlink.alive
    | submit | enqueue | refuseFull | abandon =>
      cases hl
      simp [State.refuse] at ht
    | attachStore | detach | discard | respond | observe | dropSyncTask | detachTask
    | fireInterrupt =>
      cases hl
      exact hkeep (hi (by simpa using ht))
    | deadline | cancel | dropAsyncTask =>
      cases hl
      exact hkeep (hi (by simpa [State.beginFire] using ht))
    | threadFinish => cases hl
    | _ => exact hkeep (hi ht)

lemma exited_of_finished {s : State J K V} (h : s.pc.isFinished = true) :
    s.view.exited = true := by
  obtain ⟨why, hwhy⟩ := Pc.exit?_of_isFinished h
  simp [State.view, hwhy]

/-- A caller of a synchronous isle gets `Closed` only after the loop has returned. -/
theorem exited_of_closed (hfront : cfg.front = .sync) {s : State J K V}
    (h : (isle cfg).Reachable s) {j : J}
    (hobs : (s.jobs j).observed = some (.error .closed)) : s.view.exited = true := by
  have hlife := life_reachable h j
  have habort := not_abort_of_sync hfront h
  rcases hlife.seen _ hobs with ⟨e, hsub, he, -⟩ | ⟨hsub, hwait⟩
  · cases he
    exact exited_of_finished (finished_of_refused h hsub)
  · rcases Response.wait_eq_some hwait with hp | ⟨hp, -⟩
    · have hans := hlife.answers hp
      rcases hans.explains with hzero | ⟨-, hread⟩
      · obtain ⟨reason, -, hr⟩ := hans.skipped hzero
        cases reason <;> cases hr
      · rw [abort_of_read h hread] at habort
        cases habort
    · rcases (dropped_iff_forsaken h hsub).mp hp with hlost | ⟨hrec, hcur, hnone⟩
      · refine exited_of_finished ?_
        have halive := (link_reachable h).alive
        cases hfin : s.pc.isFinished with
        | true => rfl
        | false =>
          rw [hfin] at halive
          rw [s.chan.lost_nil halive] at hlost
          cases hlost
      · rcases hlife.settled hrec hcur with ⟨hone, -⟩ | ⟨-, -, hset⟩
        · omega
        · rw [hset] at habort
          cases habort

end RusqliteIsle
