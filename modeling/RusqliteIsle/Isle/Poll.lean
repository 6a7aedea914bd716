import RusqliteIsle.Isle.Drain

/-!
# Polling a task

`Task::wait` reports `Closed` when the response channel is disconnected. `Task::try_recv` has one
answer for a channel that is disconnected and for one that is still empty. So the two agree on
every job but those that are dropped without an answer: by the loop, while it is aborting, or
together with the receiver.
-/

namespace RusqliteIsle

set_option linter.unusedSectionVars false

variable {J K V : Type} [DecidableEq J] [DecidableEq K] {cfg : Config J V}

/-- The job was dropped without an answer: together with the receiver, or by the loop. -/
def Forsaken (s : State J K V) (j : J) : Prop :=
  Request.job j ∈ s.chan.lost ∨
    Request.job j ∈ s.chan.received ∧ s.pc.job? ≠ some j ∧ (s.history j).responses = 0

lemma dropped_iff_forsaken {s : State J K V} (h : (isle cfg).Reachable s) {j : J}
    (hsub : (s.jobs j).submission = .accepted) :
    (s.jobs j).response = .dropped ↔ Forsaken s j := by
  have hlife := life_reachable h j
  have hsent : Request.job j ∈ s.chan.sent := ((link_reachable h).accepted j).mpr hsub
  constructor
  · intro hdropped
    by_cases hrec : Request.job j ∈ s.chan.received
    · have hcur : s.pc.job? ≠ some j := by
        intro hcur
        rw [(hlife.current hcur).1] at hdropped
        cases hdropped
      rcases hlife.settled hrec hcur with ⟨-, r, hp, -⟩ | ⟨hun, -, -⟩
      · rw [hdropped] at hp
        cases hp
      · exact Or.inr ⟨hrec, hcur, hun.responses⟩
    · refine Or.inl (Fifo.mem_lost_of_sent hsent hrec (fun hbuf => ?_))
      rw [hlife.queued hbuf] at hdropped
      cases hdropped
  · rintro (hlost | ⟨hrec, hcur, hnone⟩)
    · exact lostDropped_reachable h j hlost
    · rcases hlife.settled hrec hcur with ⟨hone, -⟩ | ⟨-, hp, -⟩
      · omega
      · exact hp

lemma final_step {s t : State J K V} {l : Label J K V} {j : J} (hlife : Life s j)
    (hs : Step cfg s l t) (hfinal : (s.jobs j).response ≠ .pending) :
    (t.jobs j).response = (s.jobs j).response := by
  obtain rfl | hf | hl := step_about hs j
  · cases hs with
    | threadFinish =>
      dsimp only [State.dropQueued]
      split
      · next hbuf => exact absurd (hlife.queued hbuf) hfinal
      · rfl
  · rw [hf.job]
  cases hs with
  | discard hpc | respond hpc =>
    cases hl
    exact absurd (hlife.current (by rw [hpc]; rfl)).1 hfinal
  | refuseClosed hsub | refuseFull hsub | abandon _ hsub =>
    cases hl
    exact absurd (hlife.unsent (Or.inr hsub)).1 hfinal
  | deadline | cancel | dropAsyncTask | attachStore | detach | submit | enqueue | observe
  | dropSyncTask | detachTask | fireInterrupt =>
    cases hl
    simp [State.beginFire]
  | threadFinish => cases hl
  | _ => rfl

lemma final_run {s t : State J K V} (h : (isle cfg).Reachable s) (ht : (isle cfg).Run s t) {j : J}
    (hfinal : (s.jobs j).response ≠ .pending) : (t.jobs j).response = (s.jobs j).response := by
  refine TransitionSystem.RunVia.invariant_of (J := fun s => Life s j)
    (I := fun u => (u.jobs j).response = (s.jobs j).response)
    (fun s h => life_reachable h j) ?_ h ht rfl
  intro u l v hlife hu _ hst
  rw [final_step hlife hst (hu ▸ hfinal), hu]

/-- Polling the task of `j` gives what waiting for it gives: nothing as long as waiting would
block, and otherwise the same result, for as long as it is not taken. -/
structure PollAgrees (cfg : Config J V) (s : State J K V) (j : J) : Prop where
  now : (s.jobs j).response.tryRecv = (s.jobs j).response.wait
  later : ∀ r, (s.jobs j).response.wait = some r → ∀ t, (isle cfg).Run s t →
    (t.jobs j).observed = none → (t.jobs j).response.tryRecv = some r

lemma pollAgrees_iff {s : State J K V} (h : (isle cfg).Reachable s) {j : J} :
    PollAgrees cfg s j ↔ (s.jobs j).response ≠ .dropped := by
  refine ⟨fun hp => Response.tryRecv_eq_wait.mp hp.now, fun hkept => ?_⟩
  have hnow := Response.tryRecv_eq_wait.mpr hkept
  refine ⟨hnow, fun r hr t ht _ => ?_⟩
  have hfinal : (s.jobs j).response ≠ .pending := by
    intro hpending
    rw [Response.wait_eq_none.mpr hpending] at hr
    cases hr
  rw [final_run h ht hfinal, hnow, hr]

/-- Polling agrees with waiting if and only if the job was not dropped without an answer. The task
of a job that was dropped is polled in vain for ever, although waiting for it returns `Closed`. -/
theorem polling_agrees {s : State J K V} (h : (isle cfg).Reachable s) {j : J}
    (hsub : (s.jobs j).submission = .accepted) :
    (PollAgrees cfg s j ↔ ¬ Forsaken s j) ∧
      (Forsaken s j → (s.jobs j).response.wait = some (.error .closed) ∧
        ∀ t, (isle cfg).Run s t → (t.jobs j).response.tryRecv = none) := by
  refine ⟨?_, fun hf => ?_⟩
  · rw [pollAgrees_iff h, ← dropped_iff_forsaken h hsub]
  · have hdropped := (dropped_iff_forsaken h hsub).mpr hf
    refine ⟨by rw [hdropped]; rfl, fun t ht => ?_⟩
    rw [final_run h ht (by simp [hdropped]), hdropped]
    rfl

/-- The job ahead of the `Shutdown` is answered, and its task polled with success. -/
theorem polling_agrees_answered : ∃ s : State Bool Unit ℕ,
    (s.jobs true).response = .answered (.ok 7) ∧ PollAgrees twoJobs s true := by
  have h0 := TransitionSystem.Reachable.refl (T := isle (K := Unit) twoJobs)
  have h1 := h0.tail (.submit (j := true) rfl (by decide) rfl)
  have h2 := h1.tail (.enqueue (j := true) rfl rfl)
  have h3 := h2.tail (.recvJob (j := true) rfl rfl)
  have h4 := h3.tail (.loadAbort (j := true) rfl)
  have h5 := h4.tail (.queuedCheck (j := true) rfl)
  have h6 := h5.tail (.attachStore (j := true) rfl)
  have h7 := h6.tail (.attachCheckNone (j := true) rfl rfl)
  have h8 := h7.tail (.closureRet (j := true) rfl)
  have h9 := h8.tail (.detach (j := true) rfl)
  have h10 := h9.tail (.respond (j := true) rfl)
  refine ⟨_, rfl, (polling_agrees h10 rfl).1.mpr ?_⟩
  rintro (hlost | ⟨-, -, hnone⟩)
  · exact List.not_mem_nil hlost
  · cases hnone

/-- The job behind the `Shutdown` is dropped with the receiver: waiting for it returns, polling it
does not. -/
theorem polling_disagrees : ¬ ∀ (s : State Bool Unit ℕ) (j : Bool), (isle twoJobs).Reachable s →
    (s.jobs j).submission = .accepted → PollAgrees twoJobs s j := by
  intro h
  obtain ⟨s, hs, hpc, -, hsent⟩ := twoJobs_stopped
  have hsub : (s.jobs false).submission = .accepted := by
    rw [← (link_reachable hs).accepted, hsent]
    decide
  have hrec : jobsOf s.chan.received = jobsAhead s.chan.sent :=
    (mailbox_inv hs).drained (Or.inl (by rw [State.mailbox, hpc]; rfl))
  refine (pollAgrees_iff hs).mp (h s false hs hsub) (dropped_of_finished hs ?_ ?_ ?_)
  · rw [hpc]
    rfl
  · rw [hsent]
    decide
  · rw [← mem_jobsOf, hrec, hsent]
    decide

end RusqliteIsle
