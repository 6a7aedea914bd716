import RusqliteIsle.Isle.Life

/-!
# Stopping an isle

A graceful stop serves the jobs ahead of the first `Shutdown` and drops the others with the
receiver. Once the thread has ended, every accepted job has its final outcome and nothing
is accepted any more. A call of `shutdown` that finds the join handle taken returns at once;
the thread has ended for it only if it had ended before.
-/

namespace RusqliteIsle

set_option linter.unusedSectionVars false

variable {J K V : Type} [DecidableEq J] [DecidableEq K] {cfg : Config J V}

/-- A message that was dropped with the receiver has disconnected its response channel. -/
def LostDropped (s : State J K V) (j : J) : Prop :=
  Request.job j ∈ s.chan.lost → (s.jobs j).response = .dropped

lemma lostDropped_step {s t : State J K V} {l : Label J K V} {j : J} (hmail : s.mailbox.Inv)
    (hi : LostDropped s j) (hs : Step cfg s l t) : LostDropped t j := by
  intro hlost
  by_cases hfin : l = .threadFinish
  · subst hfin
    cases hs with
    | threadFinish =>
      dsimp only [State.dropQueued]
      split
      · rfl
      · rename_i hbuf
        rcases List.mem_append.mp hlost with h | h
        · exact absurd h hbuf
        · exact hi h
  rw [lost_step hs hfin] at hlost
  rcases response_step hs j with h | h | ⟨r, outcome, hpc, -⟩
  · rw [h, hi hlost]
  · exact h
  · have hrec : Request.job j ∈ s.chan.received := hmail.current j (by simp [State.mailbox, hpc, Pc.job?])
    exact absurd hrec (hmail.not_received (List.mem_append_right _ hlost))

theorem lostDropped_reachable {s : State J K V} (h : (isle cfg).Reachable s) (j : J) :
    LostDropped s j := by
  refine TransitionSystem.ReachableVia.invariant_of (J := fun s => s.mailbox.Inv)
    (I := fun s => LostDropped s j) (fun s => mailbox_inv) ?_ ?_ h
  · simp [LostDropped, isle, State.init]
  · exact fun s l t hm hi _ hs => lostDropped_step hm hi hs

lemma outcome_of_exit {s : State J K V} (h : (isle cfg).Reachable s) {j : J} {why : Exit}
    (hexit : s.pc.exit? = some why) (hrec : Request.job j ∈ s.chan.received) :
    Settled (s.history j) (s.jobs j).response s.abort := by
  have hfree : s.pc.job? = none := (mailbox_inv h).free (by simp [State.mailbox, hexit])
  exact (life_reachable h j).settled hrec (by simp [hfree])

lemma Pc.exit?_of_isFinished {pc : Pc J V} (h : pc.isFinished = true) :
    ∃ why, pc.exit? = some why := by
  cases pc with
  | finished why => exact ⟨why, rfl⟩
  | _ => cases h

lemma dropped_of_finished {s : State J K V} (h : (isle cfg).Reachable s) {j : J}
    (hfin : s.pc.isFinished = true) (hsent : Request.job j ∈ s.chan.sent)
    (hrec : Request.job j ∉ s.chan.received) : (s.jobs j).response = .dropped := by
  have halive : s.chan.alive = false := by simpa [hfin] using (link_reachable h).alive
  refine lostDropped_reachable h j (Fifo.mem_lost_of_sent hsent hrec ?_)
  rw [s.chan.buffer_nil halive]
  exact List.not_mem_nil

/-- A graceful stop takes the jobs ahead of the first `Shutdown` in the order in which they were
enqueued and answers each of them once; once the receiver is gone, the other jobs have not been
run and their callers get `Closed`. -/
theorem graceful_stop_drains {s : State J K V} (h : (isle cfg).Reachable s)
    (hexit : s.pc.exit? = some .shutdown ∨ s.pc.exit? = some .disconnected)
    (habort : s.abort = false) :
    jobsOf s.chan.received = jobsAhead s.chan.sent ∧ (jobsOf s.chan.received).Nodup ∧
      (∀ j ∈ jobsAhead s.chan.sent, (s.history j).responses = 1 ∧
        ∃ r, (s.jobs j).response = .answered r) ∧
      (s.pc.isFinished = true → ∀ j, Request.job j ∈ s.chan.sent → j ∉ jobsAhead s.chan.sent →
        (s.history j).invoked = 0 ∧ (s.jobs j).response.wait = some (.error .closed)) := by
  have hmail := mailbox_inv h
  have hdrained : jobsOf s.chan.received = jobsAhead s.chan.sent := hmail.drained hexit
  refine ⟨hdrained, ?_, ?_, ?_⟩
  · have hn := hmail.nodup
    simp only [State.mailbox] at hn
    rw [s.chan.history, List.append_assoc, jobsOf_append] at hn
    exact hn.of_append_left
  · intro j hj
    rw [← hdrained, mem_jobsOf] at hj
    obtain ⟨why, hwhy⟩ : ∃ why, s.pc.exit? = some why := hexit.elim (⟨_, ·⟩) (⟨_, ·⟩)
    rcases outcome_of_exit h hwhy hj with ⟨hr, r, hp, -⟩ | ⟨-, -, hab⟩
    · exact ⟨hr, r, hp⟩
    · rw [habort] at hab
      cases hab
  · intro hfin j hsent hj
    rw [← hdrained, mem_jobsOf] at hj
    refine ⟨((life_reachable h j).waiting hj).1.invoked, ?_⟩
    rw [dropped_of_finished h hfin hsent hj]
    rfl

/-- A synchronous isle with capacity for two requests, whose jobs return at once. -/
def twoJobs : Config Bool ℕ where
  front := .sync
  cap := 2
  api := fun _ => .spawnCall
  prog := fun _ => .ret (.ok 7)

lemma twoJobs_stopped : ∃ s : State Bool Unit ℕ, (isle twoJobs).Reachable s ∧
    s.pc = .finished .shutdown ∧ s.abort = false ∧
    s.chan.sent = [.job true, .shutdown, .job false] := by
  have h0 := TransitionSystem.Reachable.refl (T := isle (K := Unit) twoJobs)
  have h1 := h0.tail (.submit (j := true) rfl (by decide) rfl)
  have h2 := h1.tail (.enqueue (j := true) rfl rfl)
  have h3 := h2.tail (.recvJob (j := true) rfl rfl)
  have h4 := h3.tail (.shutCall (k := ()) rfl rfl (by decide) rfl)
  have h5 := h4.tail (.shutSend (k := ()) rfl rfl)
  have h6 := h5.tail (.submit (j := false) rfl (by decide) rfl)
  have h7 := h6.tail (.enqueue (j := false) rfl rfl)
  have h8 := h7.tail (.loadAbort (j := true) rfl)
  have h9 := h8.tail (.queuedCheck (j := true) rfl)
  have h10 := h9.tail (.attachStore (j := true) rfl)
  have h11 := h10.tail (.attachCheckNone (j := true) rfl rfl)
  have h12 := h11.tail (.closureRet (j := true) rfl)
  have h13 := h12.tail (.detach (j := true) rfl)
  have h14 := h13.tail (.respond (j := true) rfl)
  have h15 := h14.tail (.recvShutdown rfl rfl)
  have h16 := h15.tail (.threadFinish (.inl ⟨rfl, rfl⟩))
  exact ⟨_, h16, rfl, rfl, rfl⟩

theorem graceful_stop_drains_behind : ∃ s : State Bool Unit ℕ,
    jobsOf s.chan.received = [true] ∧ (s.history true).responses = 1 ∧
      (s.history false).invoked = 0 ∧ (s.jobs false).response.wait = some (.error .closed) := by
  obtain ⟨s, hs, hpc, habort, hsent⟩ := twoJobs_stopped
  obtain ⟨hdrained, -, hanswered, hlost⟩ :=
    graceful_stop_drains hs (.inl (by rw [hpc]; rfl)) habort
  have hahead : jobsAhead s.chan.sent = [true] := by rw [hsent]; rfl
  rw [hahead] at hdrained hanswered hlost
  obtain ⟨hinvoked, hwait⟩ := hlost (by rw [hpc]; rfl) false (by rw [hsent]; decide) (by decide)
  exact ⟨s, hdrained, (hanswered true (by decide)).1, hinvoked, hwait⟩

/-! ## Calls of `shutdown` -/

lemma final_of_finished {s : State J K V} (h : (isle cfg).Reachable s) {j : J}
    (hfin : s.pc.isFinished = true) (hsent : Request.job j ∈ s.chan.sent) :
    (s.jobs j).response.wait ≠ none := by
  by_cases hrec : Request.job j ∈ s.chan.received
  · obtain ⟨why, hwhy⟩ := Pc.exit?_of_isFinished hfin
    rcases outcome_of_exit h hwhy hrec with ⟨-, r, hp, -⟩ | ⟨-, hp, -⟩
    · simp [hp, Response.wait]
    · simp [hp, Response.wait]
  · simp [dropped_of_finished h hfin hsent hrec, Response.wait]

/-- A submission that was not accepted, and can only have been refused with `Closed`. -/
def OnlyClosed (job : Job V) : Prop :=
  job.submission ≠ .accepted ∧ ∀ e, job.submission = .refused e → e = .closed

lemma onlyClosed_step {s t : State J K V} {l : Label J K V} {j : J} (hlink : Link s)
    (hfin : s.pc.isFinished = true) (hi : OnlyClosed (s.jobs j)) (hs : Step cfg s l t) :
    OnlyClosed (t.jobs j) := by
  have hdead : s.chan.alive = false := by simpa [hfin] using hlink.alive
  obtain rfl | hf | hl := step_about hs j
  · cases hs with
    | threadFinish => simpa [OnlyClosed] using hi
  · rw [hf.job]
    exact hi
  cases hs with
  | enqueue _ hpush =>
    rw [(Fifo.push?_some hpush).was_alive] at hdead
    cases hdead
  | refuseFull _ _ halive =>
    rw [halive] at hdead
    cases hdead
  | refuseClosed | abandon | submit =>
    cases hl
    simp [OnlyClosed, State.refuse]
  | attachStore | detach | discard | respond | observe | dropSyncTask | detachTask
  | fireInterrupt =>
    cases hl
    simpa [OnlyClosed] using hi
  | deadline | cancel | dropAsyncTask =>
    cases hl
    simpa [OnlyClosed, State.beginFire] using hi
  | threadFinish => cases hl
  | _ => exact hi

lemma onlyClosed_of_finished {s t : State J K V} (h : (isle cfg).Reachable s)
    (hfin : s.pc.isFinished = true) (ht : (isle cfg).Run s t) {j : J}
    (hunborn : (s.jobs j).submission = .unborn) : OnlyClosed (t.jobs j) := by
  have hend : t.pc.isFinished = true ∧ OnlyClosed (t.jobs j) := by
    refine TransitionSystem.RunVia.invariant_of (J := Link)
      (I := fun s => s.pc.isFinished = true ∧ OnlyClosed (s.jobs j)) (fun s => link_reachable)
      ?_ h ht ⟨hfin, by simp [OnlyClosed, hunborn]⟩
    exact fun s l t hlink hi _ hs =>
      ⟨finished_step hs hi.1, onlyClosed_step hlink hi.1 hi.2 hs⟩
  exact hend.2

/-- Whenever a call of `shutdown` has returned on a run whose steps meet `P`, the thread has
ended, the jobs enqueued before the call's `Shutdown` have their outcome, and every later
submission fails with `Closed`. -/
def ShutdownStops (cfg : Config J V) (P : State J K V → Label J K V → Prop) : Prop :=
  ∀ s k, (isle cfg).ReachableVia P s → s.calls k = .returned →
    s.pc.isFinished = true ∧
    (∀ n j, s.sentAt k = some n → Request.job j ∈ s.chan.sent.take n →
      (s.jobs j).response.wait ≠ none) ∧
    ∀ t, (isle cfg).Run s t → ∀ j, (s.jobs j).submission = .unborn → OnlyClosed (t.jobs j)

/-- A call of `shutdown` that locks the slot of the join handle finds the handle, or a thread
that has ended. -/
def FindsHandle (s : State J K V) : Label J K V → Prop
  | .shutLock _ => s.join = true ∨ s.pc.isFinished = true
  | _ => True

lemma returned_step {s t : State J K V} {l : Label J K V}
    (hi : ∀ k, s.calls k = .returned → s.pc.isFinished = true) (hP : FindsHandle s l)
    (hs : Step cfg s l t) (k : K) (hk : t.calls k = .returned) : t.pc.isFinished = true := by
  have hkeep := finished_step hs
  cases hs with
  | shutSkip _ hjoin =>
    rcases hP with h | h
    · rw [hjoin] at h
      cases h
    · exact h
  | shutJoin _ hfin => exact hfin
  | @shutCall k' | @shutSend k' | @shutSendClosed k' | @shutTake k' =>
    refine hi k ?_
    by_cases hkk : k = k'
    · subst hkk
      simp at hk
    · simpa [hkk] using hk
  | _ => exact hkeep (hi k hk)

/-- `shutdown` means stopped for every caller that joins the thread, or comes after its end. -/
theorem shutdown_stops : ShutdownStops (K := K) cfg FindsHandle := by
  intro s k hs hk
  have hfin : s.pc.isFinished = true := by
    refine TransitionSystem.ReachableVia.invariant
      (I := fun s => ∀ k, s.calls k = .returned → s.pc.isFinished = true) ?_
      (fun s l t hi hP hst => returned_step hi hP hst) hs k hk
    intro k hk
    cases hk
  refine ⟨hfin, fun n j _ hj => ?_, fun t ht j hj => ?_⟩
  · exact final_of_finished hs.reachable hfin (List.mem_of_mem_take hj)
  · exact onlyClosed_of_finished hs.reachable hfin ht hj

/-- A job is served while a caller joins the thread. A second caller comes after its end, and a
submission after that. -/
theorem shutdown_stops_joined : ∃ s t : State Bool Bool ℕ,
    (isle twoJobs).ReachableVia FindsHandle s ∧
      (s.calls true = .returned ∧ s.calls false = .returned) ∧ s.pc.isFinished = true ∧
      (s.jobs true).response.wait ≠ none ∧ (isle twoJobs).Run s t ∧
      (t.jobs false).submission = .refused .closed ∧ OnlyClosed (t.jobs false) := by
  have h0 : (isle (K := Bool) twoJobs).ReachableVia FindsHandle _ := TransitionSystem.RunVia.refl _
  have h1 := h0.tail (.submit (j := true) rfl (by decide) rfl) trivial
  have h2 := h1.tail (.enqueue (j := true) rfl rfl) trivial
  have h3 := h2.tail (.shutCall (k := true) rfl rfl (by decide) rfl) trivial
  have h4 := h3.tail (.shutSend (k := true) rfl rfl) trivial
  have h5 := h4.tail (.shutTake (k := true) rfl rfl) (Or.inl rfl)
  have h6 := h5.tail (.recvJob (j := true) rfl rfl) trivial
  have h7 := h6.tail (.loadAbort (j := true) rfl) trivial
  have h8 := h7.tail (.queuedCheck (j := true) rfl) trivial
  have h9 := h8.tail (.attachStore (j := true) rfl) trivial
  have h10 := h9.tail (.attachCheckNone (j := true) rfl rfl) trivial
  have h11 := h10.tail (.closureRet (j := true) rfl) trivial
  have h12 := h11.tail (.detach (j := true) rfl) trivial
  have h13 := h12.tail (.respond (j := true) rfl) trivial
  have h14 := h13.tail (.recvShutdown rfl rfl) trivial
  have h15 := h14.tail (.threadFinish (.inl ⟨rfl, rfl⟩)) trivial
  have h16 := h15.tail (.shutJoin (k := true) rfl rfl) trivial
  have h17 := h16.tail (.shutCall (k := false) rfl rfl (by decide) rfl) trivial
  have h18 := h17.tail (.shutSendClosed (k := false) rfl rfl) trivial
  have h19 := h18.tail (.shutSkip (k := false) rfl rfl) (Or.inr rfl)
  have r0 := h19.here.run
  have r1 := r0.tail (.submit (j := false) rfl (by decide) rfl)
  have r2 := r1.tail (.refuseClosed (j := false) rfl rfl)
  obtain ⟨hfin, hahead, -⟩ := shutdown_stops _ true h19 rfl
  obtain ⟨-, -, hlater⟩ := shutdown_stops _ false h19 rfl
  exact ⟨_, _, h19, ⟨rfl, rfl⟩, hfin, hahead 1 true rfl (by decide), r2, rfl, hlater _ r2 false rfl⟩

/-- Two callers shut the isle down while a job is queued. The second one finds the handle taken
and returns before the thread has served the job. -/
theorem shutdown_returns_early :
    ¬ ShutdownStops (K := Bool) twoJobs (fun _ _ => True) := by
  intro h
  have h0 := TransitionSystem.Reachable.refl (T := isle (K := Bool) twoJobs)
  have h1 := h0.tail (.submit (j := true) rfl (by decide) rfl)
  have h2 := h1.tail (.enqueue (j := true) rfl rfl)
  have h3 := h2.tail (.recvJob (j := true) rfl rfl)
  have h4 := h3.tail (.shutCall (k := true) rfl rfl (by decide) rfl)
  have h5 := h4.tail (.shutSend (k := true) rfl rfl)
  have h6 := h5.tail (.shutTake (k := true) rfl rfl)
  have h7 := h6.tail (.shutCall (k := false) rfl rfl (by decide) rfl)
  have h8 := h7.tail (.shutSend (k := false) rfl rfl)
  have h9 := h8.tail (.shutSkip (k := false) rfl rfl)
  have hfin := (h _ false h9 rfl).1
  cases hfin

end RusqliteIsle
