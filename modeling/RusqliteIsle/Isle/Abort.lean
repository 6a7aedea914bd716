import RusqliteIsle.Isle.Drain

/-!
# Immediate shutdown

`shutdown_now` stores the abort flag and interrupts the connection once. From the store on,
only the job that the loop has let past its abort check can still run. Every other job is
discarded, and the error of a statement that the interrupt aborts becomes `Closed`.
-/

namespace RusqliteIsle

set_option linter.unusedSectionVars false

variable {J K V : Type} [DecidableEq J] [DecidableEq K] {cfg : Config J V}

lemma abort_step {s t : State J K V} {l : Label J K V} (hs : Step cfg s l t)
    (h : s.abort = true) : t.abort = true := by
  cases hs with
  | driverStore => rfl
  | _ => exact h

lemma Pc.job?_of_letPast? {pc : Pc J V} {j : J} (h : pc.letPast? = some j) :
    pc.job? = some j := by
  cases pc <;> first | exact h | cases h

lemma not_letPast_step {s t : State J K V} {l : Label J K V} {j : J} (habort : s.abort = true)
    (hi : s.pc.letPast? ≠ some j) (hs : Step cfg s l t) :
    t.pc.letPast? ≠ some j ∧ (t.history j).invoked = (s.history j).invoked ∧
      (t.history j).checks = (s.history j).checks := by
  have hhistory := history_step hs j
  refine ⟨?_, hhistory.invoked.resolve_right ?_, hhistory.checks.resolve_right ?_⟩
  rotate_left
  · rintro (hpc | hpc) <;> exact hi (by rw [hpc]; rfl)
  · exact fun hpc => hi (by rw [hpc]; rfl)
  obtain rfl | hf | hl := step_about hs j
  · cases hs with
    | threadFinish => simp [Pc.letPast?]
  · intro h
    refine hi ?_
    rwa [← hf.pc (hf.current (Pc.job?_of_letPast? h))]
  cases hs with
  | recvJob | discard => simp [Pc.letPast?]
  | loadAbort => simp [habort, Pc.letPast?]
  | queuedCheck hpc | attachStore hpc | attachCheckNone hpc | attachCheckFired hpc
  | attachInterrupt hpc | stmtStart hpc | stmtComplete hpc | stmtFail hpc | stmtAbort hpc
  | closureRet hpc | closurePanic hpc | detach hpc | normalizeToken hpc | normalizeAbort hpc
  | respond hpc =>
    cases hl
    exact absurd (by rw [hpc]; rfl) hi
  | submit | enqueue | refuseClosed | refuseFull | abandon | observe | dropSyncTask
  | detachTask | deadline | cancel | dropAsyncTask | fireInterrupt => exact hi
  | _ => cases hl

/-- The driver's mark and the statements it has aborted come after the store of the flag, and a
job with such a statement does not read the flag as unset. -/
structure AbortFirst (s : State J K V) : Prop where
  early : s.driver = .owned ∨ s.driver = .storing → s.abort = false
  storing : s.driver = .interrupting → s.abort = true
  mark : Source.driver ∈ s.conn.mark → s.abort = true
  cut : ∀ j, (Victim.job j, Source.driver) ∈ s.cuts →
    s.abort = true ∧ (s.history j).abortRead ≠ some false

lemma AbortFirst.keep {s t : State J K V} (hi : AbortFirst s) (habort : t.abort = s.abort)
    (hdriver : t.driver = .interrupting → s.driver = .interrupting)
    (hearly : t.driver = .owned ∨ t.driver = .storing → s.driver = .owned ∨ s.driver = .storing)
    (hmark : Source.driver ∈ t.conn.mark → Source.driver ∈ s.conn.mark)
    (hcuts : ∀ j, (Victim.job j, Source.driver) ∈ t.cuts → (Victim.job j, Source.driver) ∈ s.cuts)
    (hread : ∀ j, (t.history j).abortRead = (s.history j).abortRead) : AbortFirst t := by
  refine ⟨?_, ?_, ?_, ?_⟩
  · rw [habort]
    exact fun h => hi.early (hearly h)
  · rw [habort]
    exact fun h => hi.storing (hdriver h)
  · rw [habort]
    exact fun h => hi.mark (hmark h)
  · intro j hj
    rw [habort, hread]
    exact hi.cut j (hcuts j hj)

lemma abortFirst_step {s t : State J K V} {l : Label J K V} (hlife : ∀ j, Life s j)
    (hi : AbortFirst s) (hs : Step cfg s l t) : AbortFirst t := by
  cases hs with
  | driverStore =>
    exact ⟨by simp, fun _ => rfl, fun _ => rfl, fun j hj => ⟨rfl, (hi.cut j hj).2⟩⟩
  | driverInterrupt hdriver =>
    have habort := hi.storing hdriver
    exact ⟨by simp, fun _ => habort, fun _ => habort, hi.cut⟩
  | @stmtAbort i k hpc hmark =>
    refine ⟨hi.early, hi.storing, hi.mark, fun j hj => ?_⟩
    rcases List.mem_append.mp hj with hj | hj
    · obtain ⟨source, hsource, heq⟩ := List.mem_map.mp hj
      cases heq
      have hran : (s.history i).Ran none _ := ((hlife i).at_pc hpc rfl).2
      exact ⟨hi.mark hsource, by simp [hran.abortRead]⟩
    · exact hi.cut j hj
  | healthFail =>
    refine hi.keep rfl id id id (fun j hj => ?_) (fun _ => rfl)
    rcases List.mem_append.mp hj with hj | hj
    · obtain ⟨source, -, heq⟩ := List.mem_map.mp hj
      cases heq
    · exact hj
  | @normalizeAbort i e hpc =>
    refine ⟨hi.early, hi.storing, hi.mark, fun j hj => ?_⟩
    obtain ⟨habort, hread⟩ := hi.cut j hj
    refine ⟨habort, ?_⟩
    by_cases hij : j = i
    · subst hij
      simp [habort]
    · simpa [hij] using hread
  | stmtStart =>
    exact hi.keep rfl id id (fun h => (Engine.mem_mark_of_start h).1) (fun _ => id)
      (update_field History.abortRead _ (by rfl))
  | healthStart =>
    exact hi.keep rfl id id (fun h => (Engine.mem_mark_of_start h).1) (fun _ => id) (fun _ => rfl)
  | attachInterrupt | fireInterrupt =>
    refine hi.keep rfl id id (fun h => ?_) (fun _ => id) (update_field History.abortRead _ (by rfl))
    rcases CancelToken.mem_mark_interruptVia h with hm | ⟨hx, -⟩
    · exact hm
    · cases hx
  | attachCheckNone | queuedCheck | stmtComplete | closureRet | closurePanic | normalizeToken
  | respond | deadline | cancel | dropAsyncTask =>
    exact hi.keep rfl id id id (fun _ => id) (update_field History.abortRead _ (by rfl))
  | driverShutdownNow hdriver =>
    exact hi.keep rfl (by simp) (fun _ => Or.inl hdriver) id (fun _ => id) (fun _ => rfl)
  | driverShutdown | driverSend | driverSendClosed | driverDone | driverJoin | driverDrop =>
    exact hi.keep rfl (by simp) (by simp) id (fun _ => id) (fun _ => rfl)
  | _ => exact hi.keep rfl id id id (fun _ => id) (fun _ => rfl)

theorem abortFirst_reachable {s : State J K V} (h : (isle cfg).Reachable s) : AbortFirst s := by
  refine TransitionSystem.ReachableVia.invariant_of (J := fun s => ∀ j, Life s j)
    (I := AbortFirst) (fun s hs j => life_reachable hs j) ?_ ?_ h
  · refine ⟨fun _ => rfl, fun h => ?_, by simp [isle, State.init], by simp [isle, State.init]⟩
    dsimp only [isle, State.init] at h
    split at h <;> cases h
  · exact fun s l t hJ hi _ hs => abortFirst_step hJ hi hs

lemma driver_returned {s : State J K V} (h : (isle cfg).Reachable s)
    (hdriver : s.driver = .returned) : s.pc.isFinished = true := by
  refine TransitionSystem.Reachable.invariant
    (I := fun s => s.driver = .returned → s.pc.isFinished = true) ?_ ?_ h hdriver
  · intro h
    dsimp only [isle, State.init] at h
    split at h <;> cases h
  · intro s l t hi hs ht
    have hkeep := finished_step hs
    cases hs with
    | driverJoin _ hfin => exact hfin
    | driverShutdown | driverShutdownNow | driverStore | driverInterrupt | driverSend
    | driverSendClosed | driverDone | driverDrop => cases ht
    | _ => exact hkeep (hi ht)

/-- The job `j` was not let past the abort check before the flag was stored. -/
structure Discarded (invoked checks : ℕ) (s : State J K V) (j : J) : Prop where
  abort : s.abort = true
  outside : s.pc.letPast? ≠ some j
  invoked : (s.history j).invoked = invoked
  checks : (s.history j).checks = checks

lemma discarded_step {invoked checks : ℕ} {s t : State J K V} {l : Label J K V} {j : J}
    (hi : Discarded invoked checks s j) (hs : Step cfg s l t) : Discarded invoked checks t j := by
  obtain ⟨hout, hinv, hchk⟩ := not_letPast_step hi.abort hi.outside hs
  exact ⟨abort_step hs hi.abort, hout, hinv.trans hi.invoked, hchk.trans hi.checks⟩

lemma discarded_run {s t : State J K V} {j : J} (habort : s.abort = true)
    (hout : s.pc.letPast? ≠ some j) (ht : (isle cfg).Run s t) :
    Discarded (s.history j).invoked (s.history j).checks t j :=
  TransitionSystem.Run.invariant
    (I := fun t => Discarded (s.history j).invoked (s.history j).checks t j)
    (fun _ _ _ hi hs => discarded_step hi hs) ht ⟨habort, hout, rfl, rfl⟩

lemma discarded_response {s t : State J K V} {j : J} (habort : s.abort = true)
    (hout : s.pc.letPast? ≠ some j) (hpending : (s.jobs j).response = .pending)
    (ht : (isle cfg).Run s t) :
    (t.jobs j).response = .pending ∨ (t.jobs j).response = .dropped := by
  have hend : Discarded (s.history j).invoked (s.history j).checks t j ∧
      ((t.jobs j).response = .pending ∨ (t.jobs j).response = .dropped) := by
    refine TransitionSystem.Run.invariant
      (I := fun t => Discarded (s.history j).invoked (s.history j).checks t j ∧
        ((t.jobs j).response = .pending ∨ (t.jobs j).response = .dropped)) ?_ ht
      ⟨⟨habort, hout, rfl, rfl⟩, Or.inl hpending⟩
    intro u l v hi hs
    refine ⟨discarded_step hi.1 hs, ?_⟩
    rcases response_step hs j with h | h | ⟨r, outcome, hpc, -⟩
    · rw [h]
      exact hi.2
    · exact Or.inr h
    · exact absurd (by rw [hpc]; rfl) hi.1.outside
  exact hend.2

lemma cut_response {s : State J K V} (h : (isle cfg).Reachable s) {j : J} {e : RusqliteError}
    {r : Except IsleError V} (hcut : (Victim.job j, Source.driver) ∈ s.cuts)
    (hended : (s.history j).ended = some (.returned (.error e)))
    (he : IsleError.isInterrupt e = true) (hr : (s.jobs j).response = .answered r) :
    r = .error .closed ∨ ∃ err, (s.jobs j).token.fired = some err ∧ r = .error err := by
  have hlife := life_reachable h j
  have hread := ((abortFirst_reachable h).cut j hcut).2
  have hanswer := hlife.answers hr
  have htoken {reason : FireReason} (hhead : (s.history j).fires.head? = some reason) :
      (s.jobs j).token.fired = some reason.error :=
    CancelToken.fired_eq_some.mpr ⟨reason, hlife.fires ▸ hhead, rfl⟩
  have hexp := hanswer.explains
  cases r with
  | ok v =>
    rw [hexp.2] at hended
    cases hended
  | error err =>
    cases err with
    | sqlite e' =>
      obtain ⟨-, hret, hint⟩ := hexp
      rw [hret] at hended
      cases hended
      exact absurd (hint he).2 hread
    | panicked message =>
      obtain ⟨-, payload, hpan, -⟩ := hexp
      rw [hpan] at hended
      cases hended
    | cancelled => exact Or.inr ⟨_, htoken hexp.1, rfl⟩
    | timeout => exact Or.inr ⟨_, htoken hexp.1, rfl⟩
    | closed => exact Or.inl rfl
    | queueFull =>
      obtain ⟨reason, hhead, heq⟩ := hanswer.skipped hexp
      exact Or.inr ⟨_, htoken hhead, heq⟩

/-- After the abort flag is stored, only the job already let past the abort check can run; every
other job is discarded unchecked, and its caller sees `Closed`. An aborted statement is reported
as `Closed` or as the token's error. Once the driver has returned, the thread has ended and
every later submission fails with `Closed`. -/
theorem shutdown_now_discards {s t : State J K V} (hs : (isle cfg).Reachable s)
    (ht : (isle cfg).Run s t) :
    (s.abort = true → ∀ j, s.pc.letPast? ≠ some j →
      (t.pc.letPast? ≠ some j ∧ (t.history j).invoked = (s.history j).invoked ∧
        (t.history j).checks = (s.history j).checks) ∧
      ((s.jobs j).response = .pending →
        (∀ r, (t.jobs j).response.wait = some r → r = .error .closed) ∧
        (t.pc.isFinished = true → (t.jobs j).submission = .accepted →
          (t.jobs j).response.wait = some (.error .closed)))) ∧
    (∀ j e r, (Victim.job j, Source.driver) ∈ t.cuts →
      (t.history j).ended = some (.returned (.error e)) → IsleError.isInterrupt e = true →
      (t.jobs j).response = .answered r →
      r = .error .closed ∨ ∃ err, (t.jobs j).token.fired = some err ∧ r = .error err) ∧
    (s.driver = .returned → s.pc.isFinished = true ∧
      ∀ j, (s.jobs j).submission = .unborn → OnlyClosed (t.jobs j)) := by
  have hreach := hs.run ht
  refine ⟨fun habort j hout => ⟨?_, fun hpending => ⟨?_, ?_⟩⟩, ?_, fun hdriver => ?_⟩
  · have hd := discarded_run habort hout ht
    exact ⟨hd.outside, hd.invoked, hd.checks⟩
  · intro r hr
    rcases discarded_response habort hout hpending ht with h | h
    · rw [h] at hr
      cases hr
    · rw [h] at hr
      cases hr
      rfl
  · intro hfin hsub
    have hfinal := final_of_finished hreach hfin (((link_reachable hreach).accepted j).mpr hsub)
    rcases discarded_response habort hout hpending ht with h | h
    · exact absurd (by rw [h]; rfl) hfinal
    · rw [h]
      rfl
  · exact fun j e r hcut hended he hr => cut_response hreach hcut hended he hr
  · have hfin := driver_returned hs hdriver
    exact ⟨hfin, fun j hj => onlyClosed_of_finished hs hfin ht hj⟩

/-- An asynchronous isle with a job in flight that runs a statement, and a queued job. -/
def flightAndQueue : Config Bool ℕ where
  front := .async
  cap := 2
  api := fun _ => .spawnCall
  prog := fun _ => Closure.ofStmts List.length [] ["SELECT 1"]

/-- `shutdown_now` aborts the statement of the first job and discards the second one. -/
theorem shutdown_now_discards_queued : ∃ t : State Bool Unit ℕ,
    (isle flightAndQueue).Reachable t ∧ t.driver = .awaiting ∧
      (t.jobs true).response = .answered (.error .closed) ∧ (t.history false).invoked = 0 ∧
      (t.jobs false).response.wait = some (.error .closed) := by
  have h0 := TransitionSystem.Reachable.refl (T := isle (K := Unit) flightAndQueue)
  have h1 := h0.tail (.submit (j := true) rfl (by decide) rfl)
  have h2 := h1.tail (.enqueue (j := true) rfl rfl)
  have h3 := h2.tail (.recvJob (j := true) rfl rfl)
  have h4 := h3.tail (.loadAbort (j := true) rfl)
  have h5 := h4.tail (.queuedCheck (j := true) rfl)
  have h6 := h5.tail (.submit (j := false) rfl (by decide) rfl)
  have h7 := h6.tail (.enqueue (j := false) rfl rfl)
  have h8 := h7.tail (.attachStore (j := true) rfl)
  have h9 := h8.tail (.attachCheckNone (j := true) rfl rfl)
  have h10 := h9.tail (.stmtStart (j := true) rfl)
  have h11 := h10.tail (.driverShutdownNow rfl)
  have h12 := h11.tail (.driverStore rfl)
  have r0 : (isle flightAndQueue).Run _ _ := h12.here
  have r1 := r0.tail (.driverInterrupt rfl)
  have r2 := r1.tail (.stmtAbort (j := true) rfl rfl)
  have r3 := r2.tail (.closureRet (j := true) rfl)
  have r4 := r3.tail (.detach (j := true) rfl)
  have r5 := r4.tail (.normalizeToken (j := true) rfl)
  have r6 := r5.tail (.normalizeAbort (j := true) rfl)
  have r7 := r6.tail (.respond (j := true) rfl)
  have r8 := r7.tail (.recvJob (j := false) rfl rfl)
  have r9 := r8.tail (.loadAbort (j := false) rfl)
  have r10 := r9.tail (.discard (j := false) rfl)
  have r11 := r10.tail (.driverSend rfl rfl)
  have r12 := r11.tail (.recvShutdown rfl rfl)
  have r13 := r12.tail (.signalDone rfl rfl)
  have r14 := r13.tail (.threadFinish (.inr rfl))
  obtain ⟨hdiscards, -, -⟩ := shutdown_now_discards h12 r14
  obtain ⟨⟨-, hinvoked, -⟩, hqueued⟩ := hdiscards rfl false (by decide)
  exact ⟨_, h12.run r14, rfl, rfl, hinvoked, (hqueued rfl).2 rfl rfl⟩

end RusqliteIsle
