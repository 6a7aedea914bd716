import RusqliteIsle.Isle.Progress

/-!
# Calls return

A caller that waits for room in the channel, for the result of its job or for the end of the
thread waits in vain only if the thread, or the caller itself, is stopped in its tracks. What the
other callers do does not matter.
-/

namespace RusqliteIsle

set_option linter.unusedSectionVars false

variable {J K V : Type} [DecidableEq J] [DecidableEq K] {cfg : Config J V}

/-! ## Calls that submit a job -/

/-- The actions by which the caller of `j` submits the job and takes its result. -/
def Label.ofCaller (j : J) : Label J K V → Prop
  | enqueue i | refuseClosed i | refuseFull i | observe i => i = j
  | _ => False

/-- The caller of a job waits no longer: it has a result, or its future or its task is gone. -/
def CallerDone (job : Job V) : Prop :=
  job.observed ≠ none ∨ job.submission = .abandoned ∨ job.holder ≠ .held

lemma sending_step {s t : State J K V} {l : Label J K V} (hs : Step cfg s l t) {j : J}
    (hsub : (s.jobs j).submission = .sending) :
    (t.jobs j).submission = .sending ∨ (t.jobs j).submission = .accepted ∨
      CallerDone (t.jobs j) := by
  obtain rfl | hf | hl := step_about hs j
  · cases hs with
    | threadFinish => exact Or.inl (by simpa using hsub)
  · exact Or.inl (by rw [hf.job, hsub])
  cases hs with
  | enqueue =>
    cases hl
    exact Or.inr (Or.inl (by simp))
  | refuseClosed | refuseFull | abandon =>
    cases hl
    exact Or.inr (Or.inr (by simp [CallerDone, State.refuse]))
  | submit =>
    cases hl
    exact Or.inl (by simp)
  | attachStore | detach | discard | respond | observe | dropSyncTask | detachTask
  | fireInterrupt =>
    cases hl
    exact Or.inl (by simpa using hsub)
  | deadline | cancel | dropAsyncTask =>
    cases hl
    exact Or.inl (by simpa [State.beginFire] using hsub)
  | threadFinish => cases hl
  | _ => exact Or.inl hsub

lemma caller_acts {s t : State J K V} {l : Label J K V} (hs : Step cfg s l t) {j : J}
    (hl : l.ofCaller j) :
    (s.jobs j).submission = .sending ∧ (t.jobs j).submission = .accepted ∨
      CallerDone (t.jobs j) := by
  cases hs with
  | enqueue hsub =>
    cases hl
    exact Or.inl ⟨hsub, by simp⟩
  | refuseClosed | refuseFull | observe =>
    cases hl
    exact Or.inr (by simp [CallerDone, State.refuse])
  | _ => exact hl.elim

variable {e : (isle (K := K) cfg).Execution}

lemma sendable_recurs (hthread : e.WeaklyFair (fun l => l.onThread = true)) (r : Request J)
    (n : ℕ) : ∃ m, n ≤ m ∧ ((e.state m).chan.alive = false ∨
      ∃ ch, (e.state m).chan.push? (e.state m).pc.isReceiving r = some ch) := by
  obtain ⟨m, hm, hopen⟩ := room_recurs hthread n trivial
  refine ⟨m, hm, ?_⟩
  cases halive : (e.state m).chan.alive with
  | false => exact Or.inl rfl
  | true => exact Or.inr (Fifo.exists_push? halive (hopen.resolve_left (by simp [halive])) r)

lemma submission_ends (hthread : e.WeaklyFair (fun l => l.onThread = true)) {j : J}
    (hcaller : e.StronglyFair (fun l => l.ofCaller j)) :
    e.LeadsTo (fun s => (s.jobs j).submission = .sending)
      (fun s => (s.jobs j).submission = .accepted ∨ CallerDone (s.jobs j)) := by
  refine hcaller.leadsTo ?_ ?_ ?_
  · intro n hsub
    obtain ⟨m, hm, hdead | ⟨ch, hpush⟩⟩ := sendable_recurs hthread (.job j) n
    · exact ⟨m, hm, .refuseClosed j, _, rfl, .refuseClosed (hsub m hm).1 hdead⟩
    · exact ⟨m, hm, .enqueue j, _, rfl, .enqueue (hsub m hm).1 hpush⟩
  · exact fun s l t _ hsub _ hs => (sending_step hs hsub).symm
  · intro s l t _ _ _ hl hs
    exact (caller_acts hs hl).imp_left And.right

lemma caller_done (hthread : e.WeaklyFair (fun l => l.onThread = true)) {j : J}
    (hcaller : e.StronglyFair (fun l => l.ofCaller j)) :
    e.LeadsTo (fun s => (s.jobs j).submission = .sending) (fun s => CallerDone (s.jobs j)) := by
  refine (submission_ends hthread hcaller).trans (.or ?_ (.of_imp fun s _ h => h))
  have hfinal : e.LeadsTo (fun s => (s.jobs j).submission = .accepted)
      (fun s => (s.jobs j).submission = .accepted ∧ (s.jobs j).response.wait ≠ none) := by
    intro n hsub
    obtain ⟨m, hm, hwait⟩ := accepted_answered hthread j n hsub
    exact ⟨m, hm, e.stays (fun s l t h hs hst => accepted_step h hst hs) hm hsub, hwait⟩
  refine hfinal.trans (hcaller.leadsTo ?_ ?_ ?_)
  · intro n hn
    obtain ⟨⟨hsub, hwait⟩, hdone⟩ := hn n le_rfl
    obtain ⟨r, hr⟩ := Option.ne_none_iff_exists'.mp hwait
    simp only [CallerDone, not_or, not_not] at hdone
    exact ⟨n, le_rfl, .observe j, _, rfl, .observe hsub hdone.2.2 hdone.1 hr⟩
  · rintro s l t h ⟨hsub, hwait⟩ - hs
    refine Or.inr ⟨accepted_step h hs hsub, ?_⟩
    rwa [final_step (life_reachable h j) hs (fun hp => hwait (Response.wait_eq_none.mpr hp))]
  · rintro s l t - ⟨hsub, -⟩ - hl hs
    refine (caller_acts hs hl).resolve_left (fun hsend => ?_)
    rw [hsub] at hsend
    cases hsend.1

/-- Every call returns: a caller that submits a job gets a result, unless it gives up itself, if
the thread acts whenever it can and the caller acts when it can again and again. That the closures
end is in their type. -/
theorem call_returns (hthread : e.WeaklyFair (fun l => l.onThread = true)) {j : J}
    (hcaller : e.StronglyFair (fun l => l.ofCaller j)) :
    e.LeadsTo (fun s => (s.jobs j).submission = .sending) (fun s => CallerDone (s.jobs j)) :=
  caller_done hthread hcaller

lemma not_ofCaller_step {s t : State J K V} {l : Label J K V} (hs : Step cfg s l t) {j : J}
    (hsub : (s.jobs j).submission = .accepted) (hobs : (s.jobs j).observed ≠ none) :
    ¬ l.ofCaller j := by
  intro hl
  cases hs with
  | enqueue h | refuseClosed h | refuseFull h =>
    cases hl
    rw [hsub] at h
    cases h
  | observe _ _ h =>
    cases hl
    exact hobs h
  | _ => exact hl.elim

theorem call_returns_twoQueries : ∃ e : (isle (K := Unit) twoQueries).Execution,
    ∀ j, ((e.state 0).jobs j).submission = .sending ∧ ∃ n, CallerDone ((e.state n).jobs j) := by
  obtain ⟨e, hsending, t, hstops, hserved, -, hfin⟩ := twoQueries_stops
  have hthread := (hstops.stronglyFair (not_thread_enabled (Or.inl hfin))).weaklyFair
  refine ⟨e, fun j => ⟨hsending j, ?_⟩⟩
  obtain ⟨hsub, hobs⟩ := hserved j
  have hcaller : ¬ (isle twoQueries).Enabled (fun l => l.ofCaller j) t :=
    fun ⟨l, u, hl, hs⟩ => not_ofCaller_step hs hsub hobs hl
  obtain ⟨n, -, hn⟩ := call_returns hthread (hstops.stronglyFair hcaller) 0 (hsending j)
  exact ⟨n, hn⟩

/-! ## Calls of `shutdown` -/

/-- The actions of the call `k` of `Isle::shutdown`. -/
def Label.ofCall (k : K) : Label J K V → Prop
  | shutSend i | shutLock i | shutJoin i => i = k
  | _ => False

/-- What a step does to a call of `Isle::shutdown`. -/
inductive CallMoves (s t : State J K V) (l : Label J K V) (k : K) : Prop
  | same (hcall : t.calls k = s.calls k) (hl : ¬ l.ofCall k)
  | called (hcall : s.calls k = .idle) (hcall' : t.calls k = .sending)
  | sent (hcall : s.calls k = .sending) (hcall' : t.calls k = .locking)
      (hstop : ToldToStop t ∨ s.chan.alive = false)
  | locked (hcall : s.calls k = .locking) (hcall' : t.calls k = .joining ∨ t.calls k = .returned)
  | joined (hcall : s.calls k = .joining) (hcall' : t.calls k = .returned)

lemma callMoves {s t : State J K V} {l : Label J K V} (hs : Step cfg s l t) (k : K) :
    CallMoves s t l k := by
  have other {i : K} {call : ShutdownCall} (hik : i ≠ k) :
      Function.update s.calls i call k = s.calls k := Function.update_of_ne (Ne.symm hik) _ _
  cases hs with
  | @shutCall i _ hcall =>
    by_cases hik : i = k
    · subst hik
      exact .called hcall (Function.update_self _ _ _)
    · exact .same (other hik) id
  | @shutSend i _ hcall hpush =>
    by_cases hik : i = k
    · subst hik
      refine .sent hcall (Function.update_self _ _ _) (Or.inl (Or.inl ?_))
      rw [(Fifo.push?_some hpush).sent]
      exact List.mem_append_right _ List.mem_cons_self
    · exact .same (other hik) hik
  | @shutSendClosed i hcall hdead =>
    by_cases hik : i = k
    · subst hik
      exact .sent hcall (Function.update_self _ _ _) (Or.inr hdead)
    · exact .same (other hik) hik
  | @shutTake i hcall =>
    by_cases hik : i = k
    · subst hik
      exact .locked hcall (Or.inl (Function.update_self _ _ _))
    · exact .same (other hik) hik
  | @shutSkip i hcall =>
    by_cases hik : i = k
    · subst hik
      exact .locked hcall (Or.inr (Function.update_self _ _ _))
    · exact .same (other hik) hik
  | @shutJoin i hcall =>
    by_cases hik : i = k
    · subst hik
      exact .joined hcall (Function.update_self _ _ _)
    · exact .same (other hik) hik
  | _ => exact .same rfl id

lemma call_begun {s t : State J K V} {l : Label J K V} {k : K} (hs : Step cfg s l t)
    (h : s.calls k ≠ .idle) : t.calls k ≠ .idle := by
  cases callMoves hs k with
  | same hcall => rwa [hcall]
  | called hcall => exact absurd hcall h
  | sent _ hcall | joined _ hcall => simp [hcall]
  | locked _ hcall => rcases hcall with hcall | hcall <;> simp [hcall]

/-- The isle has been asked to stop, or has stopped. -/
def Ending (s : State J K V) : Prop := ToldToStop s ∨ s.pc.isFinished = true

lemma ending_step {s t : State J K V} {l : Label J K V} (hlink : Link s) (hs : Step cfg s l t)
    (h : Ending s) : Ending t :=
  h.imp (toldToStop_step hlink hs) (finished_step hs)

lemma ending_finishes (hthread : e.WeaklyFair (fun l => l.onThread = true)) :
    e.LeadsTo Ending (fun s => s.pc.isFinished = true) :=
  (told_finishes hthread).or (.of_imp fun _ _ h => h)

lemma ending_of_call {s : State J K V} (h : (isle cfg).Reachable s) {k : K}
    (hidle : s.calls k ≠ .idle) (hsending : s.calls k ≠ .sending) : Ending s := by
  refine TransitionSystem.ReachableVia.invariant_of (J := Link)
    (I := fun s => s.calls k ≠ .idle → s.calls k ≠ .sending → Ending s) (fun _ => link_reachable)
    (fun hidle => absurd rfl hidle) ?_ h hidle hsending
  intro s l t hlink hi _ hs hidle hsending
  have hkeep := ending_step hlink hs
  cases callMoves hs k with
  | same hcall =>
    rw [hcall] at hidle hsending
    exact hkeep (hi hidle hsending)
  | called _ hcall' => exact absurd hcall' hsending
  | sent _ _ hstop =>
    refine hstop.elim Or.inl (fun hdead => hkeep (Or.inr ?_))
    simpa [hdead] using hlink.alive
  | locked hcall => exact hkeep (hi (by simp [hcall]) (by simp [hcall]))
  | joined hcall => exact hkeep (hi (by simp [hcall]) (by simp [hcall]))

lemma call_acts {s t : State J K V} {l : Label J K V} (hs : Step cfg s l t) {k : K}
    (hl : l.ofCall k) : t.calls k ≠ s.calls k := by
  cases callMoves hs k with
  | same _ hl' => exact absurd hl hl'
  | called hcall hcall' => simp [hcall, hcall']
  | sent hcall hcall' => simp [hcall, hcall']
  | locked hcall hcall' => rcases hcall' with h | h <;> simp [hcall, h]
  | joined hcall hcall' => simp [hcall, hcall']

lemma call_joins (hthread : e.WeaklyFair (fun l => l.onThread = true)) {k : K}
    (hcall : e.StronglyFair (fun l => l.ofCall k)) :
    e.LeadsTo (fun s => s.calls k = .joining) (fun s => s.calls k = .returned) := by
  refine hcall.leaves (fun n hn => ?_) (fun s l t hc hl hs => hc ▸ call_acts hs hl) ?_
  · obtain ⟨m, hm, hfin⟩ := ending_finishes hthread n
      (ending_of_call (k := k) (e.reachable n) (by simp [hn n le_rfl]) (by simp [hn n le_rfl]))
    exact ⟨m, hm, .shutJoin k, _, rfl, .shutJoin (hn m hm) hfin⟩
  · intro s l t hc hs hne
    cases callMoves hs k <;> simp_all

lemma call_locks {k : K} (hcall : e.StronglyFair (fun l => l.ofCall k)) :
    e.LeadsTo (fun s => s.calls k = .locking)
      (fun s => s.calls k = .joining ∨ s.calls k = .returned) := by
  refine hcall.leaves (fun n hn => ?_) (fun s l t hc hl hs => hc ▸ call_acts hs hl) ?_
  · cases hjoin : (e.state n).join with
    | true => exact ⟨n, le_rfl, .shutLock k, _, rfl, .shutTake (hn n le_rfl) hjoin⟩
    | false => exact ⟨n, le_rfl, .shutLock k, _, rfl, .shutSkip (hn n le_rfl) hjoin⟩
  · intro s l t hc hs hne
    cases callMoves hs k <;> simp_all

lemma call_sends (hthread : e.WeaklyFair (fun l => l.onThread = true)) {k : K}
    (hcall : e.StronglyFair (fun l => l.ofCall k)) :
    e.LeadsTo (fun s => s.calls k = .sending) (fun s => s.calls k = .locking) := by
  refine hcall.leaves (fun n hn => ?_) (fun s l t hc hl hs => hc ▸ call_acts hs hl) ?_
  · obtain ⟨m, hm, hdead | ⟨ch, hpush⟩⟩ := sendable_recurs hthread .shutdown n
    · exact ⟨m, hm, .shutSend k, _, rfl, .shutSendClosed (hn m hm) hdead⟩
    · exact ⟨m, hm, .shutSend k, _, rfl, .shutSend (hn m hm) hpush⟩
  · intro s l t hc hs hne
    cases callMoves hs k <;> simp_all

lemma call_ends (hthread : e.WeaklyFair (fun l => l.onThread = true)) {k : K}
    (hcall : e.StronglyFair (fun l => l.ofCall k)) :
    e.LeadsTo (fun s => s.calls k ≠ .idle) (fun s => s.calls k = .returned) := by
  have hlocks := (call_locks hcall).trans
    ((call_joins hthread hcall).or (.of_imp fun _ _ h => h))
  intro n hn
  cases hc : (e.state n).calls k with
  | idle => exact absurd hc hn
  | sending => exact (call_sends hthread hcall).trans hlocks n hc
  | locking => exact hlocks n hc
  | joining => exact call_joins hthread hcall n hc
  | returned => exact ⟨n, le_rfl, hc⟩

/-- `Isle::shutdown` returns: a call that has begun returns to its caller, if the thread acts
whenever it can and the caller acts when it can again and again. That the closures end is in their
type. -/
theorem shutdown_returns (hthread : e.WeaklyFair (fun l => l.onThread = true)) {k : K}
    (hcall : e.StronglyFair (fun l => l.ofCall k)) :
    e.LeadsTo (fun s => s.calls k ≠ .idle) (fun s => s.calls k = .returned) :=
  call_ends hthread hcall

lemma not_ofCall_step {s t : State J K V} {l : Label J K V} (hs : Step cfg s l t) {k : K}
    (hk : s.calls k = .returned) : ¬ l.ofCall k := by
  intro hl
  cases hs with
  | shutSend hcall | shutSendClosed hcall | shutTake hcall | shutSkip hcall | shutJoin hcall =>
    cases hl
    rw [hk] at hcall
    cases hcall
  | _ => exact hl.elim

/-- Two callers shut an isle down that serves a job. One of them joins the thread, the other one
sends when it has ended. -/
lemma twoJobs_shut : ∃ e : (isle (K := Bool) twoJobs).Execution,
    (∀ k, (e.state 0).calls k = .sending) ∧ ((e.state 0).jobs true).submission = .accepted ∧
      ∃ t, e.Stops t ∧ (∀ k, t.calls k = .returned) ∧ t.pc.isFinished = true := by
  have h0 := TransitionSystem.Reachable.refl (T := isle (K := Bool) twoJobs)
  have h1 := h0.tail (.submit (j := true) rfl (by decide) rfl)
  have h2 := h1.tail (.enqueue (j := true) rfl rfl)
  have h3 := h2.tail (.shutCall (k := true) rfl rfl (by decide) rfl)
  have h4 := h3.tail (.shutCall (k := false) rfl rfl (by decide) rfl)
  have r5 := h4.here.tail (.shutSend (k := true) rfl rfl) trivial
  have r6 := r5.tail (.shutTake (k := true) rfl rfl) trivial
  have r7 := r6.tail (.recvJob (j := true) rfl rfl) trivial
  have r8 := r7.tail (.loadAbort (j := true) rfl) trivial
  have r9 := r8.tail (.queuedCheck (j := true) rfl) trivial
  have r10 := r9.tail (.attachStore (j := true) rfl) trivial
  have r11 := r10.tail (.attachCheckNone (j := true) rfl rfl) trivial
  have r12 := r11.tail (.closureRet (j := true) rfl) trivial
  have r13 := r12.tail (.detach (j := true) rfl) trivial
  have r14 := r13.tail (.respond (j := true) rfl) trivial
  have r15 := r14.tail (.recvShutdown rfl rfl) trivial
  have r16 := r15.tail (.threadFinish (.inl ⟨rfl, rfl⟩)) trivial
  have r17 := r16.tail (.shutJoin (k := true) rfl rfl) trivial
  have r18 := r17.tail (.shutSendClosed (k := false) rfl rfl) trivial
  have r19 := r18.tail (.shutSkip (k := false) rfl rfl) trivial
  obtain ⟨e, h0, hstops⟩ := TransitionSystem.Execution.exists_stops h4 r19
  refine ⟨e, fun k => ?_, by rw [h0]; rfl, _, hstops, fun k => ?_, rfl⟩
  · rw [h0]
    cases k <;> rfl
  · cases k <;> rfl

theorem shutdown_returns_joined : ∃ e : (isle (K := Bool) twoJobs).Execution,
    ((e.state 0).jobs true).submission = .accepted ∧
      ∀ k, (e.state 0).calls k = .sending ∧ ∃ n, (e.state n).calls k = .returned := by
  obtain ⟨e, hsending, hjob, t, hstops, hreturned, hfin⟩ := twoJobs_shut
  have hthread := (hstops.stronglyFair (not_thread_enabled (Or.inl hfin))).weaklyFair
  refine ⟨e, hjob, fun k => ⟨hsending k, ?_⟩⟩
  have hcall := hstops.stronglyFair (A := fun l => l.ofCall k)
    (fun ⟨l, u, hl, hs⟩ => not_ofCall_step hs (hreturned k) hl)
  obtain ⟨n, -, hn⟩ := shutdown_returns hthread hcall 0 (by simp [hsending k])
  exact ⟨n, hn⟩

/-! ## `AsyncIsleDriver` -/

/-- The actions of `AsyncIsleDriver::shutdown` and `shutdown_now` once they have been called. -/
def Label.ofDriver : Label J K V → Prop
  | driverStore | driverInterrupt | driverSend | driverDone | driverJoin => True
  | _ => False

/-- What the driver does next. -/
def Driver.after : Driver → Driver
  | storing => interrupting
  | interrupting => sending
  | sending => awaiting
  | awaiting => joining
  | joining => returned
  | d => d

/-- What a step does to the driver. -/
inductive DriverMoves (s t : State J K V) (l : Label J K V) : Prop
  | same (hdriver : t.driver = s.driver) (hl : ¬ l.ofDriver)
  | called (hdriver : s.driver = .owned) (hdriver' : t.driver = .sending ∨ t.driver = .storing)
      (hl : ¬ l.ofDriver)
  | dropped (hdriver : t.driver = .dropped) (hl : ¬ l.ofDriver)
  | sent (hdriver : s.driver = .sending) (hdriver' : t.driver = .awaiting)
      (hstop : ToldToStop t ∨ s.chan.alive = false)
  | next (hne : s.driver ≠ .sending) (hdriver : t.driver = s.driver.after)
      (hafter : s.driver.after ≠ s.driver)

lemma driverMoves {s t : State J K V} {l : Label J K V} (hs : Step cfg s l t) :
    DriverMoves s t l := by
  cases hs with
  | driverShutdown hd => exact .called hd (Or.inl rfl) id
  | driverShutdownNow hd => exact .called hd (Or.inr rfl) id
  | driverDrop => exact .dropped rfl id
  | driverSend hd hpush =>
    refine .sent hd rfl (Or.inl (Or.inl ?_))
    rw [(Fifo.push?_some hpush).sent]
    exact List.mem_append_right _ List.mem_cons_self
  | driverSendClosed hd hdead => exact .sent hd rfl (Or.inr hdead)
  | driverStore hd | driverInterrupt hd | driverDone hd | driverJoin hd =>
    exact .next (by simp [hd]) (by simp [hd, Driver.after]) (by simp [hd, Driver.after])
  | _ => exact .same rfl id

lemma ending_of_driver {s : State J K V} (h : (isle cfg).Reachable s)
    (hdriver : s.driver = .awaiting ∨ s.driver = .joining) : Ending s := by
  refine TransitionSystem.ReachableVia.invariant_of (J := Link)
    (I := fun s => s.driver = .awaiting ∨ s.driver = .joining → Ending s) (fun _ => link_reachable)
    ?_ ?_ h hdriver
  · intro hd
    cases hfront : cfg.front <;> simp [isle, State.init, hfront] at hd
  · intro s l t hlink hi _ hs hd
    have hkeep := ending_step hlink hs
    cases driverMoves hs with
    | same hdriver => exact hkeep (hi (by rwa [hdriver] at hd))
    | called _ hdriver' => rcases hdriver' with h | h <;> simp [h] at hd
    | dropped hdriver => simp [hdriver] at hd
    | sent _ _ hstop =>
      refine hstop.elim Or.inl (fun hdead => hkeep (Or.inr ?_))
      simpa [hdead] using hlink.alive
    | next hne hdriver =>
      rw [hdriver] at hd
      refine hkeep (hi ?_)
      cases hs : s.driver <;> simp_all [Driver.after]

lemma driver_acts {s t : State J K V} {l : Label J K V} (hs : Step cfg s l t) (hl : l.ofDriver) :
    t.driver ≠ s.driver := by
  cases driverMoves hs with
  | same _ hl' => exact absurd hl hl'
  | called _ _ hl' => exact absurd hl hl'
  | dropped _ hl' => exact absurd hl hl'
  | sent hdriver hdriver' => simp [hdriver, hdriver']
  | next _ hdriver hafter => rwa [hdriver]

/-- A driver that can act again and again while it is at `d` comes to what is after `d`, unless it
is dropped. -/
lemma driver_leaves (hdriver : e.StronglyFair Label.ofDriver) {d : Driver} (howned : d ≠ .owned)
    (hrecurs : ∀ n, (∀ m, n ≤ m → (e.state m).driver = d) →
      ∃ m, n ≤ m ∧ (isle cfg).Enabled Label.ofDriver (e.state m)) :
    e.LeadsTo (fun s => s.driver = d) (fun s => s.driver = d.after ∨ s.driver.released = true) := by
  refine hdriver.leaves hrecurs (fun s l t hd hl hs => hd ▸ driver_acts hs hl) ?_
  intro s l t hd hs hne
  cases driverMoves hs with
  | same hdriver => exact absurd (hdriver.trans hd) hne
  | called hdriver => exact absurd (hd.symm.trans hdriver) howned
  | dropped hdriver => exact Or.inr (by rw [hdriver]; rfl)
  | sent hdriver hdriver' =>
    rw [← hd, hdriver]
    exact Or.inl hdriver'
  | next _ hdriver => exact Or.inl (hd ▸ hdriver)

/-- `shutdown` and `shutdown_now` of the driver return, unless their future is dropped, if the
thread acts whenever it can and the driver's task acts when it can again and again. -/
theorem driver_returns (hthread : e.WeaklyFair (fun l => l.onThread = true))
    (hdriver : e.StronglyFair Label.ofDriver) :
    e.LeadsTo (fun s => s.driver ≠ .owned) (fun s => s.driver.released = true) := by
  have hfinishes {n : ℕ} (hd : (e.state n).driver = .awaiting ∨ (e.state n).driver = .joining) :
      ∃ m, n ≤ m ∧ (e.state m).pc.isFinished = true :=
    ending_finishes hthread n (ending_of_driver (e.reachable n) hd)
  have hjoins : e.LeadsTo (fun s => s.driver = .joining) (fun s => s.driver.released = true) := by
    refine (driver_leaves hdriver (by simp) (fun n hn => ?_)).mono ?_
    · obtain ⟨m, hm, hfin⟩ := hfinishes (Or.inr (hn n le_rfl))
      exact ⟨m, hm, .driverJoin, _, trivial, .driverJoin (hn m hm) hfin⟩
    · exact fun s _ h => h.elim (fun h => by rw [h]; rfl) id
  have hawaits : e.LeadsTo (fun s => s.driver = .awaiting) (fun s => s.driver.released = true) := by
    refine (driver_leaves hdriver (by simp) (fun n hn => ?_)).trans
      (hjoins.or (.of_imp fun _ _ h => h))
    obtain ⟨m, hm, hfin⟩ := hfinishes (Or.inl (hn n le_rfl))
    obtain ⟨why, hwhy⟩ : ∃ why, (e.state m).pc = .finished why := by
      cases hpc : (e.state m).pc <;> simp_all [Pc.isFinished]
    exact ⟨m, hm, .driverDone, _, trivial, .driverDone (hn m hm) (Or.inr hwhy)⟩
  have hsends : e.LeadsTo (fun s => s.driver = .sending) (fun s => s.driver.released = true) := by
    refine (driver_leaves hdriver (by simp) (fun n hn => ?_)).trans
      (hawaits.or (.of_imp fun _ _ h => h))
    obtain ⟨m, hm, hdead | ⟨ch, hpush⟩⟩ := sendable_recurs hthread .shutdown n
    · exact ⟨m, hm, .driverSend, _, trivial, .driverSendClosed (hn m hm) hdead⟩
    · exact ⟨m, hm, .driverSend, _, trivial, .driverSend (hn m hm) hpush⟩
  have hinterrupts : e.LeadsTo (fun s => s.driver = .interrupting)
      (fun s => s.driver.released = true) :=
    (driver_leaves hdriver (by simp) (fun n hn =>
      ⟨n, le_rfl, .driverInterrupt, _, trivial, .driverInterrupt (hn n le_rfl)⟩)).trans
      (hsends.or (.of_imp fun _ _ h => h))
  have hstores : e.LeadsTo (fun s => s.driver = .storing) (fun s => s.driver.released = true) :=
    (driver_leaves hdriver (by simp) (fun n hn =>
      ⟨n, le_rfl, .driverStore, _, trivial, .driverStore (hn n le_rfl)⟩)).trans
      (hinterrupts.or (.of_imp fun _ _ h => h))
  intro n hn
  cases hd : (e.state n).driver with
  | owned => exact absurd hd hn
  | storing => exact hstores n hd
  | interrupting => exact hinterrupts n hd
  | sending => exact hsends n hd
  | awaiting => exact hawaits n hd
  | joining => exact hjoins n hd
  | returned | dropped => exact ⟨n, le_rfl, by simp [hd, Driver.released]⟩

/-- The driver aborts an idle isle and waits for its end. -/
theorem driver_returns_aborted : ∃ e : (isle (K := Unit) { oneJob with front := .async }).Execution,
    (e.state 0).driver = .storing ∧ ∃ n, (e.state n).driver.released = true := by
  have h0 := TransitionSystem.Reachable.refl (T := isle (K := Unit) { oneJob with front := .async })
  have h1 := h0.tail (.driverShutdownNow rfl)
  have r2 := h1.here.tail (.driverStore rfl) trivial
  have r3 := r2.tail (.driverInterrupt rfl) trivial
  have r4 := r3.tail (.driverSend rfl rfl) trivial
  have r5 := r4.tail (.recvShutdown rfl rfl) trivial
  have r6 := r5.tail (.signalDone rfl rfl) trivial
  have r7 := r6.tail (.threadFinish (.inr rfl)) trivial
  have r8 := r7.tail (.driverDone rfl (.inr rfl)) trivial
  have r9 := r8.tail (.driverJoin rfl rfl) trivial
  obtain ⟨e, h0, hstops⟩ := TransitionSystem.Execution.exists_stops h1 r9
  have hthread := (hstops.stronglyFair (not_thread_enabled (Or.inl rfl))).weaklyFair
  have hdriver := hstops.stronglyFair (A := Label.ofDriver) (by
    rintro ⟨l, u, hl, hs⟩
    cases hs <;> simp_all [Label.ofDriver])
  have hstoring : (e.state 0).driver = .storing := by rw [h0]
  obtain ⟨n, -, hn⟩ := driver_returns hthread hdriver 0
    (fun howned => by cases hstoring.symm.trans howned)
  exact ⟨e, hstoring, n, hn⟩

end RusqliteIsle
