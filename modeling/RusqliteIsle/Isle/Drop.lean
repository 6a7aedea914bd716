import RusqliteIsle.Isle.Reason

/-!
# Dropping and detaching a task

The drop of an `AsyncTask` cancels its job; the drop of a future that still waits for capacity
takes the job with it. Both touch nothing but their own job. What a fire does to the connection it
does while its own job is attached, and a job that was answered is never attached again. A
detached task is not fired by anybody who has no clone of its token, and its job runs.
-/

namespace RusqliteIsle

set_option linter.unusedSectionVars false

variable {J K V : Type} [DecidableEq J] [DecidableEq K] {cfg : Config J V}

/-! ## What stays as it is -/

/-- Nothing but the job `j` has changed: the queue, the thread, the flag and the other jobs are as
they were. -/
structure Spares (s t : State J K V) (j : J) : Prop where
  chan : t.chan = s.chan
  pc : t.pc = s.pc
  abort : t.abort = s.abort
  jobs : ∀ i, i ≠ j → t.jobs i = s.jobs i
  history : ∀ i, i ≠ j → t.history i = s.history i

lemma spares_of_drop {s t : State J K V} {l : Label J K V} {j : J} (hs : Step cfg s l t)
    (hl : l = .dropTask j ∨ l = .abandon j) : Spares s t j ∧ t.conn = s.conn := by
  rcases hl with rfl | rfl <;> cases hs <;>
    exact ⟨⟨rfl, rfl, rfl, fun i hi => by simp [State.beginFire, hi],
      fun i hi => by simp [State.beginFire, hi]⟩, rfl⟩

lemma spares_of_fire {s t : State J K V} {j : J} (hs : Step cfg s (.fireInterrupt j) t) :
    Spares s t j := by
  cases hs with
  | fireInterrupt =>
    exact ⟨rfl, rfl, rfl, fun i hi => Function.update_of_ne hi _ _,
      fun i hi => Function.update_of_ne hi _ _⟩

/-! ## Jobs that are abandoned or answered -/

lemma abandoned_step {s t : State J K V} {l : Label J K V} {j : J}
    (hi : (s.jobs j).submission = .abandoned) (hs : Step cfg s l t) :
    (t.jobs j).submission = .abandoned := by
  rcases (caller_step hs j).submission with hsame | ⟨rfl, -⟩ | ⟨hsending, -⟩
  · exact hsame.trans hi
  · cases hs with
    | submit hsub =>
      rw [hi] at hsub
      cases hsub
  · rw [hi] at hsending
    cases hsending

lemma unsent_of_abandoned {s : State J K V} (h : (isle cfg).Reachable s) {j : J}
    (hi : (s.jobs j).submission = .abandoned) :
    Request.job j ∉ s.chan.sent ∧ (s.history j).invoked = 0 := by
  have hsent : Request.job j ∉ s.chan.sent := by
    intro hsent
    rw [((link_reachable h).accepted j).mp hsent] at hi
    cases hi
  exact ⟨hsent,
    ((life_reachable h j).waiting (fun hrec => hsent (Fifo.mem_sent_of_received hrec))).1.invoked⟩

lemma unanswered_of_attached {s : State J K V} (h : (isle cfg).Reachable s) {j : J}
    (hatt : s.pc.attached? = some j) : (s.history j).responses = 0 := by
  have hagree := ((life_reachable h j).current (Pc.job?_of_attached? hatt)).2
  cases hpc : s.pc with
  | attachCheck | attachInterrupt =>
    rw [hpc] at hagree
    exact History.Unrun.responses hagree
  | closure | detach =>
    rw [hpc] at hagree
    exact History.Ran.responses hagree
  | _ =>
    rw [hpc] at hatt
    cases hatt

lemma not_issues_of_answered {s t u : State J K V} {l : Label J K V} {j : J}
    (h : (isle cfg).Reachable s) (hanswered : (s.history j).responses ≠ 0)
    (hrun : (isle cfg).Run s t) (hst : Step cfg t l u) : ¬ IssuesInterrupt t u j := by
  intro hissue
  have hreach := h.run hrun
  have hatt := (attached_of_issues (attached_reachable hreach j) hst hissue).1
  have hkept : (s.history j).responses ≤ (t.history j).responses :=
    TransitionSystem.Run.invariant
      (I := fun t => (s.history j).responses ≤ (t.history j).responses)
      (fun _ _ _ hi hst => hi.trans (history_step hst j).responses) hrun le_rfl
  rw [unanswered_of_attached hreach hatt] at hkept
  exact hanswered (Nat.le_zero.mp hkept)

/-! ## Jobs that are let past the abort check -/

lemma fires_step {s t : State J K V} {l : Label J K V} {j : J} (hs : Step cfg s l t)
    (h : (t.history j).fires = []) : (s.history j).fires = [] := by
  rcases (history_step hs j).fires with hsame | ⟨reason, happend⟩
  · exact hsame.symm.trans h
  · rw [happend] at h
    exact (List.append_eq_nil_iff.mp h).1

namespace Pc

/-- Whether the thread is on its way from the abort check to the closure of `j`. -/
def isEntering (pc : Pc J V) (j : J) : Prop :=
  pc = .queuedCheck j ∨ pc = .attachStore j ∨ pc = .attachCheck j

lemma job?_of_isEntering {pc : Pc J V} {j : J} (h : pc.isEntering j) : pc.job? = some j := by
  rcases h with rfl | rfl | rfl <;> rfl

end Pc

/-- As long as its token has not fired, the closure of `j` has been entered once, or the thread is
on its way to it. -/
def Bound (s : State J K V) (j : J) : Prop :=
  (s.history j).fires = [] → (s.history j).invoked = 1 ∨ s.pc.isEntering j

lemma bound_step {s t : State J K V} {l : Label J K V} {j : J} (hlife : Life s j)
    (hi : Bound s j) (hs : Step cfg s l t) : Bound t j := by
  intro hfires
  have hbefore := fires_step hs hfires
  have hstate : (s.jobs j).token.state = none := by rw [← hlife.fires, hbefore]; rfl
  have hor := hi hbefore
  have elsewhere {pc : Pc J V} (hpc : s.pc = pc) (h : ¬ pc.isEntering j) :
      (s.history j).invoked = 1 := hor.resolve_right (hpc ▸ h)
  obtain rfl | hf | hl := step_about hs j
  · cases hs with
    | threadFinish hpc =>
      refine Or.inl (hor.resolve_right (fun h => ?_))
      rcases hpc with ⟨-, hpc⟩ | hpc <;> rw [hpc] at h <;> simp [Pc.isEntering] at h
  · rw [hf.history]
    refine hor.imp_right (fun h => ?_)
    rwa [hf.pc (Pc.job?_of_isEntering h)]
  cases hs with
  | queuedCheck =>
    cases hl
    have hfired : (s.jobs j).token.fired = none := CancelToken.fired_eq_none.mpr hstate
    exact Or.inr (Or.inr (Or.inl (by simp [hfired])))
  | attachStore =>
    cases hl
    exact Or.inr (Or.inr (Or.inr rfl))
  | attachCheckNone hpc | attachInterrupt hpc =>
    cases hl
    have hun : (s.history j).Unrun 1 := (hlife.at_pc hpc rfl).2
    exact Or.inl (by simp [State.invoke, hun.invoked])
  | attachCheckFired _ hfired =>
    cases hl
    exact absurd hstate hfired
  | loadAbort hpc | discard hpc | stmtStart hpc | stmtComplete hpc | stmtFail hpc | stmtAbort hpc
  | closureRet hpc | closurePanic hpc | detach hpc | normalizeToken hpc | normalizeAbort hpc
  | respond hpc =>
    cases hl
    exact Or.inl (by simpa using elsewhere hpc (by simp [Pc.isEntering]))
  | recvJob hpc =>
    cases hl
    exact Or.inl (elsewhere hpc (by simp [Pc.isEntering]))
  | deadline | cancel | dropAsyncTask =>
    cases hl
    simp [State.beginFire] at hfires
  | fireInterrupt =>
    cases hl
    exact hor.imp_left (fun h => by simpa using h)
  | recvShutdown | recvDisconnected | healthStart | healthPass | healthFail | signalDone
  | threadFinish => cases hl
  | _ => exact hor

lemma Explains.invoked_le {h : History V} {r : Except IsleError V} (he : Explains h r) :
    h.invoked ≤ 1 := by
  have of_or {p : Prop} (h' : h.invoked = 0 ∨ p) (hp : p → h.invoked = 1) : h.invoked ≤ 1 :=
    h'.elim (fun h0 => by omega) (fun h1 => (hp h1).le)
  cases r with
  | ok v => exact he.1.le
  | error err =>
    cases err with
    | sqlite e => exact he.1.le
    | panicked message => exact he.1.le
    | cancelled | timeout => exact of_or he.2 (fun h => h.1)
    | closed => exact of_or he (fun h => h.1.1)
    | queueFull => exact (Nat.le_of_eq he).trans (Nat.zero_le 1)

lemma Life.invoked_le {s : State J K V} {j : J} (hi : Life s j) :
    (s.history j).invoked ≤ 1 := by
  by_cases hrec : Request.job j ∈ s.chan.received
  swap
  · rw [(hi.waiting hrec).1.invoked]
    exact Nat.zero_le 1
  by_cases hcur : s.pc.job? = some j
  · have hagree := (hi.current hcur).2
    cases hpc : s.pc with
    | loadAbort | queuedCheck | attachStore | attachCheck | attachInterrupt =>
      rw [hpc] at hagree
      rw [History.Unrun.invoked hagree]
      exact Nat.zero_le 1
    | discard =>
      rw [hpc] at hagree
      rw [hagree.1.invoked]
      exact Nat.zero_le 1
    | closure | detach =>
      rw [hpc] at hagree
      exact (History.Ran.invoked hagree).le
    | normalizeToken | normalizeAbort =>
      rw [hpc] at hagree
      exact hagree.1.invoked.le
    | respond =>
      rw [hpc] at hagree
      exact hagree.2.explains.invoked_le
    | _ =>
      rw [hpc] at hcur
      cases hcur
  · rcases hi.settled hrec hcur with ⟨-, r, -, hans⟩ | ⟨hun, -, -⟩
    · exact hans.explains.invoked_le
    · rw [hun.invoked]
      exact Nat.zero_le 1

/-! ## Tasks that are detached -/

lemma detached_step {s t : State J K V} {l : Label J K V} {j : J}
    (hi : (s.jobs j).holder = .detached ∧ (s.jobs j).submission = .accepted)
    (hs : Step cfg s l t) :
    ((t.jobs j).holder = .detached ∧ (t.jobs j).submission = .accepted) ∧
      (t.jobs j).observed = (s.jobs j).observed := by
  have hcaller := caller_step hs j
  have unheld (hheld : (s.jobs j).holder = .held) : False := by
    rw [hi.1] at hheld
    cases hheld
  have unsent (hsub : (s.jobs j).submission = .sending) : False := by
    rw [hi.2] at hsub
    cases hsub
  refine ⟨⟨?_, ?_⟩, ?_⟩
  · rcases hcaller.holder with hsame | rfl | rfl
    · exact hsame.trans hi.1
    · cases hs with
      | dropAsyncTask _ _ _ hheld | dropSyncTask _ _ hheld => exact (unheld hheld).elim
    · cases hs with
      | detachTask _ _ hheld => exact (unheld hheld).elim
  · rcases hcaller.submission with hsame | ⟨rfl, -⟩ | ⟨hsending, -⟩
    · exact hsame.trans hi.2
    · cases hs with
      | submit hsub =>
        rw [hi.2] at hsub
        cases hsub
    · exact (unsent hsending).elim
  · rcases hcaller.observed with hsame | ⟨rfl, -⟩ | ⟨hsending, -⟩
    · exact hsame
    · cases hs with
      | observe _ hheld => exact (unheld hheld).elim
    · exact (unsent hsending).elim

lemma detached_run {s t : State J K V} {j : J}
    (hi : (s.jobs j).holder = .detached ∧ (s.jobs j).submission = .accepted)
    (hrun : (isle cfg).Run s t) :
    ((t.jobs j).holder = .detached ∧ (t.jobs j).submission = .accepted) ∧
      (t.jobs j).observed = (s.jobs j).observed := by
  refine TransitionSystem.Run.invariant
    (I := fun t => ((t.jobs j).holder = .detached ∧ (t.jobs j).submission = .accepted) ∧
      (t.jobs j).observed = (s.jobs j).observed) ?_ hrun ⟨hi, rfl⟩
  rintro u l v ⟨hu, hobs⟩ hst
  obtain ⟨hv, hkept⟩ := detached_step hu hst
  exact ⟨hv, hkept.trans hobs⟩

/-- The drop `l` of the task of `j`: it touches nothing else; a job that was not enqueued never is;
a job that was not checked is not entered; a job that was answered issues no interrupt. -/
structure DropCancels (cfg : Config J V) (s t : State J K V) (l : Label J K V) (j : J) : Prop where
  spares : Spares s t j ∧ t.conn = s.conn
  waiting : l = .abandon j → ∀ u, (isle cfg).Run t u →
    Request.job j ∉ u.chan.sent ∧ (u.history j).invoked = 0
  queued : l = .dropTask j → (s.history j).checks = 0 → ∀ u, (isle cfg).Run t u →
    (u.history j).invoked = 0
  answered : (s.history j).responses ≠ 0 → ∀ u l' v, (isle cfg).Run t u → Step cfg u l' v →
    ¬ IssuesInterrupt u v j

/-- A task of `j` that is detached between `s` and `t`: its token is not fired, and from then on
nobody fires it but through a clone; its result goes nowhere; a loop that ends because all senders
are gone has taken the job; and once the loop has let the job past its abort check, the closure is
entered exactly once unless a clone of the token fires. -/
structure DetachRuns (cfg : Config J V) (s t : State J K V) (j : J) : Prop where
  spares : Spares s t j ∧ t.conn = s.conn ∧ (t.history j).fires = (s.history j).fires
  unfired : ∀ u v, (isle cfg).Run t u →
    ¬ Step cfg u (.dropTask j) v ∧ ¬ Step cfg u (.deadline j) v
  discarded : ∀ u, (isle cfg).Run t u → (u.jobs j).observed = (t.jobs j).observed
  taken : ∀ u, (isle cfg).Run t u → u.pc.exit? = some .disconnected →
    Request.job j ∈ u.chan.received
  runs : ∀ u v w, (isle cfg).Run t u → u.abort = false → Step cfg u (.loadAbort j) v →
    (isle cfg).Run v w → (w.history j).fires = [] →
    (w.history j).invoked ≤ 1 ∧ ((w.history j).invoked = 1 ∨ w.pc.isEntering j)

lemma drop_cancels (hfront : cfg.front = .async) {s t : State J K V} {l : Label J K V} {j : J}
    (hs : (isle cfg).Reachable s) (hst : Step cfg s l t) (hl : l = .dropTask j ∨ l = .abandon j) :
    DropCancels cfg s t l j := by
  have hreach := hs.tail hst
  obtain ⟨hspares, hconn⟩ := spares_of_drop hst hl
  refine ⟨⟨hspares, hconn⟩, ?_, ?_, fun hanswered u l' v hrun hst' => ?_⟩
  · rintro rfl u hrun
    have habandoned : (u.jobs j).submission = .abandoned := by
      refine TransitionSystem.Run.invariant (I := fun u => (u.jobs j).submission = .abandoned)
        (fun _ _ _ hi hst => abandoned_step hi hst) hrun ?_
      cases hst with
      | abandon => simp
    exact unsent_of_abandoned (hreach.run hrun) habandoned
  · rintro rfl hchecks u hrun
    have hskips : ∃ reason, Skips reason t j := by
      cases hst with
      | dropAsyncTask =>
        refine ⟨(s.jobs j).token.state.getD .cancelled,
          skips_of_unchecked hreach ?_ (by simpa [State.beginFire] using hchecks)⟩
        simpa [State.beginFire] using
          CancelToken.compareExchange_state (s.jobs j).token .cancelled
      | dropSyncTask hsync =>
        rw [hfront] at hsync
        cases hsync
    obtain ⟨reason, hskips⟩ := hskips
    exact (TransitionSystem.Run.invariant (I := fun u => Skips reason u j)
      (fun _ _ _ hi hst => skips_step hi hst) hrun hskips).invoked
  · refine not_issues_of_answered hs hanswered (TransitionSystem.Run.trans ?_ hrun) hst'
    exact (TransitionSystem.Run.refl s).tail hst

lemma detach_runs {s t : State J K V} {j : J} (hs : (isle cfg).Reachable s)
    (hst : Step cfg s (.detachTask j) t) : DetachRuns cfg s t j := by
  have hreach := hs.tail hst
  have hdetached : (t.jobs j).holder = .detached ∧ (t.jobs j).submission = .accepted := by
    cases hst with
    | detachTask _ hsub => simpa using hsub
  refine ⟨?_, fun u v hrun => ?_, fun u hrun => (detached_run hdetached hrun).2,
    fun u hrun hexit => ?_, fun u v w hrun habort hload hrun' => ?_⟩
  · cases hst with
    | detachTask =>
      exact ⟨⟨rfl, rfl, rfl, fun i hi => Function.update_of_ne hi _ _, fun i hi => rfl⟩, rfl, rfl⟩
  · have hholder := (detached_run hdetached hrun).1.1
    refine ⟨fun hdrop => ?_, fun hdead => ?_⟩
    · cases hdrop with
      | dropAsyncTask _ _ _ hheld | dropSyncTask _ _ hheld =>
        rw [hholder] at hheld
        cases hheld
    · cases hdead with
      | deadline _ _ hheld =>
        rw [hholder] at hheld
        cases hheld
  · have hsub := (detached_run hdetached hrun).1.2
    have hsent := ((link_reachable (hreach.run hrun)).accepted j).mpr hsub
    have hall : u.chan.received = u.chan.sent :=
      ((mailbox_inv (hreach.run hrun)).disconnected hexit).2
    rwa [hall]
  · intro hfires
    have hv := (hreach.run hrun).tail hload
    have hbound : Bound w j := by
      refine TransitionSystem.RunVia.invariant_of (J := fun s => Life s j)
        (I := fun w => Bound w j) (fun s h => life_reachable h j)
        (fun _ _ _ hlife hi _ hst => bound_step hlife hi hst) hv hrun' ?_
      cases hload with
      | loadAbort =>
        refine fun _ => Or.inr (Or.inl ?_)
        simp [habort]
    exact ⟨(life_reachable (hv.run hrun') j).invoked_le, hbound hfires⟩

/-- Drop cancels and detach does not. The drop of a task does what `DropCancels` says and its
detach what `DetachRuns` says. At every time, an interrupt that is issued through the token of a
job falls between the job's attach and its detach and before its response, and a fire spares
everything else; the loop takes the jobs in the order in which they were sent, and the answer of
every job is explained by its own history. If no closure leaves a statement in progress, the
statements that the interrupt aborts are those of its own job. -/
theorem drop_cancels_detach_runs (hfront : cfg.front = .async) {s : State J K V}
    (hs : (isle cfg).Reachable s) (j : J) :
    (∀ l t, Step cfg s l t → l = .dropTask j ∨ l = .abandon j → DropCancels cfg s t l j) ∧
    (∀ t, Step cfg s (.detachTask j) t → DetachRuns cfg s t j) ∧
    (∀ l t, Step cfg s l t → IssuesInterrupt s t j → s.pc.attached? = some j ∧
      t.pc.attached? = some j ∧ (s.history j).responses = 0 ∧ (l = .fireInterrupt j → Spares s t j)) ∧
    jobsOf s.chan.received <+: jobsOf s.chan.sent ∧
    (∀ i r, (s.jobs i).response = .answered r → Explains (s.history i) r) ∧
    ((∀ i, (cfg.prog i).Balanced 0) → ∀ victim, (victim, Source.token j) ∈ s.cuts →
      victim = .job j) := by
  refine ⟨fun l t hst hl => drop_cancels hfront hs hst hl, fun t hst => detach_runs hs hst,
    fun l t hst hissue => ?_, ?_, fun i r hr => ((life_reachable hs i).answers hr).explains,
    fun hbal => (window_reachable hbal hs).cuts j⟩
  · obtain ⟨hbefore, hafter⟩ := attached_of_issues (attached_reachable hs j) hst hissue
    refine ⟨hbefore, hafter, unanswered_of_attached hs hbefore, ?_⟩
    rintro rfl
    exact spares_of_fire hst
  · rw [s.chan.history, List.append_assoc, jobsOf_append]
    exact List.prefix_append _ _

/-- An asynchronous isle with three jobs that run one statement each. -/
def asyncQueries : Config (Fin 3) ℕ where
  front := .async
  cap := 3
  api := fun _ => .spawnCall
  prog := fun _ => Closure.ofStmts (·.headD 0) [] ["SELECT 1"]

/-- While the second job runs, the tasks of the others are dropped: that of the first one, which has
been answered, and that of the last one, which is queued. -/
theorem drop_cancels_detach_runs_others : ∃ s t u : State (Fin 3) Unit ℕ,
    (isle asyncQueries).Reachable s ∧ s.pc.job? = some 1 ∧ s.conn.inProgress = 1 ∧
      ((t.jobs 0).firing = 1 ∧ ∀ v, Step asyncQueries t (.fireInterrupt 0) v →
        ¬ IssuesInterrupt t v 0) ∧
      (u.history 2).checks = 1 ∧ (u.history 2).invoked = 0 ∧
      (u.jobs 1).response = .answered (.ok 5) := by
  have h0 := TransitionSystem.Reachable.refl (T := isle (K := Unit) asyncQueries)
  have h1 := h0.tail (.submit (j := 0) rfl (by decide) rfl)
  have h2 := h1.tail (.enqueue (j := 0) rfl rfl)
  have h3 := h2.tail (.submit (j := 1) rfl (by decide) rfl)
  have h4 := h3.tail (.enqueue (j := 1) rfl rfl)
  have h5 := h4.tail (.submit (j := 2) rfl (by decide) rfl)
  have h6 := h5.tail (.enqueue (j := 2) rfl rfl)
  have h7 := h6.tail (.recvJob (j := 0) rfl rfl)
  have h8 := h7.tail (.loadAbort (j := 0) rfl)
  have h9 := h8.tail (.queuedCheck (j := 0) rfl)
  have h10 := h9.tail (.attachStore (j := 0) rfl)
  have h11 := h10.tail (.attachCheckNone (j := 0) rfl rfl)
  have h12 := h11.tail (.stmtStart (j := 0) rfl)
  have h13 := h12.tail (.stmtComplete (j := 0) (v := 4) rfl rfl)
  have h14 := h13.tail (.closureRet (j := 0) rfl)
  have h15 := h14.tail (.detach (j := 0) rfl)
  have h16 := h15.tail (.respond (j := 0) rfl)
  have h17 := h16.tail (.recvJob (j := 1) rfl rfl)
  have h18 := h17.tail (.loadAbort (j := 1) rfl)
  have h19 := h18.tail (.queuedCheck (j := 1) rfl)
  have h20 := h19.tail (.attachStore (j := 1) rfl)
  have h21 := h20.tail (.attachCheckNone (j := 1) rfl rfl)
  have h22 := h21.tail (.stmtStart (j := 1) rfl)
  -- the task of the first job
  have hlate := (@drop_cancels_detach_runs _ _ _ _ _ asyncQueries rfl _ h22 0).1 _ _
    (.dropAsyncTask (j := 0) rfl (by decide) (by decide) rfl) (.inl rfl)
  have hquiet v := hlate.answered (by decide) _ (.fireInterrupt 0) v (TransitionSystem.Run.refl _)
  -- the task of the last one
  have hdrop := (@drop_cancels_detach_runs _ _ _ _ _ asyncQueries rfl _ h22 2).1 _ _
    (.dropAsyncTask (j := 2) rfl (by decide) (by decide) rfl) (.inl rfl)
  have r0 := (h22.tail (.dropAsyncTask (j := 2) rfl (by decide) (by decide) rfl)).here
  have r1 := r0.tail (.fireInterrupt (j := 2) (by decide)) trivial
  have r2 := r1.tail (.stmtComplete (j := 1) (v := 5) rfl rfl) trivial
  have r3 := r2.tail (.closureRet (j := 1) rfl) trivial
  have r4 := r3.tail (.detach (j := 1) rfl) trivial
  have r5 := r4.tail (.respond (j := 1) rfl) trivial
  have r6 := r5.tail (.recvJob (j := 2) rfl rfl) trivial
  have r7 := r6.tail (.loadAbort (j := 2) rfl) trivial
  have r8 := r7.tail (.queuedCheck (j := 2) rfl) trivial
  exact ⟨_, _, _, h22, rfl, rfl, ⟨rfl, hquiet⟩, rfl,
    hdrop.queued rfl rfl _ r8, rfl⟩

end RusqliteIsle
