import RusqliteIsle.Isle.Life

/-!
# The window of a token

A token holds the interrupt handle from the store of `attach` to the store of `detach`.
When every closure ends the statements it starts, a mark that a token has set during a
statement is gone before a statement of anyone else is in progress.
-/

namespace RusqliteIsle

set_option linter.unusedSectionVars false

variable {J K V : Type} [DecidableEq J] [DecidableEq K] {cfg : Config J V}

/-- The handle is on the token exactly while the thread is between `attach` and `detach`, and a
call of `fire` has exchanged the state before anything else. -/
structure Attached (s : State J K V) (j : J) : Prop where
  handle : (s.jobs j).token.handle ≠ none ↔ s.pc.attached? = some j
  fired : 0 < (s.jobs j).firing ∨ 0 < (s.history j).fired → (s.jobs j).token.state ≠ none

lemma Pc.job?_of_attached? {pc : Pc J V} {j : J} (h : pc.attached? = some j) :
    pc.job? = some j := by
  cases pc <;> first | exact h | cases h

namespace Attached

variable {s t : State J K V} {j : J}

lemma of_frame (hi : Attached s j) (hf : Frame s t j) : Attached t j := by
  refine ⟨?_, by rw [hf.history, hf.job]; exact hi.fired⟩
  rw [hf.job, hi.handle]
  constructor
  · intro h
    rwa [hf.pc (Pc.job?_of_attached? h)]
  · intro h
    rwa [← hf.pc (hf.current (Pc.job?_of_attached? h))]

lemma keep (hi : Attached s j) (htoken : (t.jobs j).token = (s.jobs j).token)
    (hfiring : (t.jobs j).firing = (s.jobs j).firing)
    (hfired : (t.history j).fired = (s.history j).fired)
    (hatt : t.pc.attached? = s.pc.attached?) : Attached t j := by
  refine ⟨?_, ?_⟩
  · rw [htoken, hatt]
    exact hi.handle
  · rw [hfiring, hfired, htoken]
    exact hi.fired

end Attached

lemma attached_init (j : J) : Attached (State.init cfg : State J K V) j := by
  constructor <;> simp [State.init, Job.unborn, History.blank, Pc.attached?]

lemma compareExchange_fired (token : CancelToken) (reason : FireReason) :
    (token.compareExchange reason).state ≠ none := by
  simp [CancelToken.compareExchange_state]

lemma attached_step {s t : State J K V} {l : Label J K V} {j : J} (hi : Attached s j)
    (hs : Step cfg s l t) : Attached t j := by
  obtain rfl | hf | hl := step_about hs j
  · cases hs with
    | threadFinish hpc =>
      refine ⟨?_, by simpa [State.dropQueued_firing] using hi.fired⟩
      have hatt : s.pc.attached? = none := by
        rcases hpc with ⟨_, hpc⟩ | hpc <;> rw [hpc] <;> rfl
      rw [s.dropQueued_token, hi.handle, hatt]
      rfl
  · exact hi.of_frame hf
  cases hs with
  | attachStore hpc =>
    cases hl
    exact ⟨by simp [Pc.attached?], by simpa using hi.fired⟩
  | @detach _ result hpc =>
    cases hl
    refine ⟨?_, by simpa using hi.fired⟩
    rw [Pc.afterDetach_attached?]
    simp
  | loadAbort hpc | queuedCheck hpc | normalizeToken hpc =>
    cases hl
    refine hi.keep rfl rfl (by simp) ?_
    rw [hpc]
    dsimp only
    split <;> rfl
  | @respond _ _ outcome hpc =>
    cases hl
    refine hi.keep (by simp) (by simp) (by simp) ?_
    rw [hpc]
    cases outcome <;> rfl
  | recvJob hpc | discard hpc | attachCheckNone hpc | attachCheckFired hpc | attachInterrupt hpc
  | stmtStart hpc | stmtComplete hpc | stmtFail hpc | stmtAbort hpc | closureRet hpc
  | closurePanic hpc | normalizeAbort hpc =>
    cases hl
    exact hi.keep (by simp [State.invoke]) (by simp [State.invoke]) (by simp [State.invoke])
      (by rw [hpc]; rfl)
  | submit | enqueue | refuseClosed | refuseFull | abandon | observe | dropSyncTask | detachTask =>
    cases hl
    exact hi.keep (by simp [State.refuse]) (by simp [State.refuse]) rfl rfl
  | deadline | cancel | dropAsyncTask =>
    cases hl
    refine ⟨?_, fun _ => ?_⟩
    · simpa [State.beginFire] using hi.handle
    · simp only [State.beginFire, Function.update_self]
      exact compareExchange_fired _ _
  | fireInterrupt hfiring =>
    cases hl
    exact ⟨by simpa using hi.handle, fun _ => by simpa using hi.fired (Or.inl hfiring)⟩
  | _ => cases hl

theorem attached_reachable {s : State J K V} (h : (isle cfg).Reachable s) (j : J) :
    Attached s j :=
  TransitionSystem.Reachable.invariant (I := fun s => Attached s j) (attached_init j)
    (fun _ _ _ => attached_step) h

lemma state_step {s t : State J K V} {l : Label J K V} {j : J} {reason : FireReason}
    (hs : Step cfg s l t) (h : (s.jobs j).token.state = some reason) :
    (t.jobs j).token.state = some reason := by
  obtain rfl | hf | hl := step_about hs j
  · cases hs with
    | threadFinish => simpa using h
  · rw [hf.job]
    exact h
  cases hs with
  | deadline | cancel | dropAsyncTask =>
    cases hl
    simpa [State.beginFire] using CancelToken.compareExchange_state_of_fired h
  | attachStore | detach | discard | respond | submit | enqueue | abandon | observe
  | dropSyncTask | detachTask | fireInterrupt =>
    cases hl
    simpa using h
  | refuseClosed | refuseFull =>
    cases hl
    simpa [State.refuse] using h
  | threadFinish => cases hl
  | _ => exact h

/-- The statements in progress at a position of the thread. -/
def Depth (n : ℕ) : Pc J V → Prop
  | .closure _ c => c.Balanced n
  | .healthFinish => n = 1
  | _ => n = 0

/-- The marks of a token that could abort a statement are set while the closure of its job runs. -/
structure Window (s : State J K V) : Prop where
  depth : Depth s.conn.inProgress s.pc
  mark : ∀ j, Source.token j ∈ s.conn.mark → 0 < s.conn.inProgress → ∃ c, s.pc = .closure j c
  cuts : ∀ j v, (v, Source.token j) ∈ s.cuts → v = .job j

lemma window_init : Window (State.init cfg : State J K V) := by
  constructor <;> simp [State.init, Depth]

lemma depth_afterDetach (j : J) (result : Caught V) : Depth 0 (Pc.afterDetach j result) := by
  unfold Pc.afterDetach
  split
  · rfl
  · split <;> rfl
  · rfl

namespace Window

variable {s t : State J K V}

lemma outside (hi : Window s) (hconn : t.conn = s.conn) (hzero : s.conn.inProgress = 0)
    (hdepth : Depth 0 t.pc) (hcuts : t.cuts = s.cuts) : Window t := by
  refine ⟨?_, ?_, ?_⟩
  · rw [hconn, hzero]
    exact hdepth
  · intro j _ hpos
    rw [hconn, hzero] at hpos
    exact absurd hpos (lt_irrefl 0)
  · rw [hcuts]
    exact hi.cuts

lemma aside (hi : Window s) (hpc : t.pc = s.pc) (hconn : t.conn = s.conn)
    (hcuts : t.cuts = s.cuts) : Window t := by
  refine ⟨?_, ?_, ?_⟩
  · rw [hconn, hpc]
    exact hi.depth
  · rw [hconn, hpc]
    exact hi.mark
  · rw [hcuts]
    exact hi.cuts

lemma at_pc (hi : Window s) {pc : Pc J V} (hpc : s.pc = pc) : Depth s.conn.inProgress pc :=
  hpc ▸ hi.depth

lemma pos_of_finish (hi : Window s) {j : J} {k : Except RusqliteError V → Closure V}
    (hpc : s.pc = .closure j (.finish k)) : 0 < s.conn.inProgress := by
  have hd : (Closure.finish k).Balanced s.conn.inProgress := hi.at_pc hpc
  cases hn : s.conn.inProgress with
  | zero =>
    rw [hn] at hd
    exact hd.elim
  | succ n => exact Nat.succ_pos n

lemma stmt_finish (hi : Window s) {j : J} {k : Except RusqliteError V → Closure V}
    (hpc : s.pc = .closure j (.finish k)) (r : Except RusqliteError V)
    (hpc' : t.pc = .closure j (k r))
    (hmark : t.conn.mark = s.conn.mark) (hdepth : t.conn.inProgress = s.conn.inProgress - 1)
    (hcuts : ∀ i v, (v, Source.token i) ∈ t.cuts → v = .job i) : Window t := by
  have hd : (Closure.finish k).Balanced s.conn.inProgress := hi.at_pc hpc
  obtain ⟨n, hn⟩ := Nat.exists_eq_add_of_lt (hi.pos_of_finish hpc)
  rw [show s.conn.inProgress = n + 1 by omega] at hd hdepth
  refine ⟨?_, ?_, hcuts⟩
  · rw [hpc', hdepth]
    exact hd r
  · intro i hm _
    rw [hmark] at hm
    obtain ⟨c, hc⟩ := hi.mark i hm (hi.pos_of_finish hpc)
    rw [hpc] at hc
    cases hc
    exact ⟨_, hpc'⟩

lemma closure_of_attached (hi : Window s) {j : J} (hatt : s.pc.attached? = some j)
    (hpos : 0 < s.conn.inProgress) : ∃ c, s.pc = .closure j c := by
  have hd := hi.depth
  cases hpc : s.pc with
  | closure i c =>
    rw [hpc] at hatt
    cases hatt
    exact ⟨c, rfl⟩
  | attachCheck | attachInterrupt | detach =>
    rw [hpc] at hd
    exact absurd hd hpos.ne'
  | _ =>
    rw [hpc] at hatt
    cases hatt

end Window

lemma window_step {s t : State J K V} {l : Label J K V} (hbal : ∀ j, (cfg.prog j).Balanced 0)
    (hatt : ∀ j, Attached s j) (hi : Window s) (hs : Step cfg s l t) : Window t := by
  have hzero {pc : Pc J V} (hpc : s.pc = pc)
      (h : Depth s.conn.inProgress pc → s.conn.inProgress = 0) : s.conn.inProgress = 0 :=
    h (hi.at_pc hpc)
  cases hs with
  | recvJob hpc | recvShutdown hpc | recvDisconnected hpc | discard hpc | attachStore hpc
  | attachCheckFired hpc | closureRet hpc | closurePanic hpc | normalizeAbort hpc
  | signalDone _ hpc =>
    exact hi.outside rfl (hzero hpc id) rfl rfl
  | loadAbort hpc | queuedCheck hpc | normalizeToken hpc =>
    refine hi.outside rfl (hzero hpc id) ?_ rfl
    dsimp only
    split <;> rfl
  | @respond _ _ outcome hpc =>
    refine hi.outside rfl (hzero hpc id) ?_ rfl
    cases outcome <;> rfl
  | @detach i result hpc => exact hi.outside rfl (hzero hpc id) (depth_afterDetach i result) rfl
  | threadFinish hpc =>
    have h0 : s.conn.inProgress = 0 := by
      rcases hpc with ⟨_, hpc⟩ | hpc <;> exact hzero hpc id
    exact hi.outside rfl h0 rfl rfl
  | @attachCheckNone i hpc | @attachInterrupt i hpc =>
    have h0 := hzero hpc id
    refine ⟨?_, by simp [State.invoke, h0], hi.cuts⟩
    simpa [State.invoke, Depth, h0] using hbal i
  | @stmtStart i sql c hpc =>
    have hd : (Closure.start sql c).Balanced s.conn.inProgress := hi.at_pc hpc
    refine ⟨hd, ?_, hi.cuts⟩
    intro j hj _
    obtain ⟨hm, hpos⟩ := Engine.mem_mark_of_start hj
    obtain ⟨c', hc⟩ := hi.mark j hm hpos
    rw [hpc] at hc
    cases hc
    exact ⟨c, rfl⟩
  | stmtComplete hpc | stmtFail hpc => exact hi.stmt_finish hpc _ rfl rfl rfl hi.cuts
  | @stmtAbort i k hpc hmark =>
    refine hi.stmt_finish hpc _ rfl rfl rfl ?_
    intro j v hv
    rcases List.mem_append.mp hv with hv | hv
    · obtain ⟨x, hx, hxv⟩ := List.mem_map.mp hv
      cases hxv
      obtain ⟨c, hc⟩ := hi.mark j hx (hi.pos_of_finish hpc)
      rw [hpc] at hc
      cases hc
      rfl
    · exact hi.cuts j v hv
  | healthStart hpc =>
    have h0 := hzero hpc id
    refine ⟨by simp [Depth, h0], ?_, hi.cuts⟩
    intro j hj
    rw [Engine.start_mark_of_idle h0] at hj
    cases hj
  | healthPass hpc hmark =>
    have h1 : s.conn.inProgress = 1 := hi.at_pc hpc
    exact ⟨by simp [Depth, h1], by simp [h1], hi.cuts⟩
  | healthFail hpc =>
    have h1 : s.conn.inProgress = 1 := hi.at_pc hpc
    refine ⟨by simp [Depth, h1], by simp [h1], ?_⟩
    intro j v hv
    rcases List.mem_append.mp hv with hv | hv
    · obtain ⟨x, hx, hxv⟩ := List.mem_map.mp hv
      cases hxv
      obtain ⟨c, hc⟩ := hi.mark j hx (by omega)
      rw [hpc] at hc
      cases hc
    · exact hi.cuts j v hv
  | @fireInterrupt i hfiring =>
    refine ⟨by simpa using hi.depth, ?_, hi.cuts⟩
    intro j hj hpos
    rw [CancelToken.interruptVia_inProgress] at hpos
    rcases CancelToken.mem_mark_interruptVia hj with hm | ⟨hji, hh⟩
    · exact hi.mark j hm hpos
    · cases hji
      exact hi.closure_of_attached ((hatt _).handle.mp hh) hpos
  | driverInterrupt =>
    refine ⟨hi.depth, ?_, hi.cuts⟩
    intro j hj
    exact hi.mark j (by simpa using hj)
  | _ => exact hi.aside rfl rfl rfl

theorem window_reachable (hbal : ∀ j, (cfg.prog j).Balanced 0) {s : State J K V}
    (h : (isle cfg).Reachable s) : Window s :=
  TransitionSystem.ReachableVia.invariant_of (J := fun s => ∀ j, Attached s j) (I := Window)
    (fun _ h => attached_reachable h) window_init
    (fun _ _ _ hatt hi _ hs => window_step hbal hatt hi hs) h

/-- An interrupt is issued through the token of `j` between `s` and `t`. -/
def IssuesInterrupt (s t : State J K V) (j : J) : Prop :=
  t.conn = s.conn.interrupt (.token j)

lemma attached_of_issues {s t : State J K V} {l : Label J K V} {i : J} (hi : Attached s i)
    (hs : Step cfg s l t) (hissue : IssuesInterrupt s t i) :
    s.pc.attached? = some i ∧ t.pc.attached? = some i := by
  cases hs with
  | fireInterrupt =>
    obtain ⟨hsource, hh⟩ := CancelToken.eq_of_interruptVia hissue
    cases hsource
    have hatt := hi.handle.mp hh
    exact ⟨hatt, hatt⟩
  | attachInterrupt hpc =>
    obtain ⟨hsource, -⟩ := CancelToken.eq_of_interruptVia hissue
    cases hsource
    rw [hpc]
    exact ⟨rfl, rfl⟩
  | driverInterrupt =>
    have hm := (List.cons.inj (congrArg Engine.mark hissue)).1
    cases hm
  | stmtStart | healthStart => exact (Engine.start_ne_interrupt _ _ hissue).elim
  | _ => exact (Engine.interrupt_ne_of_mark (by rfl) _ hissue).elim

/-- Every interrupt that is issued through a token falls between the `attach` and the `detach`
of its job, and no statement of another job or of the health check is aborted by it. -/
theorem token_interrupts_own_job (hbal : ∀ j, (cfg.prog j).Balanced 0) {s : State J K V}
    (hs : (isle cfg).Reachable s) (i : J) :
    (∀ l t, Step cfg s l t → IssuesInterrupt s t i →
      s.pc.attached? = some i ∧ t.pc.attached? = some i) ∧
    ∀ victim, (victim, Source.token i) ∈ s.cuts → victim = .job i :=
  ⟨fun _ _ hst hissue => attached_of_issues (attached_reachable hs i) hst hissue,
    (window_reachable hbal hs).cuts i⟩

/-- The first job is cancelled while its statement is in progress, and once more while the second
one runs. That fire has not come to its critical section yet. -/
lemma twoQueries_cut : ∃ s : State Bool Unit ℕ, (isle twoQueries).Reachable s ∧
    s.cuts = [(.job true, .token true)] ∧ s.pc.attached? = some false ∧
      (s.jobs true).firing = 1 ∧ s.conn.inProgress = 1 := by
  have h0 := TransitionSystem.Reachable.refl (T := isle (K := Unit) twoQueries)
  have h1 := h0.tail (.submit (j := true) rfl (by decide) rfl)
  have h2 := h1.tail (.enqueue (j := true) rfl rfl)
  have h3 := h2.tail (.submit (j := false) rfl (by decide) rfl)
  have h4 := h3.tail (.enqueue (j := false) rfl rfl)
  have h5 := h4.tail (.recvJob (j := true) rfl rfl)
  have h6 := h5.tail (.loadAbort (j := true) rfl)
  have h7 := h6.tail (.queuedCheck (j := true) rfl)
  have h8 := h7.tail (.attachStore (j := true) rfl)
  have h9 := h8.tail (.attachCheckNone (j := true) rfl rfl)
  have h10 := h9.tail (.stmtStart (j := true) rfl)
  have h11 := h10.tail (.cancel (j := true) (by decide))
  have h12 := h11.tail (.fireInterrupt (j := true) (by decide))
  have h13 := h12.tail (.stmtAbort (j := true) rfl rfl)
  have h14 := h13.tail (.closureRet (j := true) rfl)
  have h15 := h14.tail (.detach (j := true) rfl)
  have h16 := h15.tail (.normalizeToken (j := true) rfl)
  have h17 := h16.tail (.respond (j := true) rfl)
  have h18 := h17.tail (.recvJob (j := false) rfl rfl)
  have h19 := h18.tail (.loadAbort (j := false) rfl)
  have h20 := h19.tail (.queuedCheck (j := false) rfl)
  have h21 := h20.tail (.attachStore (j := false) rfl)
  have h22 := h21.tail (.attachCheckNone (j := false) rfl rfl)
  have h23 := h22.tail (.stmtStart (j := false) rfl)
  have h24 := h23.tail (.cancel (j := true) (by decide))
  exact ⟨_, h24, rfl, rfl, rfl, rfl⟩

theorem token_interrupts_own_job_cut : ∃ s : State Bool Unit ℕ,
    s.cuts = [(.job true, .token true)] ∧ (s.jobs true).firing = 1 ∧ s.conn.inProgress = 1 ∧
      (∃ t, Step twoQueries s (.fireInterrupt true) t ∧ ¬ IssuesInterrupt s t true) ∧
      ∀ victim, (victim, Source.token true) ∈ s.cuts → victim = .job true := by
  obtain ⟨s, hs, hcuts, hatt, hfiring, hbusy⟩ := twoQueries_cut
  obtain ⟨hissues, hvictims⟩ :=
    token_interrupts_own_job (fun _ => Closure.ofStmts_balanced _ _ _) hs true
  have hlate : Step twoQueries s (.fireInterrupt true) _ := .fireInterrupt (by rw [hfiring]; decide)
  refine ⟨s, hcuts, hfiring, hbusy, ⟨_, hlate, fun hissue => ?_⟩, hvictims⟩
  have htrue := (hissues _ _ hlate hissue).1
  rw [hatt] at htrue
  cases htrue

end RusqliteIsle
