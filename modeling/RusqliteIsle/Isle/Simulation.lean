import RusqliteIsle.Isle.Mailbox

/-!
# The isle simulates its mailbox

The invariant `Link` ties the submissions to the messages of the channel and the callers
to the handles they borrow. With it, every step of the isle is a step of its mailbox or
leaves the mailbox as it was, so that the order in which jobs are served is read off the
mailbox.
-/

namespace RusqliteIsle

set_option linter.unusedSectionVars false

variable {J K V : Type} [DecidableEq J] [DecidableEq K] {cfg : Config J V}

/-- The accepted jobs are the messages that were sent, and a caller that may still send keeps
the handles alive. -/
structure Link (s : State J K V) : Prop where
  accepted : ∀ j, Request.job j ∈ s.chan.sent ↔ (s.jobs j).submission = .accepted
  sending : ∀ j, (s.jobs j).submission = .sending → Sum.inl j ∈ s.borrowers
  calling : ∀ k, s.calls k ≠ .idle → s.calls k ≠ .returned → Sum.inr k ∈ s.borrowers
  gone : s.handles = 0 → s.borrowers = ∅
  dropping : s.dropping = true → s.borrowers = ∅
  alive : s.chan.alive = !s.pc.isFinished

lemma link_init : Link (State.init cfg : State J K V) := by
  constructor <;> simp [State.init, Job.unborn, Pc.isFinished]

lemma Link.aside {s t : State J K V} (hi : Link s) (hsent : t.chan.sent = s.chan.sent)
    (hsub : ∀ j, (t.jobs j).submission = (s.jobs j).submission)
    (hborrow : t.borrowers = s.borrowers) (hcalls : t.calls = s.calls)
    (hhandles : t.handles = s.handles) (hdrop : t.dropping = s.dropping)
    (halive : t.chan.alive = !t.pc.isFinished) : Link t := by
  refine ⟨?_, ?_, ?_, ?_, ?_, halive⟩
  · simpa only [hsent, hsub] using hi.accepted
  · simpa only [hsub, hborrow] using hi.sending
  · simpa only [hcalls, hborrow] using hi.calling
  · simpa only [hhandles, hborrow] using hi.gone
  · simpa only [hdrop, hborrow] using hi.dropping

lemma Link.local {s t : State J K V} (hi : Link s) (hchan : t.chan = s.chan)
    (hsub : ∀ j, (t.jobs j).submission = (s.jobs j).submission)
    (hborrow : t.borrowers = s.borrowers) (hcalls : t.calls = s.calls)
    (hhandles : t.handles = s.handles) (hdrop : t.dropping = s.dropping)
    (hpc : t.pc.isFinished = s.pc.isFinished) : Link t :=
  hi.aside (by rw [hchan]) hsub hborrow hcalls hhandles hdrop (by rw [hchan, hpc, hi.alive])

lemma Link.shutdown_sent {s : State J K V} (hi : Link s) {w : Bool} {ch : Fifo (Request J)}
    (hpush : s.chan.push? w .shutdown = some ch) :
    (∀ j, Request.job j ∈ ch.sent ↔ (s.jobs j).submission = .accepted) ∧
      ch.alive = !s.pc.isFinished := by
  have hp := Fifo.push?_some hpush
  refine ⟨?_, by rw [hp.alive, ← hi.alive, hp.was_alive]⟩
  simpa [hp.sent] using hi.accepted

lemma Link.submit {s : State J K V} {j : J} {job : Job V} (hi : Link s)
    (hsub : (s.jobs j).submission = .unborn) (hjob : job.submission = .sending)
    (hhandle : 0 < s.handles) (hdrop : s.dropping = false) :
    Link { s with
      borrowers := insert (.inl j) s.borrowers
      jobs := Function.update s.jobs j job } := by
  refine ⟨fun i => ?_, fun i hsend => ?_, fun k h h' => ?_, fun h => ?_, fun h => ?_, hi.alive⟩
  · by_cases hij : i = j
    · subst hij
      simp [hi.accepted, hsub, hjob]
    · simp [hi.accepted, hij]
  · by_cases hij : i = j
    · subst hij
      exact Finset.mem_insert_self _ _
    · simp only [Function.update_of_ne hij] at hsend
      exact Finset.mem_insert_of_mem (hi.sending i hsend)
  · exact Finset.mem_insert_of_mem (hi.calling k h h')
  · exact absurd h hhandle.ne'
  · rw [show s.dropping = true from h] at hdrop
    cases hdrop

/-- A submission ends: its message is in the channel exactly if it was accepted, and its caller
gives the handle back. -/
lemma Link.submitted {s t : State J K V} {j : J} (hi : Link s)
    (hsent : Request.job j ∈ t.chan.sent ↔ (t.jobs j).submission = .accepted)
    (hother : ∀ i, i ≠ j → (Request.job i ∈ t.chan.sent ↔ Request.job i ∈ s.chan.sent) ∧
      t.jobs i = s.jobs i)
    (hj : (t.jobs j).submission ≠ .sending) (hborrow : t.borrowers = s.borrowers.erase (.inl j))
    (hcalls : t.calls = s.calls) (hhandles : t.handles = s.handles)
    (hdrop : t.dropping = s.dropping) (halive : t.chan.alive = !t.pc.isFinished) : Link t := by
  refine ⟨fun i => ?_, fun i hsend => ?_, fun k h h' => ?_, fun h => ?_, fun h => ?_, halive⟩
  · by_cases hij : i = j
    · exact hij ▸ hsent
    · rw [(hother i hij).1, (hother i hij).2]
      exact hi.accepted i
  · by_cases hij : i = j
    · exact absurd (hij ▸ hsend) hj
    · rw [(hother i hij).2] at hsend
      rw [hborrow]
      exact Finset.mem_erase.mpr ⟨fun h => hij (Sum.inl_injective h), hi.sending i hsend⟩
  · rw [hcalls] at h h'
    rw [hborrow]
    exact Finset.mem_erase.mpr ⟨Sum.inr_ne_inl, hi.calling k h h'⟩
  · rw [hborrow, hi.gone (hhandles ▸ h), Finset.erase_empty]
  · rw [hborrow, hi.dropping (hdrop ▸ h), Finset.erase_empty]

lemma Link.failed {s t : State J K V} {j : J} (hi : Link s)
    (hsub : (s.jobs j).submission = .sending) (hchan : t.chan = s.chan)
    (hother : ∀ i, i ≠ j → t.jobs i = s.jobs i) (hj : (t.jobs j).submission ≠ .sending)
    (hj' : (t.jobs j).submission ≠ .accepted)
    (hborrow : t.borrowers = s.borrowers.erase (.inl j)) (hcalls : t.calls = s.calls)
    (hhandles : t.handles = s.handles) (hdrop : t.dropping = s.dropping)
    (hpc : t.pc = s.pc) : Link t := by
  refine hi.submitted ?_ (fun i hij => ⟨by rw [hchan], hother i hij⟩) hj hborrow hcalls hhandles
    hdrop (by rw [hchan, hpc, hi.alive])
  rw [hchan, hi.accepted j, hsub]
  exact iff_of_false (by simp) hj'

lemma Link.call_on {s : State J K V} {k : K} (hi : Link s) (hk : s.calls k ≠ .idle)
    (hk' : s.calls k ≠ .returned) (call : ShutdownCall) (i : K) :
    Function.update s.calls k call i ≠ .idle → Function.update s.calls k call i ≠ .returned →
      Sum.inr i ∈ s.borrowers := by
  by_cases hik : i = k
  · subst hik
    exact fun _ _ => hi.calling i hk hk'
  · rw [Function.update_of_ne hik]
    exact hi.calling i

lemma Link.call_ends {s : State J K V} {k : K} (hi : Link s) :
    Link { s with
      borrowers := s.borrowers.erase (.inr k)
      calls := Function.update s.calls k .returned } := by
  refine ⟨hi.accepted, fun j h => ?_, fun i h h' => ?_, fun h => ?_, fun h => ?_, hi.alive⟩
  · exact Finset.mem_erase.mpr ⟨Sum.inl_ne_inr, hi.sending j h⟩
  · by_cases hik : i = k
    · subst hik
      exact absurd (Function.update_self _ _ _) h'
    · simp only [Function.update_of_ne hik] at h h'
      exact Finset.mem_erase.mpr ⟨fun h => hik (Sum.inr_injective h), hi.calling i h h'⟩
  · dsimp only
    rw [hi.gone h, Finset.erase_empty]
  · dsimp only
    rw [hi.dropping h, Finset.erase_empty]

lemma link_step {s t : State J K V} {l : Label J K V} (hi : Link s) (hs : Step cfg s l t) :
    Link t := by
  cases hs with
  | recvJob hpc hpop | recvShutdown hpc hpop =>
    have hp := Fifo.pop?_some hpop
    have halive := hi.alive
    rw [hpc] at halive
    exact hi.aside hp.sent (fun _ => rfl) rfl rfl rfl rfl (hp.alive.trans halive)
  | recvDisconnected hpc | attachCheckNone hpc | attachCheckFired hpc | attachInterrupt hpc
  | stmtStart hpc | stmtComplete hpc | stmtFail hpc | stmtAbort hpc | closureRet hpc
  | closurePanic hpc | normalizeAbort hpc | healthStart hpc | healthPass hpc | healthFail hpc
  | signalDone _ hpc =>
    exact hi.local rfl (fun _ => rfl) rfl rfl rfl rfl (by rw [hpc]; rfl)
  | loadAbort hpc | queuedCheck hpc | normalizeToken hpc =>
    refine hi.local rfl (fun _ => rfl) rfl rfl rfl rfl ?_
    rw [hpc]
    dsimp only
    split <;> rfl
  | discard hpc | attachStore hpc =>
    exact hi.local rfl (update_field Job.submission s.jobs (by rfl)) rfl rfl rfl rfl (by rw [hpc]; rfl)
  | detach hpc =>
    refine hi.local rfl (update_field Job.submission s.jobs (by rfl)) rfl rfl rfl rfl ?_
    rw [hpc]
    exact Pc.afterDetach_isFinished _ _
  | @respond _ _ outcome hpc =>
    refine hi.local rfl (update_field Job.submission s.jobs (by rfl)) rfl rfl rfl rfl ?_
    rw [hpc]
    cases outcome <;> rfl
  | threadFinish hpc =>
    exact hi.aside rfl s.dropQueued_submission rfl rfl rfl rfl rfl
  | observe | dropSyncTask | detachTask | fireInterrupt =>
    exact hi.local rfl (update_field Job.submission s.jobs (by rfl)) rfl rfl rfl rfl rfl
  | cancel => exact hi.local rfl (s.beginFire_submission _ _) rfl rfl rfl rfl rfl
  | deadline | dropAsyncTask =>
    refine hi.local rfl (fun i => ?_) rfl rfl rfl rfl rfl
    rw [State.beginFire_submission]
    exact update_field Job.submission s.jobs (by rfl) i
  | driverShutdown | driverShutdownNow | driverStore | driverInterrupt | driverSendClosed
  | driverDone | driverJoin | driverDrop =>
    exact hi.local rfl (fun _ => rfl) rfl rfl rfl rfl rfl
  | driverSend _ hpush =>
    obtain ⟨hacc, halive⟩ := hi.shutdown_sent hpush
    exact ⟨hacc, hi.sending, hi.calling, hi.gone, hi.dropping, halive⟩
  | dropIsleSent _ _ hborrow _ hpush =>
    obtain ⟨hacc, halive⟩ := hi.shutdown_sent hpush
    exact ⟨hacc, hi.sending, hi.calling, hi.gone, fun _ => hborrow, halive⟩
  | dropIsleFull _ _ hborrow =>
    exact ⟨hi.accepted, hi.sending, hi.calling, hi.gone, fun _ => hborrow, hi.alive⟩
  | dropIsleTx _ hdrop =>
    exact ⟨hi.accepted, hi.sending, hi.calling, fun _ => hi.dropping hdrop, hi.dropping, hi.alive⟩
  | cloneHandle =>
    exact ⟨hi.accepted, hi.sending, hi.calling, by simp, hi.dropping, hi.alive⟩
  | dropHandle _ hhandle hborrow =>
    refine ⟨hi.accepted, hi.sending, hi.calling, fun h => ?_, hi.dropping, hi.alive⟩
    rcases hborrow with hb | hb
    · exact hb
    · dsimp only at h
      omega
  | shutSend hk hpush =>
    obtain ⟨hacc, halive⟩ := hi.shutdown_sent hpush
    exact ⟨hacc, hi.sending, hi.call_on (by simp [hk]) (by simp [hk]) _, hi.gone, hi.dropping,
      halive⟩
  | shutSendClosed hk | shutTake hk =>
    exact ⟨hi.accepted, hi.sending, hi.call_on (by simp [hk]) (by simp [hk]) _, hi.gone,
      hi.dropping, hi.alive⟩
  | shutSkip | shutJoin => exact hi.call_ends
  | @shutCall k hfront hcall hhandle hdrop =>
    refine ⟨hi.accepted, fun j h => ?_, fun i h h' => ?_, fun h => ?_, fun h => ?_, hi.alive⟩
    · exact Finset.mem_insert_of_mem (hi.sending j h)
    · by_cases hik : i = k
      · subst hik
        exact Finset.mem_insert_self _ _
      · simp only [Function.update_of_ne hik] at h h'
        exact Finset.mem_insert_of_mem (hi.calling i h h')
    · exact absurd h hhandle.ne'
    · rw [show s.dropping = true from h] at hdrop
      cases hdrop
  | submit hsub hhandle hdrop => exact hi.submit hsub rfl hhandle hdrop
  | @enqueue j ch hsub hpush =>
    have hp := Fifo.push?_some hpush
    refine hi.submitted (j := j) ?_ (fun i hij => ⟨?_, Function.update_of_ne hij _ _⟩) (by simp) rfl
      rfl rfl rfl ?_
    · simp [hp.sent]
    · simp [hp.sent, hij]
    · exact hp.alive.trans (hp.was_alive.symm.trans hi.alive)
  | refuseClosed hsub | refuseFull hsub =>
    refine hi.failed hsub rfl (fun i hij => Function.update_of_ne hij _ _) ?_ ?_ rfl rfl rfl rfl rfl <;>
      simp [State.refuse]
  | abandon _ hsub =>
    refine hi.failed hsub rfl (fun i hij => Function.update_of_ne hij _ _) ?_ ?_ rfl rfl rfl rfl rfl <;>
      simp

theorem link_reachable {s : State J K V} (h : (isle cfg).Reachable s) : Link s :=
  TransitionSystem.Reachable.invariant (I := Link) link_init (fun _ _ _ => link_step) h

/-- The mailbox of an isle. -/
def State.mailbox (s : State J K V) : Mailbox J where
  chan := s.chan
  current := s.pc.job?
  exit := s.pc.exit?
  gone := s.sendersGone

lemma Link.not_gone_of_sending {s : State J K V} (hi : Link s) {j : J}
    (h : (s.jobs j).submission = .sending) : s.sendersGone = false := by
  have hb := hi.sending j h
  have hne : s.handles ≠ 0 := by
    intro h0
    rw [hi.gone h0] at hb
    simp at hb
  simp [State.sendersGone, hne]

lemma Link.not_gone_of_calling {s : State J K V} (hi : Link s) {k : K}
    (h : s.calls k = .sending) : s.sendersGone = false := by
  have hb := hi.calling k (by simp [h]) (by simp [h])
  have hne : s.handles ≠ 0 := by
    intro h0
    rw [hi.gone h0] at hb
    simp at hb
  simp [State.sendersGone, hne]

lemma mailbox_leave {m : Mailbox J} {gone : Bool} (h : m.gone = true → gone = true) :
    { m with gone := gone } = m ∨ ∃ e, Mailbox.Step m e { m with gone := gone } := by
  cases gone with
  | true => exact Or.inr ⟨.leave, .leave⟩
  | false =>
    have hf : m.gone = false := by
      cases hm : m.gone with
      | false => rfl
      | true => exact absurd (h hm) (by simp)
    left
    rw [← hf]

lemma mailbox_of_pc {s : State J K V} {pc : Pc J V} (hpc : s.pc = pc) :
    s.mailbox = ⟨s.chan, pc.job?, pc.exit?, s.sendersGone⟩ := by
  rw [← hpc]
  rfl

lemma step_mailbox {s t : State J K V} {l : Label J K V} (hi : Link s) (hs : Step cfg s l t) :
    t.mailbox = s.mailbox ∨ ∃ e, Mailbox.Step s.mailbox e t.mailbox := by
  cases hs with
  | recvJob hpc hpop =>
    rw [mailbox_of_pc hpc]
    exact Or.inr ⟨_, .take rfl rfl hpop⟩
  | recvShutdown hpc hpop =>
    rw [mailbox_of_pc hpc]
    exact Or.inr ⟨_, .stop rfl rfl hpop⟩
  | recvDisconnected hpc hempty hgone =>
    have halive : s.chan.alive = true := by simpa [hpc, Pc.isFinished] using hi.alive
    rw [mailbox_of_pc hpc]
    exact Or.inr ⟨_, .disconnect rfl rfl hgone hempty halive⟩
  | discard hpc =>
    rw [mailbox_of_pc hpc]
    exact Or.inr ⟨_, .release rfl⟩
  | @respond j r outcome hpc =>
    rw [mailbox_of_pc hpc]
    cases outcome with
    | completed => exact Or.inr ⟨_, .release rfl⟩
    | panicked => exact Or.inr ⟨_, .release rfl⟩
  | healthFail hpc =>
    rw [mailbox_of_pc hpc]
    exact Or.inr ⟨_, .fail rfl rfl⟩
  | @threadFinish why hpc =>
    have hm : s.mailbox = ⟨s.chan, none, some why, s.sendersGone⟩ := by
      rcases hpc with ⟨_, hpc⟩ | hpc <;> exact mailbox_of_pc hpc
    rw [hm]
    exact Or.inr ⟨_, .close (by simp)⟩
  | @enqueue j ch hsub hpush =>
    have hnew : Request.job j ∉ s.chan.sent := by
      rw [hi.accepted j, hsub]
      simp
    refine Or.inr ⟨_, .accept (m := s.mailbox) (hi.not_gone_of_sending hsub) ?_ hpush⟩
    rintro i hij
    cases hij
    exact hnew
  | dropIsleSent hfront hhandle hborrow hd hpush =>
    have hgone : s.sendersGone = false := by simp [State.sendersGone, hhandle.ne']
    exact Or.inr ⟨_, .accept (m := s.mailbox) hgone (by simp) hpush⟩
  | shutSend hk hpush =>
    exact Or.inr ⟨_, .accept (m := s.mailbox) (hi.not_gone_of_calling hk) (by simp) hpush⟩
  | driverSend hd hpush =>
    have hgone : s.sendersGone = false := by simp [State.sendersGone, hd, Driver.released]
    have hgone' : (decide (s.handles = 0) && Driver.awaiting.released) = s.sendersGone := by
      simp [hgone, Driver.released]
    right
    change ∃ e, Mailbox.Step s.mailbox e ⟨_, _, _, decide (s.handles = 0) && Driver.awaiting.released⟩
    rw [hgone']
    exact ⟨_, .accept (m := s.mailbox) hgone (by simp) hpush⟩
  | dropHandle hfront hhandle hborrow =>
    exact mailbox_leave (m := s.mailbox) (by simp [State.mailbox, State.sendersGone]; omega)
  | dropIsleTx hfront hd =>
    exact mailbox_leave (m := s.mailbox) (by simp [State.mailbox, State.sendersGone])
  | driverJoin hd hfin =>
    exact mailbox_leave (m := s.mailbox)
      (by simp [State.mailbox, State.sendersGone, hd, Driver.released])
  | driverDrop hd =>
    exact mailbox_leave (m := s.mailbox)
      (by simp +contextual [State.mailbox, State.sendersGone, Driver.released])
  | loadAbort hpc | queuedCheck hpc | normalizeToken hpc =>
    rw [mailbox_of_pc hpc]
    left
    dsimp only [State.mailbox]
    split <;> rfl
  | detach hpc =>
    rw [mailbox_of_pc hpc]
    left
    simp only [State.mailbox, Pc.afterDetach_job?, Pc.afterDetach_exit?]
    rfl
  | cloneHandle hfront hhandle =>
    left
    simp [State.mailbox, State.sendersGone, hhandle.ne']
  | driverShutdown hd | driverShutdownNow hd | driverStore hd | driverInterrupt hd
  | driverSendClosed hd | driverDone hd =>
    left
    simp only [State.mailbox, State.sendersGone, hd, Driver.released]
  | attachStore hpc | attachCheckNone hpc | attachCheckFired hpc | attachInterrupt hpc
  | stmtStart hpc | stmtComplete hpc | stmtFail hpc | stmtAbort hpc | closureRet hpc
  | closurePanic hpc | normalizeAbort hpc | healthStart hpc | healthPass hpc
  | signalDone _ hpc =>
    rw [mailbox_of_pc hpc]
    exact Or.inl rfl
  | _ => exact Or.inl rfl

/-- The isle simulates its mailbox. -/
theorem mailbox_simulation : TransitionSystem.Simulation (isle cfg)
    (Mailbox.system (J := J) cfg.cap) (State.mailbox (K := K)) Link (fun _ => True) where
  init := by simp [isle, State.init, State.mailbox, Mailbox.system, State.sendersGone, Pc.job?, Pc.exit?]
  back _ _ _ _ _ := trivial
  step _ _ _ hi _ hs := step_mailbox hi hs

theorem mailbox_inv {s : State J K V} (h : (isle cfg).Reachable s) : s.mailbox.Inv :=
  Mailbox.inv_reachable (mailbox_simulation.reachable (fun _ => link_reachable) h trivial)

lemma accepted_of_current {s : State J K V} (h : (isle cfg).Reachable s) {j : J}
    (hcur : s.pc.job? = some j) : (s.jobs j).submission = .accepted :=
  ((link_reachable h).accepted j).mp
    (Fifo.mem_sent_of_received ((mailbox_inv h).current j hcur))

end RusqliteIsle
