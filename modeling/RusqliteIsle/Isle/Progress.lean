import RusqliteIsle.Isle.Poll
import RusqliteIsle.Lib.Progress

/-!
# The SQLite thread makes progress

Between two receives the thread only goes forward: towards its next receive, or towards its end.
A request ahead of a job is received only once. So a thread that takes a step whenever one is
possible gets round to every job, and comes to its end once it has been asked to stop.
-/

namespace RusqliteIsle

set_option linter.unusedSectionVars false

/-! ## A rank for the positions of the thread -/

section

variable {J V : Type}

/-- The closure that is left after one interaction with the connection. -/
inductive Closure.Child : Closure V → Closure V → Prop
  | start (sql : String) (next : Closure V) : Child next (.start sql next)
  | finish (next : Except RusqliteError V → Closure V) (r : Except RusqliteError V) :
      Child (next r) (.finish next)

lemma Closure.child_wf : WellFounded (Closure.Child (V := V)) := by
  refine ⟨fun c => ?_⟩
  induction c with
  | ret | panic => exact ⟨_, fun _ h => by cases h⟩
  | start sql next ih =>
    refine ⟨_, fun c h => ?_⟩
    cases h
    exact ih
  | finish next ih =>
    refine ⟨_, fun c h => ?_⟩
    cases h
    exact ih _

namespace Pc

/-- How many positions there are between this one and the end of the thread. -/
def stage : Pc J V → ℕ
  | finished _ => 0
  | signalled _ => 1
  | exited _ => 2
  | next => 3
  | healthFinish | discard _ => 4
  | healthStart => 5
  | respond _ _ _ => 6
  | normalizeAbort _ _ => 7
  | normalizeToken _ _ => 8
  | detach _ _ => 9
  | closure _ _ => 10
  | attachInterrupt _ => 11
  | attachCheck _ => 12
  | attachStore _ => 13
  | queuedCheck _ => 14
  | loadAbort _ => 15

/-- What is left of the closure that runs. -/
def running? : Pc J V → Option (Closure V)
  | closure _ c => some c
  | _ => none

/-- `p` comes after `q` without a receive in between. -/
def After (p q : Pc J V) : Prop :=
  p.stage < q.stage ∨ ∃ j c c', p = closure j c ∧ q = closure j c' ∧ c.Child c'

lemma after_wf : WellFounded (After (J := J) (V := V)) := by
  have hlex : WellFounded (Prod.Lex (fun m n : ℕ => m < n) (Closure.Child (V := V))) :=
    WellFounded.prod_lex wellFounded_lt Closure.child_wf
  have hrank := InvImage.wf
    (fun p : Pc J V => (p.stage, (p.running?).getD (.panic .other))) hlex
  refine Subrelation.wf (fun {p q} h => ?_) hrank
  obtain hlt | ⟨j, c, c', rfl, rfl, hchild⟩ := h
  · exact Prod.Lex.left _ _ hlt
  · exact Prod.Lex.right _ hchild

/-- Where the loop goes with the request it has received. -/
def received : Request J → Pc J V
  | .job j => loadAbort j
  | .shutdown => exited .shutdown

lemma stage_afterDetach (j : J) (result : Caught V) : (afterDetach j result).stage < 9 := by
  obtain ⟨e, h⟩ | ⟨r, outcome, h⟩ := afterDetach_cases j result <;> rw [h] <;> simp [stage]

lemma stage_afterJob (outcome : JobOutcome) : (afterJob (J := J) (V := V) outcome).stage < 6 := by
  cases outcome <;> simp [afterJob, stage]

end Pc

end

variable {J K V : Type} [DecidableEq J] [DecidableEq K] {cfg : Config J V}

/-- The actions of the SQLite thread. -/
def Label.onThread : Label J K V → Bool
  | recvJob _ | recvShutdown | recvDisconnected | loadAbort _ | discard _ | queuedCheck _
  | attachStore _ | attachCheck _ | attachInterrupt _ | stmtStart _ | stmtFinish _ _
  | closureEnd _ | detach _ | normalizeToken _ | normalizeAbort _ | respond _ | healthStart
  | healthFinish _ | signalDone | threadFinish => true
  | _ => false

/-- What a step does to the position of the thread and to the channel. -/
inductive Moves (s t : State J K V) (l : Label J K V) : Prop
  | aside (hl : l.onThread = false) (hpc : t.pc = s.pc) (hchan : t.chan = s.chan)
  | sent {r : Request J} (hl : l.onThread = false) (hpc : t.pc = s.pc)
      (hgone : s.sendersGone = false) (hpush : s.chan.push? s.pc.isReceiving r = some t.chan)
  | received {r : Request J} (hl : l.onThread = true) (hpc : s.pc = .next)
      (hpc' : t.pc = .received r) (hpop : s.chan.pop? = some (r, t.chan))
  | forward (hl : l.onThread = true) (hafter : t.pc.After s.pc) (hchan : t.chan = s.chan)
  | ended (hl : l.onThread = true) (hfin : t.pc.isFinished = true) (hchan : t.chan = s.chan.close)

lemma moves_step {s t : State J K V} {l : Label J K V} (hlink : Link s) (hs : Step cfg s l t) :
    Moves s t l := by
  have lower {pc : Pc J V} (hpc : s.pc = pc) (hl : l.onThread = true)
      (hlt : t.pc.stage < pc.stage) (hchan : t.chan = s.chan) : Moves s t l :=
    .forward hl (Or.inl (hpc ▸ hlt)) hchan
  cases hs with
  | recvJob hpc hpop | recvShutdown hpc hpop => exact .received rfl hpc rfl hpop
  | recvDisconnected hpc | discard hpc | attachStore hpc | attachCheckNone hpc
  | attachCheckFired hpc | attachInterrupt hpc | closureRet hpc | closurePanic hpc
  | normalizeAbort hpc | healthStart hpc | healthPass hpc | healthFail hpc | signalDone _ hpc =>
    exact lower hpc rfl (by simp [Pc.stage, State.invoke]) rfl
  | loadAbort hpc | queuedCheck hpc | normalizeToken hpc =>
    refine lower hpc rfl ?_ rfl
    dsimp only
    split <;> simp [Pc.stage]
  | stmtStart hpc =>
    exact .forward rfl (Or.inr ⟨_, _, _, rfl, hpc, .start _ _⟩) rfl
  | stmtComplete hpc | stmtFail hpc | stmtAbort hpc =>
    exact .forward rfl (Or.inr ⟨_, _, _, rfl, hpc, .finish _ _⟩) rfl
  | detach hpc => exact lower hpc rfl (Pc.stage_afterDetach _ _) rfl
  | respond hpc => exact lower hpc rfl (Pc.stage_afterJob _) rfl
  | threadFinish => exact .ended rfl rfl rfl
  | enqueue hsub hpush => exact .sent rfl rfl (hlink.not_gone_of_sending hsub) hpush
  | dropIsleSent _ hhandle _ _ hpush =>
    exact .sent rfl rfl (by simp [State.sendersGone, hhandle.ne']) hpush
  | shutSend hk hpush => exact .sent rfl rfl (hlink.not_gone_of_calling hk) hpush
  | driverSend hd hpush =>
    exact .sent rfl rfl (by simp [State.sendersGone, hd, Driver.released]) hpush
  | _ => exact .aside rfl rfl rfl

lemma thread_enabled {s : State J K V} (hfin : s.pc.isFinished = false)
    (hnext : s.pc = .next → s.chan.buffer ≠ [] ∨ s.sendersGone = true) :
    (isle cfg).Enabled (fun l => l.onThread = true) s := by
  have enabled {l : Label J K V} {t : State J K V} (hl : l.onThread = true)
      (hs : Step cfg s l t) : (isle cfg).Enabled (fun l => l.onThread = true) s := ⟨l, t, hl, hs⟩
  cases hpc : s.pc with
  | next =>
    cases hbuf : s.chan.buffer with
    | nil => exact enabled rfl (.recvDisconnected hpc hbuf ((hnext hpc).resolve_left (by simp [hbuf])))
    | cons r rest =>
      obtain ⟨ch, hpop⟩ : ∃ ch, s.chan.pop? = some (r, ch) := Fifo.exists_pop? hbuf
      cases r with
      | job j => exact enabled rfl (.recvJob hpc hpop)
      | shutdown => exact enabled rfl (.recvShutdown hpc hpop)
  | loadAbort j => exact enabled rfl (.loadAbort hpc)
  | discard j => exact enabled rfl (.discard hpc)
  | queuedCheck j => exact enabled rfl (.queuedCheck hpc)
  | attachStore j => exact enabled rfl (.attachStore hpc)
  | attachCheck j =>
    by_cases hstate : (s.jobs j).token.state = none
    · exact enabled rfl (.attachCheckNone hpc hstate)
    · exact enabled rfl (.attachCheckFired hpc hstate)
  | attachInterrupt j => exact enabled rfl (.attachInterrupt hpc)
  | closure j c =>
    cases c with
    | ret r => exact enabled rfl (.closureRet hpc)
    | panic payload => exact enabled rfl (.closurePanic hpc)
    | start sql next => exact enabled rfl (.stmtStart hpc)
    | finish next =>
      cases hmark : s.conn.marked with
      | true => exact enabled rfl (.stmtAbort hpc hmark)
      | false => exact enabled rfl (.stmtFail (e := interruptError) hpc hmark)
  | detach j result => exact enabled rfl (.detach hpc)
  | normalizeToken j e => exact enabled rfl (.normalizeToken hpc)
  | normalizeAbort j e => exact enabled rfl (.normalizeAbort hpc)
  | respond j r outcome => exact enabled rfl (.respond hpc)
  | healthStart => exact enabled rfl (.healthStart hpc)
  | healthFinish => exact enabled rfl (.healthFail hpc)
  | exited why =>
    cases hfront : cfg.front with
    | sync => exact enabled rfl (.threadFinish (Or.inl ⟨hfront, hpc⟩))
    | async => exact enabled rfl (.signalDone hfront hpc)
  | signalled why => exact enabled rfl (.threadFinish (Or.inr hpc))
  | finished why =>
    rw [hpc] at hfin
    cases hfin

lemma not_thread_enabled {s : State J K V}
    (h : s.pc.isFinished = true ∨ s.pc = .next ∧ s.chan.buffer = [] ∧ s.sendersGone = false) :
    ¬ (isle cfg).Enabled (fun l => l.onThread = true) s := by
  have elsewhere {pc : Pc J V} (hpc : s.pc = pc) (hfin : pc.isFinished = false)
      (hnext : pc ≠ .next) : False := by
    rcases h with h | ⟨h, -⟩
    · rw [hpc, hfin] at h
      cases h
    · exact hnext (hpc.symm.trans h)
  rintro ⟨l, t, hl, hs⟩
  cases hs with
  | recvJob hpc hpop | recvShutdown hpc hpop =>
    rcases h with h | ⟨-, hbuf, -⟩
    · rw [hpc] at h
      cases h
    · rw [(Fifo.pop?_some hpop).buffer] at hbuf
      cases hbuf
  | recvDisconnected hpc _ hgone =>
    rcases h with h | ⟨-, -, h⟩
    · rw [hpc] at h
      cases h
    · rw [hgone] at h
      cases h
  | threadFinish hpc =>
    rcases hpc with ⟨-, hpc⟩ | hpc <;> exact elsewhere hpc rfl (by simp)
  | loadAbort hpc | discard hpc | queuedCheck hpc | attachStore hpc | attachCheckNone hpc
  | attachCheckFired hpc | attachInterrupt hpc | stmtStart hpc | stmtComplete hpc | stmtFail hpc
  | stmtAbort hpc | closureRet hpc | closurePanic hpc | detach hpc | normalizeToken hpc
  | normalizeAbort hpc | respond hpc | healthStart hpc | healthPass hpc | healthFail hpc
  | signalDone _ hpc => exact elsewhere hpc rfl (by simp)
  | _ => cases hl

/-! ## Its turn comes for every request -/

/-- How many receives there are up to that of `r`, if it is queued; none once the thread has
`reached` what it does with `r`. -/
def State.turn (s : State J K V) (r : Request J) (reached : Pc J V → Bool) : ℕ :=
  if reached s.pc then 0 else s.chan.buffer.idxOf r + 1

/-- A step brings the turn of a request nearer, or leaves it to the thread to do so. -/
lemma Moves.turn {s t : State J K V} {l : Label J K V} (hm : Moves s t l) {r : Request J}
    {reached : Pc J V → Bool} (hnext : reached .next = false)
    (hreceived : reached (.received r) = true) (hstay : reached s.pc = true → reached t.pc = true)
    (hline : reached s.pc = false → r ∈ s.chan.buffer ∨ s.sendersGone = true)
    (hfin : t.pc.isFinished = false) :
    Prod.Lex (· < ·) Pc.After (t.turn r reached, t.pc) (s.turn r reached, s.pc) ∨
      (t.turn r reached, t.pc) = (s.turn r reached, s.pc) ∧ ¬ l.onThread = true := by
  have forward (hle : t.turn r reached ≤ s.turn r reached) (hafter : t.pc.After s.pc) :
      Prod.Lex (· < ·) Pc.After (t.turn r reached, t.pc) (s.turn r reached, s.pc) := by
    obtain hlt | heq := Nat.lt_or_eq_of_le hle
    · exact Prod.Lex.left _ _ hlt
    · rw [heq]
      exact Prod.Lex.right _ hafter
  cases hm with
  | aside hl hpc hchan => exact Or.inr ⟨by rw [State.turn, State.turn, hpc, hchan], by simp [hl]⟩
  | sent hl hpc hgone hpush =>
    refine Or.inr ⟨?_, by simp [hl]⟩
    cases hs : reached s.pc with
    | true => simp [State.turn, hpc, hs]
    | false =>
      have hbuf := (hline hs).resolve_right (by simp [hgone])
      rw [State.turn, State.turn, hpc, (Fifo.push?_some hpush).buffer,
        List.idxOf_append_of_mem hbuf]
  | @received r' hl hpc hpc' hpop =>
    refine Or.inl (Prod.Lex.left _ _ ?_)
    have hbuf := (Fifo.pop?_some hpop).buffer
    by_cases hr : r' = r
    · rw [State.turn, State.turn, hpc, hpc', hr, hreceived, hnext]
      simp
    · rw [State.turn, State.turn, hpc, hnext, hbuf, List.idxOf_cons_ne _ hr]
      split <;> simp
  | forward hl hafter hchan =>
    refine Or.inl (forward ?_ hafter)
    cases hs : reached s.pc with
    | true => simp [State.turn, hs, hstay hs]
    | false =>
      rw [State.turn, State.turn, hs, hchan]
      split <;> simp
  | ended _ hfin' =>
    rw [hfin] at hfin'
    cases hfin'

/-! ## Every accepted job is answered -/

lemma Moves.sent_mono {s t : State J K V} {l : Label J K V} (hm : Moves s t l) {r : Request J}
    (h : r ∈ s.chan.sent) : r ∈ t.chan.sent := by
  cases hm with
  | aside _ _ hchan | forward _ _ hchan | ended _ _ hchan => rwa [hchan]
  | sent _ _ _ hpush =>
    rw [(Fifo.push?_some hpush).sent]
    exact List.mem_append_left _ h
  | received _ _ _ hpop => rwa [(Fifo.pop?_some hpop).sent]

lemma accepted_step {s t : State J K V} {l : Label J K V} (h : (isle cfg).Reachable s)
    (hs : Step cfg s l t) {j : J} (hsub : (s.jobs j).submission = .accepted) :
    (t.jobs j).submission = .accepted := by
  have hlink := link_reachable h
  rw [← (link_step hlink hs).accepted]
  exact (moves_step hlink hs).sent_mono ((hlink.accepted j).mpr hsub)

lemma Link.running {s : State J K V} (hlink : Link s) {r : Request J} (h : r ∈ s.chan.buffer) :
    s.pc.isFinished = false := by
  have halive := hlink.alive
  cases hfin : s.pc.isFinished with
  | false => rfl
  | true =>
    rw [hfin] at halive
    rw [s.chan.buffer_nil halive] at h
    cases h

lemma held_or_queued {s : State J K V} (h : (isle cfg).Reachable s) {j : J}
    (hsub : (s.jobs j).submission = .accepted) (hwait : (s.jobs j).response.wait = none) :
    s.pc.job? = some j ∨ Request.job j ∈ s.chan.buffer ∧ s.pc.job? ≠ some j := by
  have hpending := Response.wait_eq_none.mp hwait
  by_cases hcur : s.pc.job? = some j
  · exact Or.inl hcur
  refine Or.inr ⟨?_, hcur⟩
  by_contra hbuf
  by_cases hrec : Request.job j ∈ s.chan.received
  · rcases (life_reachable h j).settled hrec hcur with ⟨-, r, hp, -⟩ | ⟨-, hp, -⟩ <;>
      rw [hpending] at hp <;> cases hp
  · have hlost := Fifo.mem_lost_of_sent (((link_reachable h).accepted j).mpr hsub) hrec hbuf
    rw [lostDropped_reachable h j hlost] at hpending
    cases hpending

lemma stays_held {s t : State J K V} {l : Label J K V} (h : (isle cfg).Reachable s)
    (hs : Step cfg s l t) {j : J} (hcur : s.pc.job? = some j)
    (hwait : (t.jobs j).response.wait = none) : t.pc.job? = some j := by
  have hsub := accepted_step h hs (accepted_of_current h hcur)
  rcases held_or_queued (h.tail hs) hsub hwait with hheld | ⟨hbuf, -⟩
  · exact hheld
  have hrec : Request.job j ∉ t.chan.received :=
    (mailbox_inv (h.tail hs)).not_received (List.mem_append_left _ hbuf)
  have hrec' : Request.job j ∈ s.chan.received := (mailbox_inv h).current j hcur
  cases moves_step (link_reachable h) hs with
  | aside _ _ hchan | forward _ _ hchan | ended _ _ hchan =>
    rw [hchan] at hrec
    exact absurd hrec' hrec
  | sent _ _ _ hpush =>
    rw [(Fifo.push?_some hpush).received] at hrec
    exact absurd hrec' hrec
  | received _ _ _ hpop =>
    rw [(Fifo.pop?_some hpop).received] at hrec
    exact absurd (List.mem_append_left _ hrec') hrec

lemma accepted_answered {e : (isle (K := K) cfg).Execution}
    (hthread : e.WeaklyFair (fun l => l.onThread = true)) (j : J) :
    e.LeadsTo (fun s => (s.jobs j).submission = .accepted)
      (fun s => (s.jobs j).response.wait ≠ none) := by
  refine hthread.leadsTo (fun s => (s.turn (.job j) (fun pc => pc.job? == some j), s.pc))
    (WellFounded.prod_lex wellFounded_lt Pc.after_wf) ?_ ?_
  · intro s h hsub hwait
    have hwait := not_not.mp hwait
    have hlink := link_reachable h
    rcases held_or_queued h hsub hwait with hcur | ⟨hbuf, -⟩
    · refine thread_enabled ?_ (fun hpc => ?_)
      · cases hpc : s.pc <;> simp_all [Pc.job?, Pc.isFinished]
      · rw [hpc] at hcur
        cases hcur
    · exact thread_enabled (hlink.running hbuf) (fun _ => Or.inl (List.ne_nil_of_mem hbuf))
  · intro s l t h hsub hwait hs
    by_cases hwait' : (t.jobs j).response.wait = none
    · have hsub' := accepted_step h hs hsub
      refine Or.inr ⟨hsub', (moves_step (link_reachable h) hs).turn rfl (by simp [Pc.received, Pc.job?])
        (fun hcur => ?_) (fun hcur => ?_) ?_⟩
      · simpa using stays_held h hs (by simpa using hcur) hwait'
      · exact Or.inl (((held_or_queued h hsub (not_not.mp hwait)).resolve_left (by simpa using hcur)).1)
      · by_contra hfin
        exact final_of_finished (h.tail hs) (by simpa using hfin)
          (((link_reachable (h.tail hs)).accepted j).mpr hsub') hwait'
    · exact Or.inl hwait'

/-! ## A thread that is asked to stop comes to its end -/

/-- The isle has been asked to stop: a `Shutdown` has been sent, or every sender is gone. -/
def ToldToStop (s : State J K V) : Prop :=
  Request.shutdown ∈ s.chan.sent ∨ s.sendersGone = true

lemma gone_step {s t : State J K V} {l : Label J K V} (hs : Step cfg s l t)
    (h : s.sendersGone = true) : t.sendersGone = true := by
  obtain ⟨hhandles, hdriver⟩ : s.handles = 0 ∧ s.driver.released = true := by
    simpa [State.sendersGone] using h
  cases hs with
  | driverShutdown hd | driverShutdownNow hd | driverStore hd | driverInterrupt hd
  | driverSend hd | driverSendClosed hd | driverDone hd | driverJoin hd =>
    rw [hd] at hdriver
    cases hdriver
  | driverDrop => simp [State.sendersGone, hhandles, Driver.released]
  | cloneHandle _ hhandle | dropHandle _ hhandle =>
    rw [hhandles] at hhandle
    exact absurd hhandle (lt_irrefl 0)
  | dropIsleTx => simp [State.sendersGone, hdriver]
  | _ => exact h

lemma toldToStop_step {s t : State J K V} {l : Label J K V} (hlink : Link s) (hs : Step cfg s l t)
    (h : ToldToStop s) : ToldToStop t :=
  h.imp (moves_step hlink hs).sent_mono (gone_step hs)

lemma ToldToStop.line {s : State J K V} (hstop : ToldToStop s) (h : (isle cfg).Reachable s)
    (hexit : s.pc.exit? = none) : Request.shutdown ∈ s.chan.buffer ∨ s.sendersGone = true := by
  refine hstop.imp_left (fun hsent => ?_)
  by_contra hbuf
  have hrec : Request.shutdown ∉ s.chan.received := by
    have hrun := (mailbox_inv h).running (by simp [State.mailbox, hexit])
    simp only [State.mailbox] at hrun
    rw [hrun]
    simp
  have hlost := Fifo.mem_lost_of_sent hsent hrec hbuf
  have halive : s.chan.alive = true := by
    rw [(link_reachable h).alive]
    cases hpc : s.pc <;> simp_all [Pc.exit?, Pc.isFinished]
  rw [s.chan.lost_nil halive] at hlost
  cases hlost

lemma exit_step {s t : State J K V} {l : Label J K V} (hs : Step cfg s l t)
    (h : s.pc.exit?.isSome = true) : t.pc.exit?.isSome = true := by
  cases hs with
  | recvJob hpc | recvShutdown hpc | recvDisconnected hpc | loadAbort hpc | discard hpc
  | queuedCheck hpc | attachStore hpc | attachCheckNone hpc | attachCheckFired hpc
  | attachInterrupt hpc | stmtStart hpc | stmtComplete hpc | stmtFail hpc | stmtAbort hpc
  | closureRet hpc | closurePanic hpc | detach hpc | normalizeToken hpc | normalizeAbort hpc
  | respond hpc | healthStart hpc | healthPass hpc | healthFail hpc =>
    rw [hpc] at h
    cases h
  | signalDone | threadFinish => rfl
  | _ => exact h

lemma told_finishes {e : (isle (K := K) cfg).Execution}
    (hthread : e.WeaklyFair (fun l => l.onThread = true)) :
    e.LeadsTo ToldToStop (fun s => s.pc.isFinished = true) := by
  refine hthread.leadsTo (fun s => (s.turn .shutdown (fun pc => pc.exit?.isSome), s.pc))
    (WellFounded.prod_lex wellFounded_lt Pc.after_wf) ?_ ?_
  · intro s h hstop hfin
    refine thread_enabled (by simpa using hfin) (fun hpc => ?_)
    exact (hstop.line h (by rw [hpc]; rfl)).imp_left List.ne_nil_of_mem
  · intro s l t h hstop _ hs
    cases hfin : t.pc.isFinished with
    | true => exact Or.inl rfl
    | false =>
      exact Or.inr ⟨toldToStop_step (link_reachable h) hs hstop,
        (moves_step (link_reachable h) hs).turn rfl rfl (exit_step hs)
          (fun hexit => hstop.line h (by simpa using hexit)) hfin⟩

/-! ## A full channel does not stay full -/

/-- A request can be sent, or is refused because the thread has ended. -/
def Open (s : State J K V) : Prop :=
  s.chan.alive = false ∨ s.chan.hasRoom s.pc.isReceiving = true

/-- Whatever is sent and by whom, the channel has room again, or the thread ends: while the channel
is full nothing is sent, and a receive shortens the queue. -/
lemma room_recurs {e : (isle (K := K) cfg).Execution}
    (hthread : e.WeaklyFair (fun l => l.onThread = true)) : e.LeadsTo (fun _ => True) Open := by
  refine hthread.leadsTo (fun s => (s.chan.buffer.length, s.pc))
    (WellFounded.prod_lex wellFounded_lt Pc.after_wf) ?_ ?_
  · intro s h _ hfull
    obtain ⟨halive, hroom⟩ : s.chan.alive = true ∧ s.chan.hasRoom s.pc.isReceiving = false := by
      simpa [Open] using hfull
    refine thread_enabled (by simpa [halive] using (link_reachable h).alive) (fun hpc => Or.inl ?_)
    intro hempty
    rw [hpc, Fifo.hasRoom, hempty] at hroom
    split at hroom <;> simp_all [Pc.isReceiving]
  · intro s l t h _ hfull hs
    refine (em (Open t)).imp_right (fun hfull' => ⟨trivial, ?_⟩)
    cases moves_step (link_reachable h) hs with
    | aside hl hpc hchan => exact Or.inr ⟨by rw [hpc, hchan], by simp [hl]⟩
    | sent _ _ _ hpush => exact absurd (Or.inr (Fifo.hasRoom_of_push? hpush)) hfull
    | received _ _ _ hpop =>
      refine Or.inl (Prod.Lex.left _ _ ?_)
      rw [(Fifo.pop?_some hpop).buffer, List.length_cons]
      exact Nat.lt_succ_self _
    | forward _ hafter hchan =>
      rw [hchan]
      exact Or.inl (Prod.Lex.right _ hafter)
    | ended _ _ hchan =>
      refine absurd (Or.inl ?_) hfull'
      rw [hchan, Fifo.close_alive]

/-- A thread that acts whenever it can answers or drops every job that was accepted, ends once it
has been asked to, and never leaves the senders waiting for room for good. A `Closure` is a finite
tree, so every closure ends. -/
theorem thread_serves {e : (isle (K := K) cfg).Execution}
    (hthread : e.WeaklyFair (fun l => l.onThread = true)) :
    (∀ j, e.LeadsTo (fun s => (s.jobs j).submission = .accepted)
      (fun s => (s.jobs j).response.wait ≠ none)) ∧
    e.LeadsTo ToldToStop (fun s => s.pc.isFinished = true) ∧ e.LeadsTo (fun _ => True) Open :=
  ⟨accepted_answered hthread, told_finishes hthread, room_recurs hthread⟩

/-- The two jobs that are being sent are served, and then the isle is dropped. -/
lemma twoQueries_stops : ∃ e : (isle (K := Unit) twoQueries).Execution,
    (∀ j, ((e.state 0).jobs j).submission = .sending) ∧
      ∃ t, e.Stops t ∧ (∀ j, (t.jobs j).submission = .accepted ∧ (t.jobs j).observed ≠ none) ∧
        ToldToStop t ∧ t.pc.isFinished = true := by
  have h0 := TransitionSystem.Reachable.refl (T := isle (K := Unit) twoQueries)
  have h1 := h0.tail (.submit (j := true) rfl (by decide) rfl)
  have h2 := h1.tail (.submit (j := false) rfl (by decide) rfl)
  have r3 := h2.here.tail (.enqueue (j := true) rfl rfl) trivial
  have r4 := r3.tail (.enqueue (j := false) rfl rfl) trivial
  have r5 := r4.tail (.recvJob (j := true) rfl rfl) trivial
  have r6 := r5.tail (.loadAbort (j := true) rfl) trivial
  have r7 := r6.tail (.queuedCheck (j := true) rfl) trivial
  have r8 := r7.tail (.attachStore (j := true) rfl) trivial
  have r9 := r8.tail (.attachCheckNone (j := true) rfl rfl) trivial
  have r10 := r9.tail (.stmtStart (j := true) rfl) trivial
  have r11 := r10.tail (.stmtComplete (j := true) (v := 1) rfl rfl) trivial
  have r12 := r11.tail (.closureRet (j := true) rfl) trivial
  have r13 := r12.tail (.detach (j := true) rfl) trivial
  have r14 := r13.tail (.respond (j := true) rfl) trivial
  have r15 := r14.tail (.recvJob (j := false) rfl rfl) trivial
  have r16 := r15.tail (.observe (j := true) rfl rfl rfl rfl) trivial
  have r17 := r16.tail (.loadAbort (j := false) rfl) trivial
  have r18 := r17.tail (.queuedCheck (j := false) rfl) trivial
  have r19 := r18.tail (.attachStore (j := false) rfl) trivial
  have r20 := r19.tail (.attachCheckNone (j := false) rfl rfl) trivial
  have r21 := r20.tail (.stmtStart (j := false) rfl) trivial
  have r22 := r21.tail (.stmtComplete (j := false) (v := 2) rfl rfl) trivial
  have r23 := r22.tail (.closureRet (j := false) rfl) trivial
  have r24 := r23.tail (.detach (j := false) rfl) trivial
  have r25 := r24.tail (.respond (j := false) rfl) trivial
  have r26 := r25.tail (.observe (j := false) rfl rfl rfl rfl) trivial
  have r27 := r26.tail (.dropIsleSent rfl (by decide) rfl rfl rfl) trivial
  have r28 := r27.tail (.dropIsleTx rfl rfl) trivial
  have r29 := r28.tail (.recvShutdown rfl rfl) trivial
  have r30 := r29.tail (.threadFinish (.inl ⟨rfl, rfl⟩)) trivial
  obtain ⟨e, h0, hstops⟩ := TransitionSystem.Execution.exists_stops h2 r30
  refine ⟨e, fun j => ?_, _, hstops, fun j => ?_, Or.inr rfl, rfl⟩
  · rw [h0]
    cases j <;> rfl
  · cases j <;> exact ⟨rfl, Option.some_ne_none _⟩

theorem thread_serves_twoQueries : ∃ e : (isle (K := Unit) twoQueries).Execution,
    e.WeaklyFair (fun l => l.onThread = true) ∧
      (∀ j, ((e.state 0).jobs j).submission = .sending) ∧
      (∀ j, ∃ n, ((e.state n).jobs j).response.wait ≠ none) ∧
      ∃ n, (e.state n).pc.isFinished = true := by
  obtain ⟨e, hsending, t, hstops, hserved, htold, hfin⟩ := twoQueries_stops
  have hfair := (hstops.stronglyFair (not_thread_enabled (Or.inl hfin))).weaklyFair
  obtain ⟨hserves, hends, -⟩ := thread_serves hfair
  obtain ⟨n, hn⟩ := hstops
  refine ⟨e, hfair, hsending, fun j => ?_, ?_⟩
  · obtain ⟨m, -, hm⟩ := hserves j n (by rw [hn n le_rfl]; exact (hserved j).1)
    exact ⟨m, hm⟩
  · obtain ⟨m, -, hm⟩ := hends n (by rw [hn n le_rfl]; exact htold)
    exact ⟨m, hm⟩

end RusqliteIsle
