import RusqliteIsle.Isle.Simulation

/-!
# What a step leaves alone

An action is about at most one job. Every other job keeps its history and its shared
state, and the thread keeps the job it holds.
-/

namespace RusqliteIsle

set_option linter.unusedSectionVars false

variable {J K V : Type} [DecidableEq J] [DecidableEq K] {cfg : Config J V}

/-- The job an action is about. -/
def Label.job? : Label J K V → Option J
  | recvJob j | loadAbort j | discard j | queuedCheck j | attachStore j | attachCheck j
  | attachInterrupt j | stmtStart j | stmtFinish j _ | closureEnd j | detach j
  | normalizeToken j | normalizeAbort j | respond j | submit j | enqueue j | refuseClosed j
  | refuseFull j | abandon j | observe j | deadline j | cancel j | dropTask j | detachTask j
  | fireInterrupt j => some j
  | _ => none

/-- The job `j` is not touched between `s` and `t`; while it runs, the connection is at most
interrupted. -/
structure Frame (s t : State J K V) (j : J) : Prop where
  history : t.history j = s.history j
  job : t.jobs j = s.jobs j
  received : Request.job j ∈ t.chan.received ↔ Request.job j ∈ s.chan.received
  buffer : Request.job j ∈ t.chan.buffer → Request.job j ∈ s.chan.buffer
  abort : s.abort = true → t.abort = true
  pc : s.pc.job? = some j → t.pc = s.pc
  current : t.pc.job? = some j → s.pc.job? = some j
  conn : s.pc.job? = some j → t.conn = s.conn ∨ ∃ source, t.conn = s.conn.interrupt source

lemma Frame.of_held {s t : State J K V} {i j : J} (hij : i ≠ j) (hheld : s.pc.job? = some i)
    (hleft : t.pc.job? = some i ∨ t.pc.job? = none) (hhist : t.history j = s.history j)
    (hjob : t.jobs j = s.jobs j) (hchan : t.chan = s.chan) (habort : t.abort = s.abort) :
    Frame s t j := by
  refine ⟨hhist, hjob, by rw [hchan], by rw [hchan]; exact id, by rw [habort]; exact id, ?_, ?_,
    ?_⟩
  · intro h
    rw [hheld] at h
    exact absurd (Option.some.inj h) hij
  · intro h
    rcases hleft with hl | hl
    · rw [hl] at h
      exact absurd (Option.some.inj h) hij
    · rw [hl] at h
      cases h
  · intro h
    rw [hheld] at h
    exact absurd (Option.some.inj h) hij

lemma frame_step {s t : State J K V} {l : Label J K V} {j : J} (hs : Step cfg s l t)
    (hl : l.job? ≠ some j) (hfin : l ≠ .threadFinish) : Frame s t j := by
  cases hs with
  | threadFinish => exact absurd rfl hfin
  | @recvJob i ch hpc hpop =>
    have hp := Fifo.pop?_some hpop
    have hij : i ≠ j := fun h => hl (congrArg some h)
    refine ⟨rfl, rfl, by simp [hp.received, hij.symm], ?_, id, ?_, ?_, fun _ => Or.inl rfl⟩
    · rw [hp.buffer]
      exact List.mem_cons_of_mem _
    · simp [hpc, Pc.job?]
    · simp [Pc.job?, hij]
  | recvShutdown hpc hpop =>
    have hp := Fifo.pop?_some hpop
    refine ⟨rfl, rfl, by simp [hp.received], ?_, id, ?_, ?_, fun _ => Or.inl rfl⟩
    · rw [hp.buffer]
      exact List.mem_cons_of_mem _
    · simp [hpc, Pc.job?]
    · simp [Pc.job?]
  | @enqueue i ch hsub hpush =>
    have hp := Fifo.push?_some hpush
    have hij : i ≠ j := fun h => hl (congrArg some h)
    exact ⟨rfl, Function.update_of_ne hij.symm _ _, by simp [hp.received],
      by simp [hp.buffer, hij.symm], id, fun _ => rfl, id, fun _ => Or.inl rfl⟩
  | dropIsleSent _ _ _ _ hpush | shutSend _ hpush | driverSend _ hpush =>
    have hp := Fifo.push?_some hpush
    exact ⟨rfl, rfl, by simp [hp.received], by simp [hp.buffer], id, fun _ => rfl, id, fun _ => Or.inl rfl⟩
  | recvDisconnected hpc | healthStart hpc | healthPass hpc | healthFail hpc | signalDone _ hpc =>
    exact ⟨rfl, rfl, Iff.rfl, id, id, by simp [hpc, Pc.job?], by simp [Pc.job?],
      by simp [hpc, Pc.job?]⟩
  | driverStore =>
    exact ⟨rfl, rfl, Iff.rfl, id, fun _ => rfl, fun _ => rfl, id, fun _ => Or.inl rfl⟩
  | driverInterrupt =>
    exact ⟨rfl, rfl, Iff.rfl, id, id, fun _ => rfl, id, fun _ => Or.inr ⟨_, rfl⟩⟩
  | @fireInterrupt i =>
    have hij : i ≠ j := fun h => hl (congrArg some h)
    exact ⟨by simp [hij.symm], by simp [hij.symm], Iff.rfl, id, id, fun _ => rfl, id,
      fun _ => CancelToken.interruptVia_eq _ _ _⟩
  | @attachStore i hpc | @attachCheckNone i hpc | @attachCheckFired i hpc | @attachInterrupt i hpc
  | @stmtStart i _ _ hpc | @stmtComplete i _ _ hpc | @stmtFail i _ _ hpc | @stmtAbort i _ hpc
  | @closureRet i _ hpc | @closurePanic i _ hpc | @normalizeAbort i _ hpc =>
    have hij : i ≠ j := fun h => hl (congrArg some h)
    exact Frame.of_held hij (by rw [hpc]; rfl) (Or.inl rfl) (by simp [State.invoke, hij.symm])
      (by simp [State.invoke, hij.symm]) rfl rfl
  | @loadAbort i hpc | @queuedCheck i hpc | @normalizeToken i _ hpc =>
    have hij : i ≠ j := fun h => hl (congrArg some h)
    refine Frame.of_held hij (by rw [hpc]; rfl) (Or.inl ?_) (by simp [hij.symm]) rfl rfl rfl
    dsimp only
    split <;> rfl
  | @detach i _ hpc =>
    have hij : i ≠ j := fun h => hl (congrArg some h)
    exact Frame.of_held hij (by rw [hpc]; rfl) (Or.inl (Pc.afterDetach_job? _ _)) rfl
      (by simp [hij.symm]) rfl rfl
  | @discard i hpc =>
    have hij : i ≠ j := fun h => hl (congrArg some h)
    exact Frame.of_held hij (by rw [hpc]; rfl) (Or.inr rfl) rfl (by simp [hij.symm]) rfl rfl
  | @respond i _ outcome hpc =>
    have hij : i ≠ j := fun h => hl (congrArg some h)
    refine Frame.of_held hij (by rw [hpc]; rfl) (Or.inr ?_) (by simp [hij.symm])
      (by simp [hij.symm]) rfl rfl
    cases outcome <;> rfl
  | @submit i | @refuseClosed i | @refuseFull i | @abandon i | @observe i | @deadline i
  | @cancel i | @dropAsyncTask i | @dropSyncTask i | @detachTask i =>
    have hij : i ≠ j := fun h => hl (congrArg some h)
    exact ⟨by simp [State.refuse, State.beginFire, hij.symm],
      by simp [State.refuse, State.beginFire, hij.symm], Iff.rfl, id, id, fun _ => rfl, id, fun _ => Or.inl rfl⟩
  | _ => exact ⟨rfl, rfl, Iff.rfl, id, id, fun _ => rfl, id, fun _ => Or.inl rfl⟩

/-- A step is the end of the thread, leaves the job alone, or is about it. -/
lemma step_about {s t : State J K V} {l : Label J K V} (hs : Step cfg s l t) (j : J) :
    l = .threadFinish ∨ Frame s t j ∨ l.job? = some j := by
  by_cases hfin : l = .threadFinish
  · exact Or.inl hfin
  by_cases hl : l.job? = some j
  · exact Or.inr (Or.inr hl)
  · exact Or.inr (Or.inl (frame_step hs hl hfin))

lemma response_step {s t : State J K V} {l : Label J K V} (hs : Step cfg s l t) (j : J) :
    (t.jobs j).response = (s.jobs j).response ∨ (t.jobs j).response = .dropped ∨
      ∃ r outcome, s.pc = .respond j r outcome ∧ (t.jobs j).response = .answered r := by
  obtain rfl | hf | hl := step_about hs j
  · cases hs with
    | threadFinish =>
      dsimp only [State.dropQueued]
      split
      · exact Or.inr (Or.inl rfl)
      · exact Or.inl rfl
  · exact Or.inl (by rw [hf.job])
  cases hs with
  | discard | refuseClosed | refuseFull | abandon =>
    cases hl
    exact Or.inr (Or.inl (by simp [State.refuse]))
  | @respond _ r outcome hpc =>
    cases hl
    exact Or.inr (Or.inr ⟨r, outcome, hpc, by simp⟩)
  | deadline | cancel | dropAsyncTask | attachStore | detach | submit | enqueue | observe
  | dropSyncTask | detachTask | fireInterrupt =>
    cases hl
    exact Or.inl (by simp [State.beginFire])
  | threadFinish => cases hl
  | _ => exact Or.inl rfl

/-- What a step does to the caller's side of the job `j`. -/
structure CallerStep (s : State J K V) (l : Label J K V) (t : State J K V) (j : J) : Prop where
  submission : (t.jobs j).submission = (s.jobs j).submission ∨
    (l = .submit j ∧ (t.jobs j).submission = .sending) ∨
    ((s.jobs j).submission = .sending ∧ (t.jobs j).submission ≠ .unborn)
  expired : (t.jobs j).expired = (s.jobs j).expired ∨ l = .deadline j
  holder : (t.jobs j).holder = (s.jobs j).holder ∨ l = .dropTask j ∨ l = .detachTask j
  observed : (t.jobs j).observed = (s.jobs j).observed ∨
    (l = .observe j ∧ (s.jobs j).observed = none) ∨
    ((s.jobs j).submission = .sending ∧ (t.jobs j).observed ≠ none)

lemma CallerStep.kept {s t : State J K V} {l : Label J K V} {j : J} (h : CallerStep s l t j)
    (hobserved : (s.jobs j).observed ≠ none) : (t.jobs j).observed ≠ none := by
  rcases h.observed with hsame | ⟨-, hnone⟩ | ⟨-, hnew⟩
  · rwa [hsame]
  · exact absurd hnone hobserved
  · exact hnew

lemma caller_step {s t : State J K V} {l : Label J K V} (hs : Step cfg s l t) (j : J) :
    CallerStep s l t j := by
  have same (h : t.jobs j = s.jobs j) : CallerStep s l t j := by
    refine ⟨Or.inl ?_, Or.inl ?_, Or.inl ?_, Or.inl ?_⟩ <;> rw [h]
  obtain rfl | hf | hl := step_about hs j
  · cases hs with
    | threadFinish =>
      exact ⟨Or.inl (s.dropQueued_submission j), Or.inl (s.dropQueued_expired j),
        Or.inl (s.dropQueued_holder j), Or.inl (s.dropQueued_observed j)⟩
  · exact same hf.job
  cases hs with
  | submit =>
    cases hl
    exact ⟨Or.inr (Or.inl ⟨rfl, by simp⟩), by simp, by simp, by simp⟩
  | enqueue hsub | abandon _ hsub =>
    cases hl
    exact ⟨Or.inr (Or.inr ⟨hsub, by simp⟩), by simp, by simp, by simp⟩
  | refuseClosed hsub | refuseFull hsub =>
    cases hl
    exact ⟨Or.inr (Or.inr ⟨hsub, by simp [State.refuse]⟩), by simp [State.refuse],
      by simp [State.refuse], Or.inr (Or.inr ⟨hsub, by simp [State.refuse]⟩)⟩
  | observe _ _ hnone =>
    cases hl
    exact ⟨by simp, by simp, by simp, Or.inr (Or.inl ⟨rfl, hnone⟩)⟩
  | dropSyncTask | detachTask | attachStore | detach | discard | respond
  | fireInterrupt =>
    cases hl
    exact ⟨by simp, by simp, by simp, by simp⟩
  | deadline | cancel | dropAsyncTask =>
    cases hl
    exact ⟨by simp [State.beginFire], by simp [State.beginFire], by simp [State.beginFire],
      by simp [State.beginFire]⟩
  | threadFinish => cases hl
  | _ => exact same rfl

/-- What a step writes in the history of the job `j`. -/
structure HistoryStep (s : State J K V) (l : Label J K V) (t : State J K V) (j : J) : Prop where
  fires : (t.history j).fires = (s.history j).fires ∨
    ∃ reason, (t.history j).fires = (s.history j).fires ++ [reason]
  fired : (t.history j).fired = (s.history j).fired ∨ l = .fireInterrupt j
  checks : (t.history j).checks = (s.history j).checks ∨ s.pc = .queuedCheck j
  invoked : (t.history j).invoked = (s.history j).invoked ∨ s.pc = .attachCheck j ∨
    s.pc = .attachInterrupt j
  started : (t.history j).started = (s.history j).started ∨ l = .stmtStart j
  tokenRead : (t.history j).tokenRead = (s.history j).tokenRead ∨
    (t.history j).tokenRead = some (s.jobs j).token.state
  responses : (s.history j).responses ≤ (t.history j).responses

lemma history_step {s t : State J K V} {l : Label J K V} (hs : Step cfg s l t) (j : J) :
    HistoryStep s l t j := by
  have same (h : t.history j = s.history j) : HistoryStep s l t j := by
    refine ⟨Or.inl ?_, Or.inl ?_, Or.inl ?_, Or.inl ?_, Or.inl ?_, Or.inl ?_, Nat.le_of_eq ?_⟩ <;>
      rw [h]
  obtain rfl | hf | hl := step_about hs j
  · cases hs with
    | threadFinish => exact same rfl
  · exact same hf.history
  cases hs with
  | stmtStart | stmtComplete | closureRet | closurePanic | normalizeToken | normalizeAbort
  | respond | deadline | cancel | dropAsyncTask | fireInterrupt =>
    cases hl
    refine ⟨?_, ?_, ?_, ?_, ?_, ?_, ?_⟩ <;> simp [State.beginFire]
  | queuedCheck hpc | attachCheckNone hpc | attachInterrupt hpc =>
    cases hl
    refine ⟨?_, ?_, ?_, ?_, ?_, ?_, ?_⟩ <;> simp [State.invoke, hpc]
  | threadFinish => cases hl
  | _ => exact same rfl

lemma lost_step {s t : State J K V} {l : Label J K V} (hs : Step cfg s l t)
    (hfin : l ≠ .threadFinish) : t.chan.lost = s.chan.lost := by
  cases hs with
  | threadFinish => exact absurd rfl hfin
  | recvJob _ hpop | recvShutdown _ hpop => exact (Fifo.pop?_some hpop).lost
  | enqueue _ hpush | dropIsleSent _ _ _ _ hpush | shutSend _ hpush | driverSend _ hpush =>
    exact (Fifo.push?_some hpush).lost
  | _ => rfl

lemma finished_step {s t : State J K V} {l : Label J K V} (hs : Step cfg s l t)
    (h : s.pc.isFinished = true) : t.pc.isFinished = true := by
  cases hs with
  | recvJob hpc | recvShutdown hpc | recvDisconnected hpc | loadAbort hpc | discard hpc
  | queuedCheck hpc | attachStore hpc | attachCheckNone hpc | attachCheckFired hpc
  | attachInterrupt hpc | stmtStart hpc | stmtComplete hpc | stmtFail hpc | stmtAbort hpc
  | closureRet hpc | closurePanic hpc | detach hpc | normalizeToken hpc | normalizeAbort hpc
  | respond hpc | healthStart hpc | healthPass hpc | healthFail hpc | signalDone _ hpc =>
    rw [hpc] at h
    cases h
  | threadFinish => rfl
  | _ => exact h

end RusqliteIsle
