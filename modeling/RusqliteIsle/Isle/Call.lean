import RusqliteIsle.Isle.Drop
import RusqliteIsle.Isle.Replay

/-!
# A call and the others

The token and the task of a `call_timeout` stay inside the call: the other users of the isle do not
touch its job. Here the isle has the steps of both front-ends, so that a call meets the abort of the
one and the drop of the `Isle` of the other. Once the response channel of a job has its result, or
will never have one, the isle is done with the job.
-/

namespace RusqliteIsle

set_option linter.unusedSectionVars false

variable {J K V : Type} [DecidableEq J] [DecidableEq K] {cfg : Config J V}

/-- The isle with the steps of both front-ends. -/
def anyFront (cfg : Config J V) : TransitionSystem (State J K V) (Label J K V) where
  init := State.init { cfg with front := .async }
  step s l t := ∃ front, Step { cfg with front := front } s l t

/-- What is known of every reachable state, whichever front-end takes the steps. -/
structure Sound (s : State J K V) : Prop where
  link : Link s
  mailbox : s.mailbox.Inv
  life : ∀ j, Life s j
  attached : ∀ j, Attached s j

lemma sound_step {s t : State J K V} {l : Label J K V} (hi : Sound s) (hs : Step cfg s l t) :
    Sound t := by
  refine ⟨link_step hi.link hs, ?_, fun j => life_step hi.link hi.mailbox (hi.life j) hs,
    fun j => attached_step (hi.attached j) hs⟩
  rcases step_mailbox hi.link hs with hsame | ⟨e, he⟩
  · rw [hsame]
    exact hi.mailbox
  · exact Mailbox.inv_step hi.mailbox he

lemma sound_reachable {s : State J K V} (h : (anyFront cfg).Reachable s) : Sound s := by
  refine TransitionSystem.Reachable.invariant (I := Sound) ?_ ?_ h
  · exact ⟨link_init, mailbox_inv TransitionSystem.Reachable.refl, life_init, attached_init⟩
  · rintro s l t hi ⟨front, hs⟩
    exact sound_step hi hs

/-! ## Steps of the others -/

/-- The job whose caller, or whose clone of the token, takes the action. -/
def Label.caller? : Label J K V → Option J
  | submit j | enqueue j | refuseClosed j | refuseFull j | abandon j | observe j | deadline j
  | cancel j | dropTask j | detachTask j | fireInterrupt j => some j
  | _ => none

lemma bystander_step {s t : State J K V} {l : Label J K V} (hs : Step cfg s l t) {j : J}
    (hl : l.caller? ≠ some j) : t.jobs j = { s.jobs j with
      token := (t.jobs j).token, response := (t.jobs j).response } := by
  obtain rfl | hf | hj := step_about hs j
  · cases hs with
    | threadFinish =>
      dsimp only [State.dropQueued]
      split <;> rfl
  · rw [hf.job]
  cases hs with
  | discard | attachStore | detach | respond =>
    cases hj
    simp
  | submit | enqueue | refuseClosed | refuseFull | abandon | observe | deadline | cancel
  | dropAsyncTask | dropSyncTask | detachTask | fireInterrupt => exact absurd hj hl
  | threadFinish => cases hj
  | _ => rfl

lemma held_of_about {s t : State J K V} {l : Label J K V} (hs : Step cfg s l t) {j : J}
    (hj : l.job? = some j) (hl : l.caller? ≠ some j) :
    s.pc.job? = some j ∨ Request.job j ∈ s.chan.buffer := by
  cases hs with
  | recvJob _ hpop =>
    cases hj
    exact Or.inr (by simp [(Fifo.pop?_some hpop).buffer])
  | loadAbort hpc | discard hpc | queuedCheck hpc | attachStore hpc | attachCheckNone hpc
  | attachCheckFired hpc | attachInterrupt hpc | stmtStart hpc | stmtComplete hpc | stmtFail hpc
  | stmtAbort hpc | closureRet hpc | closurePanic hpc | detach hpc | normalizeToken hpc
  | normalizeAbort hpc | respond hpc =>
    cases hj
    exact Or.inl (by rw [hpc]; rfl)
  | submit | enqueue | refuseClosed | refuseFull | abandon | observe | deadline | cancel
  | dropAsyncTask | dropSyncTask | detachTask | fireInterrupt => exact absurd hj hl
  | _ => cases hj

lemma issued_le_one (s : State J K V) (j : J) (l : Label J K V) : s.issued j l ≤ 1 := by
  cases l with
  | fireInterrupt i | attachInterrupt i =>
    dsimp only [State.issued]
    split
    · exact (s.jobs i).token.hits_le_one
    · exact Nat.zero_le 1
  | _ => exact Nat.zero_le 1

lemma issued_eq_one_iff {s t : State J K V} {l : Label J K V} (hs : Step cfg s l t) {j : J} :
    s.issued j l = 1 ↔ IssuesInterrupt s t j := by
  have via {i : J} : (if i = j then (s.jobs i).token.hits else 0) = 1 ↔
      (s.jobs i).token.interruptVia (.token i) s.conn = s.conn.interrupt (.token j) := by
    rw [CancelToken.interruptVia_eq_interrupt_iff, Source.token.injEq]
    by_cases hij : i = j
    · simp [hij, CancelToken.hits, Option.isSome_iff_ne_none]
    · simp [hij]
  cases hs with
  | fireInterrupt | attachInterrupt => exact via
  | driverInterrupt =>
    refine iff_of_false Nat.zero_ne_one (fun h => ?_)
    cases (List.cons.inj (congrArg Engine.mark h)).1
  | stmtStart | healthStart =>
    exact iff_of_false Nat.zero_ne_one (fun h => Engine.start_ne_interrupt _ _ h)
  | _ => exact iff_of_false Nat.zero_ne_one (fun h => Engine.interrupt_ne_of_mark (by rfl) _ h)

/-! ## Jobs with a final response -/

/-- The isle is done with the job: no interrupt can be issued through its token, and the job is
neither queued nor held by the thread. -/
structure Over (s : State J K V) (j : J) : Prop where
  handle : (s.jobs j).token.handle = none
  current : s.pc.job? ≠ some j
  queued : Request.job j ∉ s.chan.buffer

lemma over_of_final {s : State J K V} (hi : Sound s) {j : J}
    (hfinal : (s.jobs j).response ≠ .pending) : Over s j := by
  have hcur : s.pc.job? ≠ some j := fun h => hfinal ((hi.life j).current h).1
  refine ⟨?_, hcur, fun h => hfinal ((hi.life j).queued h)⟩
  by_contra hhandle
  exact hcur (Pc.job?_of_attached? ((hi.attached j).handle.mp hhandle))

/-- A step that leaves the result of the job, its closure and its interrupts alone. -/
structure Quiet (s : State J K V) (l : Label J K V) (t : State J K V) (j : J) : Prop where
  response : (t.jobs j).response = (s.jobs j).response
  invoked : (t.history j).invoked = (s.history j).invoked
  issued : s.issued j l = 0

lemma quiet_of_final {s t : State J K V} {l : Label J K V} {j : J} (hi : Sound s)
    (hs : Step cfg s l t) (hfinal : (s.jobs j).response ≠ .pending) : Quiet s l t j := by
  have hover := over_of_final hi hfinal
  refine ⟨final_step (hi.life j) hs hfinal, ?_, ?_⟩
  · rcases (history_step hs j).invoked with hsame | hpc | hpc
    · exact hsame
    · exact absurd (by rw [hpc]; rfl) hover.current
    · exact absurd (by rw [hpc]; rfl) hover.current
  · by_cases hl : l.job? = some j
    · cases l with
      | fireInterrupt | attachInterrupt =>
        cases hl
        simp [State.issued, CancelToken.hits_of_none hover.handle]
      | _ => rfl
    · exact issued_other hl

lemma events_of_final {s t : State J K V} {l : Label J K V} {j : J} (hi : Sound s)
    (hs : Step cfg s l t) (hl : l.caller? ≠ some j) (hfinal : (s.jobs j).response ≠ .pending) :
    s.events j l = [] := by
  have hover := over_of_final hi hfinal
  by_cases hfin : l = .threadFinish
  · subst hfin
    simp [State.events, hover.queued]
  · refine events_other (fun hj => ?_) hfin
    rcases held_of_about hs hj hl with hcur | hbuf
    · exact hover.current hcur
    · exact hover.queued hbuf

end RusqliteIsle
