import RusqliteIsle.Isle.Window

/-!
# The reason of a token

A token keeps the reason of the first fire. The SQLite thread reads it at two places: in the
queued-stage check, and when it normalises the error of an interrupted closure. A fire that comes
first at either place decides the response of the job.
-/

namespace RusqliteIsle

set_option linter.unusedSectionVars false

variable {J K V : Type} [DecidableEq J] [DecidableEq K] {cfg : Config J V}

/-- A closure is entered after its queued-stage check and ends after it is entered; the token is
read after the end, and the abort flag only after a token that had not fired. -/
structure Recorded (h : History V) : Prop where
  checked : h.checks = 0 → h.invoked = 0
  ended : h.invoked = 0 → h.ended = none
  token : h.ended = none → h.tokenRead = none
  abort : h.abortRead ≠ none → h.tokenRead = some none

lemma Recorded.congr {h h' : History V} (hi : Recorded h) (hchecks : h'.checks = h.checks)
    (hinvoked : h'.invoked = h.invoked) (hended : h'.ended = h.ended)
    (htoken : h'.tokenRead = h.tokenRead) (habort : h'.abortRead = h.abortRead) : Recorded h' := by
  refine ⟨?_, ?_, ?_, ?_⟩
  · rw [hchecks, hinvoked]
    exact hi.checked
  · rw [hinvoked, hended]
    exact hi.ended
  · rw [hended, htoken]
    exact hi.token
  · rw [habort, htoken]
    exact hi.abort

lemma recorded_step {s t : State J K V} {l : Label J K V} {j : J} (hlife : Life s j)
    (hi : Recorded (s.history j)) (hs : Step cfg s l t) : Recorded (t.history j) := by
  obtain rfl | hf | hl := step_about hs j
  · cases hs with
    | threadFinish => exact hi
  · rw [hf.history]
    exact hi
  cases hs with
  | queuedCheck =>
    cases hl
    refine ⟨fun h => ?_, ?_, ?_, ?_⟩
    · simp at h
    · simpa using hi.ended
    · simpa using hi.token
    · simpa using hi.abort
  | attachCheckNone hpc | attachInterrupt hpc =>
    cases hl
    have hun : (s.history j).Unrun 1 := (hlife.at_pc hpc rfl).2
    refine ⟨fun h => ?_, fun h => ?_, ?_, ?_⟩
    · simp [State.invoke, hun.checks] at h
    · simp [State.invoke] at h
    · simpa [State.invoke] using hi.token
    · simpa [State.invoke] using hi.abort
  | closureRet hpc | closurePanic hpc =>
    cases hl
    have hran : (s.history j).Ran none _ := (hlife.at_pc hpc rfl).2
    refine ⟨?_, fun h => ?_, fun h => ?_, ?_⟩
    · simpa using hi.checked
    · simp [hran.invoked] at h
    · simp at h
    · simpa using hi.abort
  | normalizeToken hpc =>
    cases hl
    have hran := (hlife.at_pc hpc rfl).2.1
    refine ⟨?_, ?_, fun h => ?_, fun h => ?_⟩
    · simpa using hi.checked
    · simpa using hi.ended
    · simp [hran.ended] at h
    · simp [hran.abortRead] at h
  | normalizeAbort hpc =>
    cases hl
    have hran := (hlife.at_pc hpc rfl).2.1
    refine ⟨?_, ?_, ?_, fun _ => ?_⟩
    · simpa using hi.checked
    · simpa using hi.ended
    · simpa using hi.token
    · simp [hran.tokenRead]
  | stmtStart | stmtComplete | respond | deadline | cancel | dropAsyncTask | fireInterrupt =>
    cases hl
    exact hi.congr (by simp [State.beginFire]) (by simp [State.beginFire])
      (by simp [State.beginFire]) (by simp [State.beginFire]) (by simp [State.beginFire])
  | threadFinish => cases hl
  | _ => exact hi

theorem recorded_reachable {s : State J K V} (h : (isle cfg).Reachable s) (j : J) :
    Recorded (s.history j) := by
  refine TransitionSystem.ReachableVia.invariant_of (J := fun s => Life s j)
    (I := fun s => Recorded (s.history j)) (fun s hs => life_reachable hs j) ?_ ?_ h
  · exact ⟨fun _ => rfl, fun _ => rfl, fun _ => rfl, fun h => absurd rfl h⟩
  · exact fun s l t hJ hi _ hs => recorded_step hJ hi hs

/-- The token has fired, and whatever `normalize_error` has read of it is its reason. -/
structure Kept (reason : FireReason) (s : State J K V) (j : J) : Prop where
  state : (s.jobs j).token.state = some reason
  read : (s.history j).tokenRead = none ∨ (s.history j).tokenRead = some (some reason)

lemma kept_step {reason : FireReason} {s t : State J K V} {l : Label J K V} {j : J}
    (hi : Kept reason s j) (hs : Step cfg s l t) : Kept reason t j := by
  refine ⟨state_step hs hi.state, ?_⟩
  rcases (history_step hs j).tokenRead with hsame | hread
  · rw [hsame]
    exact hi.read
  · rw [hread, hi.state]
    exact Or.inr rfl

namespace Pc

/-- The job that has passed its queued-stage check and is not entered yet. -/
def attaching? : Pc J V → Option J
  | attachStore j | attachCheck j | attachInterrupt j => some j
  | _ => none

lemma job?_of_attaching? {pc : Pc J V} {j : J} (h : pc.attaching? = some j) :
    pc.job? = some j := by
  cases pc <;> first | exact h | cases h

end Pc

lemma attaching_step {s t : State J K V} {l : Label J K V} {j : J} (hs : Step cfg s l t)
    (ht : t.pc.attaching? = some j) :
    s.pc.attaching? = some j ∨ s.pc = .queuedCheck j ∧ (s.jobs j).token.state = none := by
  obtain rfl | hf | hl := step_about hs j
  · cases hs with
    | threadFinish => cases ht
  · left
    rwa [← hf.pc (hf.current (Pc.job?_of_attaching? ht))]
  cases hs with
  | @queuedCheck _ hpc =>
    cases hl
    cases hfired : (s.jobs j).token.fired with
    | some err => simp [hfired, Pc.attaching?] at ht
    | none => exact Or.inr ⟨hpc, CancelToken.fired_eq_none.mp hfired⟩
  | attachStore hpc | attachCheckFired hpc =>
    cases hl
    left
    rw [hpc]
    rfl
  | loadAbort | normalizeToken =>
    dsimp only at ht
    split at ht <;> cases ht
  | @detach _ result =>
    dsimp only at ht
    obtain ⟨e, h⟩ | ⟨r, outcome, h⟩ := Pc.afterDetach_cases j result <;> cases hl <;>
      rw [h] at ht <;> cases ht
  | @respond _ _ outcome => cases outcome <;> cases ht
  | recvJob | discard | attachCheckNone | attachInterrupt | stmtStart | stmtComplete | stmtFail
  | stmtAbort | closureRet | closurePanic | normalizeAbort => cases ht
  | recvShutdown | recvDisconnected | healthStart | healthPass | healthFail | signalDone
  | threadFinish => cases hl
  | _ => exact Or.inl ht

lemma invoked_step {s t : State J K V} {l : Label J K V} (hs : Step cfg s l t) (j : J) :
    (t.history j).invoked = (s.history j).invoked ∨ s.pc.attaching? = some j := by
  rcases (history_step hs j).invoked with hsame | hpc | hpc
  · exact Or.inl hsame
  · exact Or.inr (by rw [hpc]; rfl)
  · exact Or.inr (by rw [hpc]; rfl)

/-- The token fired before the queued-stage check, and the closure was not entered. -/
structure Skips (reason : FireReason) (s : State J K V) (j : J) : Prop where
  state : (s.jobs j).token.state = some reason
  outside : s.pc.attaching? ≠ some j
  invoked : (s.history j).invoked = 0

lemma skips_step {reason : FireReason} {s t : State J K V} {l : Label J K V} {j : J}
    (hi : Skips reason s j) (hs : Step cfg s l t) : Skips reason t j := by
  refine ⟨state_step hs hi.state, fun ht => ?_, ?_⟩
  · rcases attaching_step hs ht with hat | ⟨-, hnone⟩
    · exact hi.outside hat
    · rw [hi.state] at hnone
      cases hnone
  · rw [(invoked_step hs j).resolve_right hi.outside]
    exact hi.invoked

lemma skips_of_unchecked {reason : FireReason} {s : State J K V} (h : (isle cfg).Reachable s)
    {j : J} (hstate : (s.jobs j).token.state = some reason) (hchecks : (s.history j).checks = 0) :
    Skips reason s j := by
  refine ⟨hstate, fun hpc => ?_, (recorded_reachable h j).checked hchecks⟩
  have hagree := ((life_reachable h j).current (Pc.job?_of_attaching? hpc)).2
  have hun : (s.history j).Unrun 1 := by
    cases hp : s.pc with
    | attachStore | attachCheck | attachInterrupt =>
      rw [hp] at hagree
      exact hagree
    | _ =>
      rw [hp] at hpc
      cases hpc
  rw [hun.checks] at hchecks
  cases hchecks

lemma Life.answered {s : State J K V} {j : J} (hi : Life s j) (hchecks : (s.history j).checks ≠ 0)
    (hcur : s.pc.job? ≠ some j) :
    ∃ r, (s.jobs j).response = .answered r ∧ Answers (s.history j) r := by
  have hrec : Request.job j ∈ s.chan.received := by
    by_contra hrec
    exact hchecks (hi.waiting hrec).1.checks
  rcases hi.settled hrec hcur with ⟨-, r, hp, hans⟩ | ⟨hun, -, -⟩
  · exact ⟨r, hp, hans⟩
  · exact absurd hun.checks hchecks

/-- The thread has left the job `j`, and its response is `r`. -/
def RespondsOnceLeft (s : State J K V) (j : J) (r : Except IsleError V) : Prop :=
  s.pc.job? ≠ some j → (s.jobs j).response = .answered r

lemma responds_of_skipped {reason : FireReason} {s : State J K V} (h : (isle cfg).Reachable s)
    {j : J} (hi : Skips reason s j) (hchecks : (s.history j).checks ≠ 0) :
    RespondsOnceLeft s j (.error reason.error) := by
  intro hcur
  have hlife := life_reachable h j
  obtain ⟨r, hp, hans⟩ := hlife.answered hchecks hcur
  obtain ⟨reason', hhead, rfl⟩ := hans.skipped hi.invoked
  rw [hlife.fires, hi.state] at hhead
  cases hhead
  exact hp

lemma Recorded.invoked {h : History V} {c : Caught V} (hi : Recorded h) (hended : h.ended = some c) :
    h.invoked ≠ 0 ∧ h.checks ≠ 0 := by
  have hinvoked : h.invoked ≠ 0 := by
    intro hzero
    rw [hi.ended hzero] at hended
    cases hended
  exact ⟨hinvoked, fun hzero => hinvoked (hi.checked hzero)⟩

lemma responds_of_interrupted {reason : FireReason} {s : State J K V}
    (h : (isle cfg).Reachable s) {j : J} {e : RusqliteError} (hi : Kept reason s j)
    (hended : (s.history j).ended = some (.returned (.error e)))
    (hinterrupt : IsleError.isInterrupt e = true) :
    RespondsOnceLeft s j (.error reason.error) := by
  intro hcur
  have hlife := life_reachable h j
  have hrecorded := recorded_reachable h j
  obtain ⟨hinvoked, hchecks⟩ := hrecorded.invoked hended
  obtain ⟨r, hp, hans⟩ := hlife.answered hchecks hcur
  have hread : (s.history j).tokenRead ≠ some none := by
    intro hnone
    rcases hi.read with hr | hr <;> rw [hnone] at hr <;> cases hr
  have first {reason' : FireReason} (hhead : (s.history j).fires.head? = some reason') :
      reason' = reason := by
    rw [hlife.fires, hi.state] at hhead
    exact (Option.some.inj hhead).symm
  rw [hp]
  have hexplains := hans.explains
  cases r with
  | ok v =>
    rw [hexplains.2] at hended
    cases hended
  | error err =>
    cases err with
    | sqlite e' =>
      obtain ⟨-, hended', hreads⟩ := hexplains
      cases hended.symm.trans hended'
      exact absurd (hreads hinterrupt).1 hread
    | panicked message =>
      obtain ⟨-, payload, hended', -⟩ := hexplains
      rw [hended] at hended'
      cases hended'
    | cancelled | timeout => rw [← first hexplains.1]; rfl
    | closed =>
      rcases hexplains with hzero | ⟨-, habort⟩
      · exact absurd hzero hinvoked
      · exact absurd (hrecorded.abort (by rw [habort]; simp)) hread
    | queueFull => exact absurd hexplains hinvoked

lemma responds_of_failed {s : State J K V} (h : (isle cfg).Reachable s) {j : J}
    {e : RusqliteError} (hended : (s.history j).ended = some (.returned (.error e)))
    (hother : IsleError.isInterrupt e = false) :
    RespondsOnceLeft s j (.error (.sqlite e)) := by
  intro hcur
  have hlife := life_reachable h j
  obtain ⟨hinvoked, hchecks⟩ := (recorded_reachable h j).invoked hended
  obtain ⟨r, hp, hans⟩ := hlife.answered hchecks hcur
  have quiet : ¬ (s.history j).Interrupted := by
    rintro ⟨-, e', hended', hinterrupt⟩
    cases hended.symm.trans hended'
    rw [hother] at hinterrupt
    cases hinterrupt
  rw [hp]
  have hexplains := hans.explains
  cases r with
  | ok v =>
    rw [hexplains.2] at hended
    cases hended
  | error err =>
    cases err with
    | sqlite e' =>
      cases hended.symm.trans hexplains.2.1
      rfl
    | panicked message =>
      obtain ⟨-, payload, hended', -⟩ := hexplains
      rw [hended] at hended'
      cases hended'
    | cancelled | timeout => exact (hexplains.2.elim hinvoked quiet).elim
    | closed => exact (hexplains.elim hinvoked (fun h => quiet h.1)).elim
    | queueFull => exact absurd hexplains hinvoked

/-- What everyone reads of a token that fired first for `reason`. -/
structure Reads (token : CancelToken) (reason : FireReason) : Prop where
  state : token.state = some reason
  fired : token.fired = some reason.error
  isCancelled : token.isCancelled = true ↔ reason = .cancelled

lemma reads_of_state {token : CancelToken} {reason : FireReason}
    (h : token.state = some reason) : Reads token reason := by
  refine ⟨h, by rw [CancelToken.fired, h]; rfl, ?_⟩
  rw [CancelToken.isCancelled, h, decide_eq_true_iff]
  exact ⟨fun hr => Option.some.inj hr, fun hr => hr ▸ rfl⟩

/-- The reason of the first fire is the state of the token, then and for ever, and everyone reads
it. A first fire before the queued-stage check keeps the closure from being entered, and a first
fire before the end of a closure that returns `SQLITE_INTERRUPT` explains that error: the response
is the reason. Any other error is passed through. -/
theorem first_reason_wins {s : State J K V} (hs : (isle cfg).Reachable s) (j : J) :
    (s.jobs j).token.state = (s.history j).fires.head? ∧
    (∀ reason, (s.history j).fires.head? = some reason → ∀ t, (isle cfg).Run s t →
      Reads (t.jobs j).token reason ∧
      ((s.history j).checks = 0 → (t.history j).invoked = 0 ∧
        ((t.history j).checks ≠ 0 → RespondsOnceLeft t j (.error reason.error))) ∧
      ((s.history j).ended = none → ∀ e, (t.history j).ended = some (.returned (.error e)) →
        IsleError.isInterrupt e = true → RespondsOnceLeft t j (.error reason.error))) ∧
    ∀ e, (s.history j).ended = some (.returned (.error e)) → IsleError.isInterrupt e = false →
      RespondsOnceLeft s j (.error (.sqlite e)) := by
  have hfires := (life_reachable hs j).fires
  refine ⟨hfires.symm, fun reason hhead t ht => ⟨?_, fun hchecks => ?_, fun hended e => ?_⟩,
    fun e => responds_of_failed hs⟩
  · refine reads_of_state ?_
    exact TransitionSystem.Run.invariant (I := fun s => (s.jobs j).token.state = some reason)
      (fun _ _ _ hi hst => state_step hst hi) ht (hfires.symm.trans hhead)
  · have hskips : Skips reason t j :=
      TransitionSystem.Run.invariant (I := fun s => Skips reason s j)
        (fun _ _ _ hi hst => skips_step hi hst) ht
        (skips_of_unchecked hs (hfires.symm.trans hhead) hchecks)
    exact ⟨hskips.invoked, responds_of_skipped (hs.run ht) hskips⟩
  · have hkept : Kept reason t j :=
      TransitionSystem.Run.invariant (I := fun s => Kept reason s j)
        (fun _ _ _ hi hst => kept_step hi hst) ht
        ⟨hfires.symm.trans hhead, Or.inl ((recorded_reachable hs j).token hended)⟩
    exact responds_of_interrupted (hs.run ht) hkept

/-- An asynchronous isle with one job that has a deadline. -/
def oneDeadline : Config Unit ℕ := { oneJob with front := .async, api := fun _ => .callTimeout }

/-- The deadline elapses while the job is queued, and the future is dropped after that. The cancel
of its task changes nothing. -/
theorem first_reason_wins_queued : ∃ t : State Unit Unit ℕ,
    (t.history ()).fires = [.timeout, .cancelled] ∧ (t.history ()).invoked = 0 ∧
      (t.jobs ()).response = .answered (.error .timeout) := by
  have h0 := TransitionSystem.Reachable.refl (T := isle (K := Unit) oneDeadline)
  have h1 := h0.tail (.submit (j := ()) rfl (by decide) rfl)
  have h2 := h1.tail (.enqueue (j := ()) rfl rfl)
  have h3 := h2.tail (.deadline (j := ()) rfl rfl rfl rfl rfl)
  have r0 := h3.here
  have r1 := r0.tail (.fireInterrupt (j := ()) (by decide)) trivial
  have r2 := r1.tail (.dropAsyncTask (j := ()) rfl (by simp [State.beginFire])
    (by simp [State.beginFire]) rfl) trivial
  have r3 := r2.tail (.fireInterrupt (j := ()) (by decide)) trivial
  have r4 := r3.tail (.recvJob (j := ()) rfl rfl) trivial
  have r5 := r4.tail (.loadAbort (j := ()) rfl) trivial
  have r6 := r5.tail (.queuedCheck (j := ()) rfl) trivial
  have r7 := r6.tail (.respond (j := ()) rfl) trivial
  obtain ⟨hinvoked, hresponds⟩ := ((first_reason_wins h3 ()).2.1 .timeout rfl _ r7).2.1 rfl
  exact ⟨_, rfl, hinvoked, hresponds (by decide) (by simp [Pc.job?, Pc.afterJob])⟩

end RusqliteIsle
