import RusqliteIsle.Isle.Abort
import RusqliteIsle.Isle.Statements

/-!
# The interrupt of `shutdown_now`

The interrupt is issued once. It stops the job in flight if it finds a statement in progress;
between two statements, or before the first one, it is wiped out by the next start. `Bites`
is the condition that it finds a statement or a job with nothing left to start.
-/

namespace RusqliteIsle

set_option linter.unusedSectionVars false

variable {J K V : Type} [DecidableEq J] [DecidableEq K] {cfg : Config J V}

/-- The abort flag is stored and the interrupt has been issued. -/
def Interrupted (s : State J K V) : Prop := s.abort = true ∧ s.driver ≠ .interrupting

/-- The loop has let `j` past its abort check, and will enter its closure unless the token
fires first. -/
def Entering (s : State J K V) (j : J) : Prop :=
  (s.pc = .queuedCheck j ∧ (s.jobs j).token.state = none) ∨ s.pc = .attachStore j ∨
    s.pc = .attachCheck j ∨ s.pc = .attachInterrupt j

lemma Entering.job? {s : State J K V} {j : J} (h : Entering s j) : s.pc.job? = some j := by
  rcases h with ⟨hpc, -⟩ | hpc | hpc | hpc <;> rw [hpc] <;> rfl

/-- The interrupt of `shutdown_now` finds a statement in progress, or a job `j` that has no
statement left to start. -/
def Bites (cfg : Config J V) (j : J) (s : State J K V) : Label J K V → Prop
  | .driverInterrupt =>
      (Entering s j → (cfg.prog j).atEnd = true ∨ 0 < s.conn.inProgress) ∧
        ∀ c, s.pc = .closure j c → c.atEnd = true ∨ 0 < s.conn.inProgress
  | _ => True

/-- A statement of `j` that starts after the flag was stored and the interrupt was issued does
not complete, and the response is `Closed` or the error of the token. -/
def NotSlippedPast (cfg : Config J V) (P : State J K V → Label J K V → Prop) (j : J) : Prop :=
  ∀ s t, (isle cfg).ReachableVia P s → Interrupted s → (isle cfg).RunVia P s t →
    (s.history j).started < (t.history j).started →
    (t.history j).completed ≤ (s.history j).started ∧
      ∀ r, (t.jobs j).response = .answered r →
        r = .error .closed ∨ ∃ err, (t.jobs j).token.fired = some err ∧ r = .error err

lemma interrupted_step {s t : State J K V} {l : Label J K V} (hfirst : AbortFirst s)
    (hi : Interrupted s) (hs : Step cfg s l t) : Interrupted t := by
  refine ⟨abort_step hs hi.1, ?_⟩
  have hkeep := hi.2
  cases hs with
  | driverStore hdriver =>
    have habort := hfirst.early (Or.inr hdriver)
    rw [hi.1] at habort
    cases habort
  | driverShutdown | driverShutdownNow | driverInterrupt | driverSend | driverSendClosed
  | driverDone | driverJoin | driverDrop => simp
  | _ => exact hkeep

lemma interrupted_of_step {s t : State J K V} {l : Label J K V} (hi : Interrupted t)
    (hs : Step cfg s l t) :
    Interrupted s ∨ (l = .driverInterrupt ∧ t.pc = s.pc ∧ t.jobs = s.jobs ∧
      t.conn = s.conn.interrupt .driver) := by
  cases hs with
  | driverInterrupt => exact Or.inr ⟨rfl, rfl, rfl, rfl⟩
  | driverStore => exact absurd rfl hi.2
  | driverShutdown hdriver | driverShutdownNow hdriver | driverSend hdriver
  | driverSendClosed hdriver | driverDone hdriver | driverJoin hdriver =>
    exact Or.inl ⟨hi.1, by simp [hdriver]⟩
  | driverDrop hdriver =>
    refine Or.inl ⟨hi.1, ?_⟩
    rcases hdriver with h | h | h <;> simp [h]
  | _ => exact Or.inl hi

lemma entering_step {s t : State J K V} {l : Label J K V} {j : J} (habort : s.abort = true)
    (he : Entering t j) (hs : Step cfg s l t) :
    Entering s j ∧ (t.conn = s.conn ∨ ∃ source, t.conn = s.conn.interrupt source) := by
  obtain rfl | hf | hl := step_about hs j
  · cases hs with
    | threadFinish => simp [Entering] at he
  · have hcur : s.pc.job? = some j := hf.current he.job?
    rw [Entering, hf.pc hcur, hf.job] at he
    exact ⟨he, hf.conn hcur⟩
  cases hs with
  | loadAbort =>
    cases hl
    simp [Entering, habort] at he
  | queuedCheck hpc =>
    cases hl
    cases hfired : (s.jobs j).token.fired with
    | none => exact ⟨Or.inl ⟨hpc, CancelToken.fired_eq_none.mp hfired⟩, Or.inl rfl⟩
    | some err => simp [Entering, hfired] at he
  | attachStore hpc | attachCheckFired hpc =>
    cases hl
    exact ⟨by simp [Entering, hpc], Or.inl rfl⟩
  | @detach i result =>
    obtain ⟨e, hpc⟩ | ⟨r, outcome, hpc⟩ := Pc.afterDetach_cases i result <;>
      simp [Entering, hpc] at he
  | recvJob | discard | attachCheckNone | attachInterrupt | stmtStart | stmtComplete | stmtFail
  | stmtAbort | closureRet | closurePanic | normalizeAbort =>
    simp [Entering, State.invoke] at he
  | normalizeToken =>
    dsimp only [Entering] at he
    split at he <;> simp at he
  | @respond _ _ outcome => cases outcome <;> simp [Entering, Pc.afterJob] at he
  | deadline | cancel | dropAsyncTask =>
    cases hl
    simp [Entering, State.beginFire, compareExchange_fired] at he
    exact ⟨by simp [Entering, he], Or.inl rfl⟩
  | fireInterrupt =>
    cases hl
    exact ⟨by simpa [Entering] using he, CancelToken.interruptVia_eq _ _ _⟩
  | submit | enqueue | abandon | observe | dropSyncTask | detachTask =>
    cases hl
    exact ⟨by simpa [Entering] using he, Or.inl rfl⟩
  | refuseClosed | refuseFull =>
    cases hl
    exact ⟨by simpa [Entering, State.refuse] using he, Or.inl rfl⟩
  | _ => cases hl

/-- Once the interrupt was issued, the closure of `j` is not entered, or is about to be aborted. -/
structure Halted (cfg : Config J V) (s : State J K V) (j : J) : Prop where
  entering : Entering s j → (cfg.prog j).atEnd = true ∨ Struck s.conn
  stopping : Stopping s j

lemma halted_step {out : List V → V} {n : ℕ} {s t : State J K V} {l : Label J K V} {j : J}
    (hcount : Counted out n s j) (hi : Interrupted s → Halted cfg s j)
    (hP : Bites cfg j s l) (hs : Step cfg s l t) (ht : Interrupted t) : Halted cfg t j := by
  rcases interrupted_of_step ht hs with hint | ⟨rfl, hpc, hjobs, hconn⟩
  · obtain ⟨hent, hstop⟩ := hi hint
    refine ⟨fun he => ?_, stopping_step hcount hstop ?_ ?_ hs⟩
    · obtain ⟨he', hconn⟩ := entering_step hint.1 he hs
      exact (hent he').imp_right (fun h => h.interrupt hconn)
    · exact fun _ hpc _ => hent (by simp [Entering, hpc])
    · exact fun _ hpc => (hent (by simp [Entering, hpc])).imp_right
        (fun h => h.interrupt (CancelToken.interruptVia_eq _ _ _))
  · refine ⟨fun he => ?_, fun c hc => ?_⟩
    · rw [Entering, hpc, hjobs] at he
      exact (hP.1 he).imp_right (fun hpos => by rw [hconn]; exact ⟨rfl, hpos⟩)
    · rw [hpc] at hc
      exact (hP.2 c hc).imp_right (fun hpos => by rw [hconn]; exact ⟨rfl, hpos⟩)

/-- The responses that a job may resolve to once a statement of it was aborted. -/
def ClosedOrFired (r : Except IsleError V) : Prop :=
  r = .error .closed ∨ ∃ reason : FireReason, r = .error reason.error

/-- The interrupt was issued when `base` statements of `j` had started and `done` had completed.
None completes any more, and if one has started since then, the job falls. -/
structure CutShort (cfg : Config J V) (base done : ℕ) (s : State J K V) (j : J) : Prop where
  interrupted : Interrupted s
  halted : Halted cfg s j
  completed : (s.history j).completed = done
  falls : base < (s.history j).started → Falls ClosedOrFired s j

lemma cutShort_step {out : List V → V} {stmts : List String} {base done : ℕ}
    {s t : State J K V} {l : Label J K V} {j : J} (hfirst : AbortFirst s) (hlife : Life s j)
    (hcount : Counted out stmts.length s j) (hi : CutShort cfg base done s j)
    (hP : Bites cfg j s l) (hs : Step cfg s l t) : CutShort cfg base done t j := by
  have ht := interrupted_step hfirst hi.interrupted hs
  refine ⟨ht, halted_step hcount (fun _ => hi.halted) hP hs ht,
    (completed_of_stopping hi.halted.stopping hs).trans hi.completed, fun hbase => ?_⟩
  rcases (history_step hs j).started with hstarted | rfl
  · rw [hstarted] at hbase
    refine falls_step hcount hi.halted.stopping (fun henter => ?_) (fun err herr => ?_)
      (fun _ => ⟨hi.interrupted.1, Or.inl rfl⟩) (hi.falls hbase) hs
    · -- a job that has started a statement does not enter its closure again
      have hun : (s.history j).Unrun 1 := by
        rcases henter with hpc | hpc <;> exact (hlife.at_pc hpc rfl).2
      rw [hun.started] at hbase
      exact absurd hbase (Nat.not_lt_zero _)
    · obtain ⟨reason, -, rfl⟩ := CancelToken.fired_eq_some.mp herr
      exact Or.inr ⟨reason, rfl⟩
  · cases hs with
    | stmtStart hpc =>
      obtain ⟨-, hend, -⟩ := (hcount.running _ hpc).of_start
      refine ⟨fun _ h => ?_, fun r hr => ?_⟩
      · rw [hend] at h
        cases h
      · rw [show (s.jobs j).response = .pending from (hlife.at_pc hpc rfl).1] at hr
        cases hr

lemma halted_reachable {out : List V → V} {stmts : List String} {j : J}
    (hprog : cfg.prog j = .ofStmts out [] stmts) {s : State J K V}
    (hs : (isle cfg).ReachableVia (Bites cfg j) s) (hint : Interrupted s) : Halted cfg s j := by
  refine TransitionSystem.ReachableVia.invariant_of (J := fun s => Counted out stmts.length s j)
    (I := fun s => Interrupted s → Halted cfg s j) (fun s h => counted_reachable hprog h)
    (fun h => by cases h.1) ?_ hs hint
  exact fun s l t hJ hi hP hst hint => halted_step hJ hi hP hst hint

/-- On the runs where the interrupt of `shutdown_now` finds a statement of the job in flight, or
a job with nothing left to start, no statement slips past it. -/
theorem interrupt_not_slipped_past {out : List V → V} {stmts : List String} {j : J}
    (hprog : cfg.prog j = .ofStmts out [] stmts) :
    NotSlippedPast (K := K) cfg (Bites cfg j) j := by
  intro s t hs hint ht hstarted
  have hend : CutShort cfg (s.history j).started (s.history j).completed t j := by
    refine TransitionSystem.RunVia.invariant_of
      (J := fun s => AbortFirst s ∧ Life s j ∧ Counted out stmts.length s j)
      (I := fun u => CutShort cfg (s.history j).started (s.history j).completed u j)
      (fun s h => ⟨abortFirst_reachable h, life_reachable h j, counted_reachable hprog h⟩) ?_
      hs.reachable ht ⟨hint, halted_reachable hprog hs hint, rfl, fun h => absurd h (lt_irrefl _)⟩
    exact fun s l t hJ hi hP hst => cutShort_step hJ.1 hJ.2.1 hJ.2.2 hi hP hst
  refine ⟨?_, fun r hr => ?_⟩
  · rw [hend.completed]
    exact (counted_reachable hprog hs.reachable).ordered
  · have hlife := life_reachable (hs.run ht).reachable j
    rcases (hend.falls hstarted).answered r hr with h | ⟨reason, rfl⟩
    · exact Or.inl h
    · refine Or.inr ⟨_, CancelToken.fired_eq_some.mpr ⟨reason, ?_, rfl⟩, rfl⟩
      rw [← hlife.fires]
      cases reason with
      | cancelled => exact (hlife.answers hr).explains.1
      | timeout => exact (hlife.answers hr).explains.1

/-- Where every job runs a list of statements, none is left in progress when one starts. So on these
runs the job starts no statement any more once the interrupt has been issued; only a statement that
another closure has left in progress lets one start, to be aborted. -/
theorem not_stmtStart_of_interrupted {out : J → List V → V} {stmts : J → List String}
    (hprog : ∀ i, cfg.prog i = .ofStmts (out i) [] (stmts i)) {j : J} {s t : State J K V}
    (hs : (isle cfg).ReachableVia (Bites cfg j) s) (hint : Interrupted s) :
    ¬ Step cfg s (.stmtStart j) t := by
  intro hst
  have hbal (i : J) : (cfg.prog i).Balanced 0 := by
    rw [hprog i]
    exact Closure.ofStmts_balanced _ _ _
  have hdepth := (window_reachable hbal hs.reachable).depth
  have hstop := (halted_reachable (hprog j) hs hint).stopping
  have hcount := (counted_reachable (hprog j) hs.reachable).running
  cases hst with
  | stmtStart hpc =>
    rw [hpc] at hdepth
    have hzero := (hcount _ hpc).depth_of_start hdepth
    rcases hstop _ hpc with hend | hstruck
    · cases hend
    · exact absurd hstruck.2 (by simp [hzero])

/-- An asynchronous isle with one job that runs two statements. -/
def asyncStmts : Config Unit ℕ := { oneJob with
  front := .async
  prog := fun _ => Closure.ofStmts List.length [] ["BEGIN", "SELECT 1"] }

/-- The interrupt comes between the two statements. The second one clears the mark when it is
started and runs to completion. -/
theorem interrupt_slipped_past_between :
    ¬ NotSlippedPast (K := Unit) asyncStmts (fun _ _ => True) () := by
  intro h
  have h0 := TransitionSystem.Reachable.refl (T := isle (K := Unit) asyncStmts)
  have h1 := h0.tail (.submit (j := ()) rfl (by decide) rfl)
  have h2 := h1.tail (.enqueue (j := ()) rfl rfl)
  have h3 := h2.tail (.recvJob (j := ()) rfl rfl)
  have h4 := h3.tail (.loadAbort (j := ()) rfl)
  have h5 := h4.tail (.queuedCheck (j := ()) rfl)
  have h6 := h5.tail (.attachStore (j := ()) rfl)
  have h7 := h6.tail (.attachCheckNone (j := ()) rfl rfl)
  have h8 := h7.tail (.stmtStart (j := ()) rfl)
  have h9 := h8.tail (.stmtComplete (j := ()) (v := 1) rfl rfl)
  have h10 := h9.tail (.driverShutdownNow rfl)
  have h11 := h10.tail (.driverStore rfl)
  have h12 := h11.tail (.driverInterrupt rfl)
  have r0 : (isle asyncStmts).Run _ _ := h12.here
  have r1 := r0.tail (.stmtStart (j := ()) rfl)
  have r2 := r1.tail (.stmtComplete (j := ()) (v := 2) rfl rfl)
  exact absurd (h _ _ h12 ⟨rfl, by decide⟩ r2 (by decide)).1 (by decide)

/-- An asynchronous isle with a job that leaves its statement in progress and a job that runs
one statement. -/
def leftInProgress : Config Bool ℕ where
  front := .async
  cap := 2
  api := fun _ => .call
  prog := fun
    | true => .start "BEGIN" (.ret (.ok 0))
    | false => Closure.ofStmts List.length [] ["SELECT 1"]

/-- The interrupt comes right before the statement of the second job is started. The statement
left in progress keeps the mark, and the statement is aborted. -/
theorem interrupt_not_slipped_past_busy : ∃ s t : State Bool Unit ℕ,
    (isle leftInProgress).RunVia (Bites leftInProgress false) s t ∧ Interrupted s ∧
      (s.history false).started < (t.history false).started ∧
      (t.jobs false).response = .answered (.error .closed) ∧
      (t.history false).completed ≤ (s.history false).started := by
  have h0 : (isle (K := Unit) leftInProgress).ReachableVia (Bites leftInProgress false) _ :=
    TransitionSystem.RunVia.refl _
  have h1 := h0.tail (.submit (j := true) rfl (by decide) rfl) trivial
  have h2 := h1.tail (.enqueue (j := true) rfl rfl) trivial
  have h3 := h2.tail (.submit (j := false) rfl (by decide) rfl) trivial
  have h4 := h3.tail (.enqueue (j := false) rfl rfl) trivial
  have h5 := h4.tail (.recvJob (j := true) rfl rfl) trivial
  have h6 := h5.tail (.loadAbort (j := true) rfl) trivial
  have h7 := h6.tail (.queuedCheck (j := true) rfl) trivial
  have h8 := h7.tail (.attachStore (j := true) rfl) trivial
  have h9 := h8.tail (.attachCheckNone (j := true) rfl rfl) trivial
  have h10 := h9.tail (.stmtStart (j := true) rfl) trivial
  have h11 := h10.tail (.closureRet (j := true) rfl) trivial
  have h12 := h11.tail (.detach (j := true) rfl) trivial
  have h13 := h12.tail (.respond (j := true) rfl) trivial
  have h14 := h13.tail (.recvJob (j := false) rfl rfl) trivial
  have h15 := h14.tail (.loadAbort (j := false) rfl) trivial
  have h16 := h15.tail (.queuedCheck (j := false) rfl) trivial
  have h17 := h16.tail (.attachStore (j := false) rfl) trivial
  have h18 := h17.tail (.driverShutdownNow rfl) trivial
  have h19 := h18.tail (.driverStore rfl) trivial
  have h20 := h19.tail (.driverInterrupt rfl)
    ⟨fun _ => Or.inr (by decide), fun _ hc => by cases hc⟩
  have r0 := h20.here
  have r1 := r0.tail (.attachCheckNone (j := false) rfl rfl) trivial
  have r2 := r1.tail (.stmtStart (j := false) rfl) trivial
  have r3 := r2.tail (.stmtAbort (j := false) rfl rfl) trivial
  have r4 := r3.tail (.closureRet (j := false) rfl) trivial
  have r5 := r4.tail (.detach (j := false) rfl) trivial
  have r6 := r5.tail (.normalizeToken (j := false) rfl) trivial
  have r7 := r6.tail (.normalizeAbort (j := false) rfl) trivial
  have r8 := r7.tail (.respond (j := false) rfl) trivial
  have hprog : leftInProgress.prog false = .ofStmts List.length [] ["SELECT 1"] := rfl
  have hslip := interrupt_not_slipped_past (K := Unit) hprog
  exact ⟨_, _, r8, ⟨rfl, by decide⟩, by decide, rfl,
    (hslip _ _ h20 ⟨rfl, by decide⟩ r8 (by decide)).1⟩

end RusqliteIsle
