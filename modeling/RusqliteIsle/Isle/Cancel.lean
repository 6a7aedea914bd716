import RusqliteIsle.Isle.Statements

/-!
# Cancelling a job that runs statements

An interrupt aborts what is in progress. One that is issued while no statement of the
closure is in progress is wiped out by the start of the next statement, so a cancellation
survives exactly when its interrupt finds a statement. `Delivers` is that condition on the
steps of a run.
-/

namespace RusqliteIsle

set_option linter.unusedSectionVars false

variable {J K V : Type} [DecidableEq J] [DecidableEq K] {cfg : Config J V}

/-- A call of `fire` on the token of `j` has returned while the last of its `n` statements was
still ahead. -/
structure Ahead (n : ℕ) (s : State J K V) (j : J) : Prop where
  fired : 0 < (s.history j).fired
  started : (s.history j).started < n
  ended : (s.history j).ended = none
  unfinished : ∀ c, s.pc = .closure j c → c.atEnd = false

/-- From every state in which a cancellation of `j` came in time, on every run whose steps meet
`P`, the last statement does not complete and the response is the error of the token. -/
def NoLostCancellation (cfg : Config J V) (P : State J K V → Label J K V → Prop) (j : J)
    (n : ℕ) : Prop :=
  ∀ s t, (isle cfg).ReachableVia P s → Ahead n s j → (isle cfg).RunVia P s t →
    (t.history j).completed < n ∧ ∀ r, (t.jobs j).response = .answered r →
      ∃ err, (t.jobs j).token.fired = some err ∧ r = .error err

/-- An interrupt issued through the token of `j`, by `fire` or by the re-check of `attach`, finds
a statement in progress or a closure that has no statement left. -/
def Delivers (cfg : Config J V) (j : J) (s : State J K V) : Label J K V → Prop
  | .fireInterrupt i => i = j →
      ∀ c, s.pc = .closure j c → c.atEnd = true ∨ 0 < s.conn.inProgress
  | .attachInterrupt i => i = j → (cfg.prog j).atEnd = true ∨ 0 < s.conn.inProgress
  | _ => True

/-- Once a call of `fire` has returned, the closure is about to be aborted. -/
def Armed (s : State J K V) (j : J) : Prop := 0 < (s.history j).fired → Stopping s j

lemma armed_step {out : List V → V} {n : ℕ} {s t : State J K V} {l : Label J K V} {j : J}
    (hatt : Attached s j) (hcount : Counted out n s j) (hi : Armed s j)
    (hP : Delivers cfg j s l) (hs : Step cfg s l t) : Armed t j := by
  intro hfired
  rcases (history_step hs j).fired with h | rfl
  · rw [h] at hfired
    refine stopping_step hcount (hi hfired) ?_ ?_ hs
    · exact fun _ _ hstate => absurd hstate (hatt.fired (Or.inr hfired))
    · rintro rfl hpc
      exact (hP rfl).imp_right (hatt.struck (by rw [hpc]; rfl))
  · cases hs with
    | fireInterrupt =>
      intro c hc
      exact (hP rfl c hc).imp_right (hatt.struck (by rw [show s.pc = _ from hc]; rfl))

theorem armed_reachable {out : List V → V} {stmts : List String} {j : J}
    (hprog : cfg.prog j = .ofStmts out [] stmts) {s : State J K V}
    (h : (isle cfg).ReachableVia (Delivers cfg j) s) : Armed s j := by
  refine TransitionSystem.ReachableVia.invariant_of
    (J := fun s => Attached s j ∧ Counted out stmts.length s j) (I := fun s => Armed s j)
    (fun s hs => ⟨attached_reachable hs j, counted_reachable hprog hs⟩) ?_ ?_ h
  · intro _ c hc
    cases hc
  · exact fun s l t hJ hi hP hs => armed_step hJ.1 hJ.2 hi hP hs

/-- The job `j` was cancelled in time: its last statement will not complete, and its response is
the error of the token. -/
structure Doomed (reason : FireReason) (n : ℕ) (s : State J K V) (j : J) : Prop where
  fired : 0 < (s.history j).fired
  state : (s.jobs j).token.state = some reason
  short : (s.history j).completed < n
  falls : Falls (· = .error reason.error) s j

lemma doomed_step {out : List V → V} {stmts : List String} {reason : FireReason}
    {s t : State J K V} {l : Label J K V} {j : J} (hprog : cfg.prog j = .ofStmts out [] stmts)
    (hcount : Counted out stmts.length s j) (harmed : Armed s j)
    (hi : Doomed reason stmts.length s j) (hs : Step cfg s l t) :
    Doomed reason stmts.length t j := by
  have herror : (s.jobs j).token.fired = some reason.error :=
    CancelToken.fired_eq_some.mpr ⟨reason, hi.state, rfl⟩
  have hstop := harmed hi.fired
  have hend : (cfg.prog j).atEnd = false := by
    rw [hprog]
    refine Closure.ofStmts_atEnd (fun h => ?_)
    have hshort := hi.short
    simp [h] at hshort
  refine ⟨?_, state_step hs hi.state, (completed_of_stopping hstop hs).trans_lt hi.short, ?_⟩
  · rcases (history_step hs j).fired with h | rfl
    · exact h ▸ hi.fired
    · cases hs with
      | fireInterrupt => simp
  · refine falls_step hcount hstop (fun _ => hend) ?_ ?_ hi.falls hs
    · intro err h
      rw [herror] at h
      cases h
      rfl
    · intro h
      rw [herror] at h
      cases h

lemma Ahead.doomed {n : ℕ} {out : List V → V} {s : State J K V} {j : J} (ha : Ahead n s j)
    (hatt : Attached s j) (hlife : Life s j) (hcount : Counted out n s j) :
    ∃ reason, Doomed reason n s j := by
  obtain ⟨reason, hstate⟩ := Option.ne_none_iff_exists'.mp (hatt.fired (Or.inr ha.fired))
  have hanswer {r : Except IsleError V} (hr : Answers (s.history j) r) :
      r = .error reason.error := by
    obtain ⟨reason', hhead, rfl⟩ := hr.skipped (hr.explains.not_invoked ha.ended)
    rw [hlife.fires, hstate] at hhead
    cases hhead
    rfl
  refine ⟨reason, ha.fired, hstate, hcount.ordered.trans_lt ha.started, ?_, ?_⟩
  · cases hpc : s.pc with
    | closure i c =>
      intro hij hend
      subst hij
      rw [ha.unfinished c hpc] at hend
      cases hend
    | detach i result =>
      intro hij
      subst hij
      have hran : (s.history i).Ran (some result) _ := (hlife.at_pc hpc rfl).2
      have hended := hran.ended
      rw [ha.ended] at hended
      cases hended
    | normalizeAbort i e =>
      intro hij
      subst hij
      obtain ⟨hran, -⟩ : (s.history i).Ran _ _ ∧ _ := (hlife.at_pc hpc rfl).2
      have hended := hran.ended
      rw [ha.ended] at hended
      cases hended
    | respond i r outcome =>
      intro hij
      subst hij
      exact hanswer (hlife.at_pc hpc rfl).2.2
    | _ => trivial
  · exact fun r hr => hanswer (hlife.answers hr)

/-- On the runs where every interrupt through the token of `j` is delivered, no cancellation
of `j` is lost. -/
theorem cancellation_not_lost {out : List V → V} {stmts : List String} {j : J}
    (hprog : cfg.prog j = .ofStmts out [] stmts) :
    NoLostCancellation (K := K) cfg (Delivers cfg j) j stmts.length := by
  intro s t hs ha ht
  have hreach := hs.reachable
  obtain ⟨reason, hdoomed⟩ := ha.doomed (attached_reachable hreach j) (life_reachable hreach j)
    (counted_reachable hprog hreach)
  have hend : Armed t j ∧ Doomed reason stmts.length t j := by
    refine TransitionSystem.RunVia.invariant_of
      (J := fun s => Attached s j ∧ Counted out stmts.length s j)
      (I := fun s => Armed s j ∧ Doomed reason stmts.length s j)
      (fun s h => ⟨attached_reachable h j, counted_reachable hprog h⟩) ?_ hreach ht
      ⟨armed_reachable hprog hs, hdoomed⟩
    exact fun s l t hJ hi hP hst => ⟨armed_step hJ.1 hJ.2 hi.1 hP hst,
      doomed_step hprog hJ.2 hi.1 hi.2 hst⟩
  refine ⟨hend.2.short, fun r hr => ⟨reason.error, ?_, hend.2.falls.answered r hr⟩⟩
  exact CancelToken.fired_eq_some.mpr ⟨reason, hend.2.state, rfl⟩

/-- The token fires between the queued-stage check and `attach`. The re-check of `attach`
interrupts while nothing is in progress, the statement runs to completion, the answer is `Ok`. -/
theorem cancellation_lost_in_attach :
    ¬ NoLostCancellation (K := Unit) oneJob (fun _ _ => True) () 1 := by
  intro h
  have h0 := TransitionSystem.Reachable.refl (T := isle (K := Unit) oneJob)
  have h1 := h0.tail (.submit (j := ()) rfl (by decide) rfl)
  have h2 := h1.tail (.enqueue (j := ()) rfl rfl)
  have h3 := h2.tail (.recvJob (j := ()) rfl rfl)
  have h4 := h3.tail (.loadAbort (j := ()) rfl)
  have h5 := h4.tail (.queuedCheck (j := ()) rfl)
  have h6 := h5.tail (.cancel (j := ()) (by decide))
  have h7 := h6.tail (.fireInterrupt (j := ()) (by decide))
  have r0 : (isle oneJob).Run _ _ := h7.here
  have r1 := r0.tail (.attachStore (j := ()) rfl)
  have r2 := r1.tail (.attachCheckFired (j := ()) rfl (by decide))
  have r3 := r2.tail (.attachInterrupt (j := ()) rfl)
  have r4 := r3.tail (.stmtStart (j := ()) rfl)
  have r5 := r4.tail (.stmtComplete (j := ()) (v := 7) rfl rfl)
  exact absurd (h _ _ h7 ⟨by decide, by decide, rfl, fun _ hc => by cases hc⟩ r5).1 (by decide)

/-- An isle with one job that runs two statements. -/
def twoStmts : Config Unit ℕ := { oneJob with
  prog := fun _ => Closure.ofStmts List.length [] ["BEGIN", "SELECT 1"] }

/-- The token fires while the first of the two statements is in progress. -/
theorem cancellation_not_lost_first : ∃ s t : State Unit Unit ℕ,
    (isle twoStmts).RunVia (Delivers twoStmts ()) s t ∧ Ahead 2 s () ∧
      (t.jobs ()).response = .answered (.error .cancelled) ∧ (t.history ()).completed < 2 := by
  have h0 : (isle (K := Unit) twoStmts).ReachableVia (Delivers twoStmts ()) _ :=
    TransitionSystem.RunVia.refl _
  have h1 := h0.tail (.submit (j := ()) rfl (by decide) rfl) trivial
  have h2 := h1.tail (.enqueue (j := ()) rfl rfl) trivial
  have h3 := h2.tail (.recvJob (j := ()) rfl rfl) trivial
  have h4 := h3.tail (.loadAbort (j := ()) rfl) trivial
  have h5 := h4.tail (.queuedCheck (j := ()) rfl) trivial
  have h6 := h5.tail (.attachStore (j := ()) rfl) trivial
  have h7 := h6.tail (.attachCheckNone (j := ()) rfl rfl) trivial
  have h8 := h7.tail (.stmtStart (j := ()) rfl) trivial
  have h9 := h8.tail (.cancel (j := ()) (by decide)) trivial
  have h10 := h9.tail (.fireInterrupt (j := ()) (by decide)) (fun _ _ _ => Or.inr (by decide))
  have r0 := h10.here
  have r1 := r0.tail (.stmtAbort (j := ()) rfl rfl) trivial
  have r2 := r1.tail (.closureRet (j := ()) rfl) trivial
  have r3 := r2.tail (.detach (j := ()) rfl) trivial
  have r4 := r3.tail (.normalizeToken (j := ()) rfl) trivial
  have r5 := r4.tail (.respond (j := ()) rfl) trivial
  have hprog : twoStmts.prog () = .ofStmts List.length [] ["BEGIN", "SELECT 1"] := rfl
  have hlost := cancellation_not_lost (K := Unit) hprog
  refine ⟨_, _, r5, ?ahead, rfl, (hlost _ _ h10 ?ahead r5).1⟩
  refine ⟨by decide, by decide, rfl, fun c hc => ?_⟩
  cases hc
  rfl

end RusqliteIsle
