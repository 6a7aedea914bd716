import RusqliteIsle.Isle.Returns
import RusqliteIsle.Isle.View

/-!
# What `is_alive` promises

Both front-ends let their owners ask whether the isle is alive. An answer that it is not is final:
the isle may still serve the jobs that it has accepted, but a job that has not been sent by then
comes behind the `Shutdown`, or finds no receiver, and its caller gets `Closed` or `QueueFull`.
-/

namespace RusqliteIsle

set_option linter.unusedSectionVars false

namespace Mailbox

variable {J : Type} [DecidableEq J]

lemma jobsAhead_map_append (js : List J) (rest : List (Request J)) :
    jobsAhead (js.map Request.job ++ rest) = js ++ jobsAhead rest := by
  induction js with
  | nil => rfl
  | cons j js ih =>
    change j :: jobsAhead (js.map Request.job ++ rest) = j :: (js ++ jobsAhead rest)
    rw [ih]

lemma jobsAhead_append {l : List (Request J)} (h : Request.shutdown ∈ l) (m : List (Request J)) :
    jobsAhead (l ++ m) = jobsAhead l := by
  induction l with
  | nil => cases h
  | cons r l ih =>
    cases r with
    | shutdown => rfl
    | job j =>
      change j :: jobsAhead (l ++ m) = j :: jobsAhead l
      rw [ih ((List.mem_cons.mp h).resolve_left (by simp))]

lemma mem_of_jobsAhead {l : List (Request J)} {j : J} (h : j ∈ jobsAhead l) :
    Request.job j ∈ l := by
  induction l with
  | nil => cases h
  | cons r l ih =>
    cases r with
    | shutdown => cases h
    | job i =>
      rcases List.mem_cons.mp h with rfl | h
      · exact List.mem_cons_self
      · exact List.mem_cons_of_mem _ (ih h)

lemma Inv.ahead {m : Mailbox J} (hi : Inv m) {j : J} (h : Request.job j ∈ m.chan.received) :
    j ∈ jobsAhead m.chan.sent := by
  by_cases hexit : m.exit = some .shutdown
  · rw [← hi.drained (Or.inl hexit)]
    exact mem_jobsOf.mpr h
  · rw [m.chan.history, List.append_assoc, hi.running hexit, jobsAhead_map_append]
    exact List.mem_append_left _ (mem_jobsOf.mpr h)

end Mailbox

variable {J K V : Type} [DecidableEq J] [DecidableEq K] {cfg : Config J V}

/-- `Isle::is_alive`. -/
def Isle.isAlive (s : State J K V) : Bool := s.view.isAlive

/-- `AsyncIsle::is_alive`: the channel is not closed. -/
def AsyncIsle.isAlive (s : State J K V) : Bool := s.chan.alive

/-- `AsyncIsleDriver::is_alive`. A driver that can be asked still has its join handle. -/
def AsyncIsleDriver.isAlive (s : State J K V) : Bool := !s.pc.isFinished

/-- Who can ask whether an isle is alive. -/
inductive Asker where
  | isle
  | asyncIsle
  | driver

def Asker.isAlive : Asker → State J K V → Bool
  | isle => Isle.isAlive
  | asyncIsle => AsyncIsle.isAlive
  | driver => AsyncIsleDriver.isAlive

/-- An isle is dead when its thread has ended, and an `Isle` also when its handle is taken. -/
lemma Asker.isAlive_eq_false {s : State J K V} (hlink : Link s) (a : Asker) :
    a.isAlive s = false ↔ (a = isle ∧ s.join = false) ∨ s.pc.isFinished = true := by
  cases a with
  | isle =>
    simp only [isAlive, Isle.isAlive, IsleView.isAlive, State.view]
    cases s.join <;> cases s.pc.isFinished <;> simp
  | asyncIsle => simp [isAlive, AsyncIsle.isAlive, hlink.alive]
  | driver => simp [isAlive, AsyncIsleDriver.isAlive]

lemma join_step {s t : State J K V} {l : Label J K V} (hs : Step cfg s l t) (h : s.join = false) :
    t.join = false := by
  cases hs with
  | shutTake => rfl
  | _ => exact h

lemma ending_of_taken {s : State J K V} (h : (isle cfg).Reachable s) (hjoin : s.join = false) :
    Ending s := by
  refine TransitionSystem.ReachableVia.invariant_of (J := (isle cfg).Reachable)
    (I := fun s => s.join = false → Ending s) (fun _ h => h) (fun h => by cases h) ?_ h hjoin
  intro s l t hr hi _ hs ht
  have hkeep := ending_step (link_reachable hr) hs
  cases hs with
  | @shutTake k hcall =>
    exact hkeep (ending_of_call (k := k) hr (by simp [hcall]) (by simp [hcall]))
  | _ => exact hkeep (hi ht)

/-- The job has come too late: it is not ahead of the `Shutdown`, or it was not sent while it could
have been. -/
def TooLate (s : State J K V) (j : J) : Prop :=
  (Request.shutdown ∈ s.chan.sent ∧ j ∉ jobsAhead s.chan.sent) ∨
    (s.pc.isFinished = true ∨ s.sendersGone = true) ∧ Request.job j ∉ s.chan.sent

lemma tooLate_of_ending {s : State J K V} (hlink : Link s) (hend : Ending s) {j : J}
    (hsub : (s.jobs j).submission ≠ .accepted) : TooLate s j := by
  have hsent : Request.job j ∉ s.chan.sent := fun h => hsub ((hlink.accepted j).mp h)
  rcases hend with (hshut | hgone) | hfin
  · exact Or.inl ⟨hshut, fun h => hsent (Mailbox.mem_of_jobsAhead h)⟩
  · exact Or.inr ⟨Or.inr hgone, hsent⟩
  · exact Or.inr ⟨Or.inl hfin, hsent⟩

lemma tooLate_step {s t : State J K V} {l : Label J K V} {j : J} (hlink : Link s)
    (hi : TooLate s j) (hs : Step cfg s l t) : TooLate t j := by
  have hend : s.pc.isFinished = true ∨ s.sendersGone = true →
      t.pc.isFinished = true ∨ t.sendersGone = true := Or.imp (finished_step hs) (gone_step hs)
  have same (hsent : t.chan.sent = s.chan.sent) : TooLate t j := by
    rw [TooLate, hsent]
    exact hi.imp_right (And.imp_left hend)
  cases moves_step hlink hs with
  | aside _ _ hchan | forward _ _ hchan => exact same (by rw [hchan])
  | received _ _ _ hpop => exact same (Fifo.pop?_some hpop).sent
  | ended _ _ hchan => exact same (by rw [hchan, Fifo.close_sent])
  | sent _ _ hgone hpush =>
    rcases hi with ⟨hshut, hahead⟩ | ⟨hfin | hgone', -⟩
    · rw [TooLate, (Fifo.push?_some hpush).sent, Mailbox.jobsAhead_append hshut]
      exact Or.inl ⟨List.mem_append_left _ hshut, hahead⟩
    · have halive := hlink.alive
      rw [(Fifo.push?_some hpush).was_alive, hfin] at halive
      cases halive
    · rw [hgone] at hgone'
      cases hgone'

lemma TooLate.not_received {s : State J K V} {j : J} (hi : TooLate s j)
    (h : (isle cfg).Reachable s) : Request.job j ∉ s.chan.received := by
  intro hrec
  rcases hi with ⟨-, hahead⟩ | ⟨-, hsent⟩
  · exact hahead ((mailbox_inv h).ahead hrec)
  · exact hsent (Fifo.mem_sent_of_received hrec)

lemma seen_of_not_received {s : State J K V} {j : J} {r : Except IsleError V} (hlife : Life s j)
    (hrec : Request.job j ∉ s.chan.received) (hr : (s.jobs j).observed = some r) :
    r = .error .closed ∨ r = .error .queueFull := by
  rcases hlife.seen r hr with ⟨e, -, rfl, rfl | rfl⟩ | ⟨-, hwait⟩
  · exact Or.inl rfl
  · exact Or.inr rfl
  · rcases Response.wait_eq_some hwait with hp | ⟨-, rfl⟩
    · exact absurd hp ((hlife.waiting hrec).2 r)
    · exact Or.inl rfl

/-- An isle that is reported dead stays so, and serves nothing that was not accepted by then. -/
theorem dead_serves_nothing {s t : State J K V} (h : (isle cfg).Reachable s) {a : Asker}
    (hdead : a.isAlive s = false) (hrun : (isle cfg).Run s t) :
    a.isAlive t = false ∧ ∀ j, (s.jobs j).submission ≠ .accepted → (t.history j).invoked = 0 ∧
      ∀ r, (t.jobs j).observed = some r → r = .error .closed ∨ r = .error .queueFull := by
  have ht := h.run hrun
  have hgone := (a.isAlive_eq_false (link_reachable h)).mp hdead
  refine ⟨(a.isAlive_eq_false (link_reachable ht)).mpr ?_, fun j hsub => ?_⟩
  · refine TransitionSystem.RunVia.invariant_of (J := Link)
      (I := fun s => (a = .isle ∧ s.join = false) ∨ s.pc.isFinished = true)
      (fun _ => link_reachable) ?_ h hrun hgone
    exact fun s l t _ hi _ hs => hi.imp (And.imp_right (join_step hs)) (finished_step hs)
  · have hend : Ending s := hgone.elim (fun hjoin => ending_of_taken h hjoin.2) Or.inr
    have hlate : TooLate t j := by
      refine TransitionSystem.RunVia.invariant_of (J := Link) (I := fun s => TooLate s j)
        (fun _ => link_reachable) (fun s l t hlink hi _ hs => tooLate_step hlink hi hs) h hrun ?_
      exact tooLate_of_ending (link_reachable h) hend hsub
    have hrec := hlate.not_received ht
    have hlife := life_reachable ht j
    exact ⟨(hlife.waiting hrec).1.invoked, fun r hr => seen_of_not_received hlife hrec hr⟩

lemma twoJobs_taken : ∃ s t : State Bool Unit ℕ, (isle twoJobs).Reachable s ∧
    Isle.isAlive s = false ∧ s.pc = .loadAbort true ∧ (s.jobs false).submission = .unborn ∧
      (isle twoJobs).Run s t ∧ (t.jobs false).submission = .accepted ∧
      (t.history true).invoked = 1 ∧ (t.jobs false).observed = some (.error .closed) := by
  have h0 := TransitionSystem.Reachable.refl (T := isle (K := Unit) twoJobs)
  have h1 := h0.tail (.submit (j := true) rfl (by decide) rfl)
  have h2 := h1.tail (.enqueue (j := true) rfl rfl)
  have h3 := h2.tail (.recvJob (j := true) rfl rfl)
  have h4 := h3.tail (.shutCall (k := ()) rfl rfl (by decide) rfl)
  have h5 := h4.tail (.shutSend (k := ()) rfl rfl)
  have h6 := h5.tail (.shutTake (k := ()) rfl rfl)
  have r7 := h6.here.tail (.submit (j := false) rfl (by decide) rfl) trivial
  have r8 := r7.tail (.enqueue (j := false) rfl rfl) trivial
  have r9 := r8.tail (.loadAbort (j := true) rfl) trivial
  have r10 := r9.tail (.queuedCheck (j := true) rfl) trivial
  have r11 := r10.tail (.attachStore (j := true) rfl) trivial
  have r12 := r11.tail (.attachCheckNone (j := true) rfl rfl) trivial
  have r13 := r12.tail (.closureRet (j := true) rfl) trivial
  have r14 := r13.tail (.detach (j := true) rfl) trivial
  have r15 := r14.tail (.respond (j := true) rfl) trivial
  have r16 := r15.tail (.recvShutdown rfl rfl) trivial
  have r17 := r16.tail (.threadFinish (.inl ⟨rfl, rfl⟩)) trivial
  have r18 := r17.tail (.observe (j := false) rfl rfl rfl rfl) trivial
  exact ⟨_, _, h6, rfl, rfl, rfl, r18, rfl, rfl, rfl⟩

theorem dead_serves_nothing_taken : ∃ s t : State Bool Unit ℕ,
    s.pc = .loadAbort true ∧ (t.jobs false).submission = .accepted ∧
      (t.history true).invoked = 1 ∧ (t.history false).invoked = 0 ∧ Isle.isAlive t = false := by
  obtain ⟨s, t, hs, hdead, hpc, hunborn, hrun, hacc, hinvoked, -⟩ := twoJobs_taken
  obtain ⟨hstill, hnone⟩ := dead_serves_nothing hs (a := .isle) hdead hrun
  exact ⟨s, t, hpc, hacc, hinvoked, (hnone false (by rw [hunborn]; simp)).1, hstill⟩

end RusqliteIsle
