import RusqliteIsle.Isle.Progress

/-!
# Backpressure

The capacity of the channel bounds what an isle owes its callers: the jobs that were accepted and
have no result yet are queued, or the one that the thread holds.
-/

namespace RusqliteIsle

set_option linter.unusedSectionVars false

variable {J K V : Type} [DecidableEq J] [DecidableEq K] {cfg : Config J V}

/-- The queue is within the capacity, or it is a single request that is being handed over. -/
structure Bounded (cfg : Config J V) (s : State J K V) : Prop where
  cap : s.chan.cap = cfg.cap
  queue : s.chan.buffer.length ≤ cfg.cap ∨ s.chan.buffer.length = 1 ∧ s.pc = .next

lemma stays_receiving {s t : State J K V} {l : Label J K V} (hs : Step cfg s l t)
    (hpc : s.pc = .next) (hbuf : s.chan.buffer ≠ []) (hchan : t.chan = s.chan) : t.pc = .next := by
  have elsewhere {pc : Pc J V} (h : s.pc = pc) (hne : pc ≠ .next) : t.pc = .next :=
    absurd (h.symm.trans hpc) hne
  cases hs with
  | recvJob _ hpop | recvShutdown _ hpop =>
    have hlength := congrArg List.length (Fifo.pop?_some hpop).buffer
    dsimp only at hchan
    rw [hchan] at hlength
    simp at hlength
  | recvDisconnected _ hempty => exact absurd hempty hbuf
  | threadFinish h =>
    rcases h with ⟨-, h⟩ | h <;> exact elsewhere h (by simp)
  | loadAbort h | discard h | queuedCheck h | attachStore h | attachCheckNone h
  | attachCheckFired h | attachInterrupt h | stmtStart h | stmtComplete h | stmtFail h
  | stmtAbort h | closureRet h | closurePanic h | detach h | normalizeToken h | normalizeAbort h
  | respond h | healthStart h | healthPass h | healthFail h | signalDone _ h =>
    exact elsewhere h (by simp)
  | _ => exact hpc

lemma bounded_step {s t : State J K V} {l : Label J K V} (hlink : Link s) (hi : Bounded cfg s)
    (hs : Step cfg s l t) : Bounded cfg t := by
  have same (hchan : t.chan = s.chan) (hpc : s.pc = .next → s.chan.buffer ≠ [] → t.pc = .next) :
      Bounded cfg t := by
    refine ⟨by rw [hchan, hi.cap], ?_⟩
    rw [hchan]
    refine hi.queue.imp_right (fun ⟨hone, hnext⟩ => ⟨hone, hpc hnext ?_⟩)
    exact List.ne_nil_of_length_pos (by omega)
  cases moves_step hlink hs with
  | aside _ hpc hchan => exact same hchan (fun hnext _ => hpc.trans hnext)
  | forward _ _ hchan => exact same hchan (fun hnext hbuf => stays_receiving hs hnext hbuf hchan)
  | sent _ hpc _ hpush =>
    refine ⟨by rw [Fifo.cap_of_push? hpush, hi.cap], ?_⟩
    rw [(Fifo.push?_some hpush).buffer, List.length_append, List.length_singleton, hpc, ← hi.cap]
    refine (Fifo.length_of_hasRoom (Fifo.hasRoom_of_push? hpush)).imp_right ?_
    rintro ⟨hnil, hwaiting⟩
    refine ⟨by rw [hnil]; rfl, ?_⟩
    cases hp : s.pc <;> rw [hp] at hwaiting <;> first | rfl | cases hwaiting
  | received _ _ _ hpop =>
    have hlength := congrArg List.length (Fifo.pop?_some hpop).buffer
    rw [List.length_cons] at hlength
    refine ⟨by rw [Fifo.cap_of_pop? hpop, hi.cap], Or.inl ?_⟩
    rcases hi.queue with hle | ⟨hone, -⟩ <;> omega
  | ended _ _ hchan =>
    refine ⟨?_, Or.inl ?_⟩
    · rw [hchan]
      exact hi.cap
    · rw [hchan, Fifo.close_buffer]
      exact Nat.zero_le _

lemma bounded_reachable {s : State J K V} (h : (isle cfg).Reachable s) : Bounded cfg s :=
  TransitionSystem.ReachableVia.invariant_of (J := Link) (I := Bounded cfg)
    (fun _ => link_reachable) ⟨rfl, Or.inl (Nat.zero_le _)⟩
    (fun _ _ _ hlink hi _ hs => bounded_step hlink hi hs) h

lemma outstanding_le {s : State J K V} (h : (isle cfg).Reachable s) (js : Finset J)
    (hjs : ∀ j ∈ js, (s.jobs j).submission = .accepted ∧ (s.jobs j).response.wait = none) :
    js.card ≤ cfg.cap + 1 := by
  have hsub : js ⊆ (jobsOf s.chan.buffer ++ s.pc.job?.toList).toFinset := by
    intro j hj
    obtain ⟨hacc, hwait⟩ := hjs j hj
    rcases held_or_queued h hacc hwait with hcur | ⟨hbuf, -⟩
    · simp [hcur]
    · simp [hbuf]
  have hcard := (Finset.card_le_card hsub).trans (List.toFinset_card_le _)
  rw [List.length_append] at hcard
  have hqueued : (jobsOf s.chan.buffer).length ≤ s.chan.buffer.length :=
    List.length_filterMap_le _ _
  rcases (bounded_reachable h).queue with hle | ⟨hone, hnext⟩
  · have hheld : s.pc.job?.toList.length ≤ 1 := by cases s.pc.job? <;> simp
    omega
  · have hfree : s.pc.job?.toList.length = 0 := by rw [hnext]; rfl
    omega

lemma not_waits_of_refused {s : State J K V} (h : (isle cfg).Reachable s) {j : J}
    (hsub : (s.jobs j).submission = .refused .queueFull) : cfg.waits j = false := by
  refine TransitionSystem.Reachable.invariant
    (I := fun s => (s.jobs j).submission = .refused .queueFull → cfg.waits j = false) ?_ ?_ h hsub
  · intro h
    cases h
  · intro s l t hi hs ht
    obtain rfl | hf | hl := step_about hs j
    · cases hs with
      | threadFinish => exact hi (by rwa [s.dropQueued_submission] at ht)
    · exact hi (by rwa [hf.job] at ht)
    cases hs with
    | refuseFull _ hwaits =>
      cases hl
      exact hwaits
    | submit | enqueue | refuseClosed | abandon =>
      cases hl
      simp [State.refuse] at ht
    | attachStore | detach | discard | respond | observe | dropSyncTask | detachTask
    | fireInterrupt | deadline | cancel | dropAsyncTask =>
      cases hl
      exact hi (by simpa [State.beginFire] using ht)
    | threadFinish => cases hl
    | _ => exact hi ht

/-- However many callers there are, an isle owes them at most as many results as its channel has
places, and one more. A caller that waits for capacity is not told `QueueFull`, and the job of one
that is told is not sent and its closure not entered. -/
theorem isle_backpressure {s : State J K V} (h : (isle cfg).Reachable s) :
    (∀ js : Finset J, (∀ j ∈ js, (s.jobs j).submission = .accepted ∧
      (s.jobs j).response.wait = none) → js.card ≤ cfg.cap + 1) ∧
    ∀ j, (s.jobs j).observed = some (.error .queueFull) →
      cfg.waits j = false ∧ Request.job j ∉ s.chan.sent ∧ (s.history j).invoked = 0 := by
  refine ⟨outstanding_le h, fun j hobs => ?_⟩
  have hlife := life_reachable h j
  have hlink := link_reachable h
  have hinvoked : (s.history j).invoked = 0 := hlife.explains hlink (hlife.seen _ hobs)
  rcases hlife.seen _ hobs with ⟨e, hsub, he, -⟩ | ⟨-, hwait⟩
  · cases he
    refine ⟨not_waits_of_refused h hsub, fun hsent => ?_, hinvoked⟩
    rw [(hlink.accepted j).mp hsent] at hsub
    cases hsub
  · rcases Response.wait_eq_some hwait with hp | ⟨-, hp⟩
    · obtain ⟨reason, -, hr⟩ := (hlife.answers hp).skipped hinvoked
      cases reason <;> cases hr
    · cases hp

lemma oneRoom_full : ∃ s : State Bool Unit ℕ, (isle { twoJobs with cap := 1 }).Reachable s ∧
    ∀ j, (s.jobs j).submission = .accepted ∧ (s.jobs j).response.wait = none := by
  have h0 := TransitionSystem.Reachable.refl (T := isle (K := Unit) { twoJobs with cap := 1 })
  have h1 := h0.tail (.submit (j := true) rfl (by decide) rfl)
  have h2 := h1.tail (.enqueue (j := true) rfl rfl)
  have h3 := h2.tail (.recvJob (j := true) rfl rfl)
  have h4 := h3.tail (.submit (j := false) rfl (by decide) rfl)
  have h5 := h4.tail (.enqueue (j := false) rfl rfl)
  refine ⟨_, h5, ?_⟩
  rintro (_ | _) <;> exact ⟨rfl, rfl⟩

theorem isle_backpressure_full : ∃ s : State Bool Unit ℕ,
    (∀ j, (s.jobs j).submission = .accepted ∧ (s.jobs j).response.wait = none) ∧
      (Finset.univ : Finset Bool).card ≤ 1 + 1 := by
  obtain ⟨s, hs, hpending⟩ := oneRoom_full
  exact ⟨s, hpending, (isle_backpressure hs).1 Finset.univ (fun j _ => hpending j)⟩

end RusqliteIsle
