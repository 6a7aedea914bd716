import RusqliteIsle.Pool.Returns

/-!
# Calls through a guard return

The holder of a guard waits for the isle, and the closures of the isle may wait for the pool, whose
lock may be held by a thread that shuts isles down and waits for them. None of these waits is for
ever when the closures use the pool by calls that do not wait for an isle, and those of an isle that
is being shut down not at all.
-/

namespace RusqliteIsle

set_option linter.unusedSectionVars false

variable {T I J K V : Type} [DecidableEq T] [DecidableEq I] [DecidableEq J] [DecidableEq K]
  {fc : FleetConfig T I J V}

/-- The actions by which the caller of a job submits it through a guard and takes its result. -/
def FleetLabel.ofCaller (i : I) (j : J) : FleetLabel T I J K V → Prop
  | isle k l => k = i ∧ l.ofCaller j
  | _ => False

lemma created_step {cfg : PoolConfig} {s s' : PoolState T I} {l : PoolLabel T I} {i : I}
    (hs : PoolStep cfg s l s') (hi : s.created i = true) : s'.created i = true := by
  cases hs with
  | @factoryOk t k =>
    by_cases hik : i = k
    · subst hik
      exact Function.update_self _ _ _
    · exact (Function.update_of_ne hik _ _).trans hi
  | _ => exact hi

lemma created_keeps {s s' : Fleet T I J K V} {l : FleetLabel T I J K V} {i : I}
    (hs : FleetStep fc s l s') (hi : s.pool.created i = true) : s'.pool.created i = true := by
  cases hs with
  | pool _ hs => exact created_step hs hi
  | closed _ _ _ _ _ hp => exact created_step hp hi
  | close | isle => exact hi

variable [Fintype T]

lemma created_of_submitted {s : Fleet T I J K V} (h : (fleet fc).Reachable s) {i : I} {j : J}
    (hsub : ((s.isle i).jobs j).submission ≠ .unborn) : s.pool.created i = true := by
  refine TransitionSystem.ReachableVia.invariant_of (J := (fleet fc).Reachable)
    (I := fun s => ((s.isle i).jobs j).submission ≠ .unborn → s.pool.created i = true)
    (fun _ h => h) (fun h => absurd rfl h) ?_ h hsub
  intro s l s' hr hi _ hs hsub
  have moved {k : I} {u : State J (Option K) V} (hcreated : s.pool.created k = true)
      (hsub : ((Function.update s.isle k u i).jobs j).submission ≠ .unborn) :
      s.pool.created i = true := by
    by_cases hik : i = k
    · rwa [hik]
    · rw [Function.update_of_ne hik] at hsub
      exact hi hsub
  have hkeep := created_keeps hs (i := i)
  cases hs with
  | pool => exact hkeep (hi hsub)
  | close hpc | closed hpc =>
    exact hkeep (moved (record_of_shuttingDown (pool_reachable hr) hpc).1 hsub)
  | isle hl => exact hkeep (moved hl.created hsub)

variable {e : (fleet (K := K) fc).Execution}

/-- The thread of an isle whose closures come out of the pool's code again and again acts whenever
it can, as the isle sees it. -/
lemma worker_weaklyFair {i : I} (hworker : e.StronglyFair (FleetLabel.ofWorker i))
    (hrest : ∀ n, ∃ m, n ≤ m ∧ (e.state m).pool.pc (fc.worker i) = .rest)
    (hcreated : ∀ n, (e.state n).pool.created i = true) :
    (e.project (isleIn fc i)).WeaklyFair (fun l => l.onThread = true) := by
  refine hworker.project_weaklyFair (fun n hn => ?_) (fun n l _ hl => ?_)
  · obtain ⟨m, hm, hpc⟩ := hrest n
    obtain ⟨l, u, hl, hs⟩ := hn m hm
    exact ⟨m, hm, .isle i l, _, ⟨rfl, hl⟩, .isle (Fleet.allows_thread hl (hcreated m) hpc) hs⟩
  · cases l with
    | isle k l => exact ⟨l, by simp [isleIn, FleetLabel.at?, hl.1], hl.2⟩
    | pool | close => exact hl.elim

lemma caller_stronglyFair {i : I} {j : J} (hcaller : e.StronglyFair (FleetLabel.ofCaller i j))
    (hcreated : ∀ n, (e.state n).pool.created i = true) :
    (e.project (isleIn fc i)).StronglyFair (fun l => l.ofCaller j) := by
  refine hcaller.project (fun n => ?_) (fun n l _ hl => ?_)
  · rintro ⟨l, u, hl, hs⟩
    refine ⟨.isle i l, _, ⟨rfl, hl⟩, .isle ⟨hcreated n, ?_, ?_, ?_, ?_⟩ hs⟩ <;>
    · intro h
      cases l <;> first | exact hl.elim | exact h.elim | cases h
  · cases l with
    | isle k l => exact ⟨l, by simp [isleIn, FleetLabel.at?, hl.1], hl.2⟩
    | pool | close => exact hl.elim

/-- Every call through a guard returns, whatever the others do, also when the pool is shut down
meanwhile and when the closures on the isle use the pool, if they do so by calls that do not wait
for an isle: with the fairness under which the pool's own methods return, and a caller and a thread
of the isle that act when they can again and again. -/
theorem guard_call_returns (hworkers : ∀ i, e.StronglyFair (FleetLabel.ofWorker i))
    (hquiet : ∀ n, Fleet.Quiet fc (e.state n))
    (hthreads : ∀ t, e.StronglyFair (FleetLabel.ofThread t)) {i : I}
    (hclosures : ∀ n, ((e.state n).pool.pc (fc.worker i)).prompt = true)
    (hfactory : e.LeadsTo (fun s => s.pool.pc (fc.worker i) = .factory)
      (fun s => s.pool.pc (fc.worker i) ≠ .factory)) {j : J}
    (hcaller : e.StronglyFair (FleetLabel.ofCaller i j)) :
    e.LeadsTo (fun s => ((s.isle i).jobs j).submission = .sending)
      (fun s => CallerDone ((s.isle i).jobs j)) := by
  intro n hsending
  have hcreated (m : ℕ) : (e.state (n + m)).pool.created i = true :=
    e.stays (I := fun s => s.pool.created i = true) (fun _ _ _ _ hc hs => created_keeps hs hc)
      (Nat.le_add_right n m) (created_of_submitted (j := j) (e.reachable n) (by simp [hsending]))
  have hrest (m : ℕ) : ∃ k, m ≤ k ∧ ((e.after n).state k).pool.pc (fc.worker i) = .rest := by
    obtain ⟨k, hk, hrest⟩ := prompt_returns (fun i => (hworkers i).weaklyFair) hquiet hthreads
      hfactory (n + m) (hclosures (n + m))
    obtain ⟨d, rfl⟩ := Nat.exists_eq_add_of_le hk
    rw [Nat.add_assoc] at hrest
    exact ⟨m + d, Nat.le_add_right m d, hrest⟩
  have hisle := worker_weaklyFair (e := e.after n) ((hworkers i).after n) hrest hcreated
  have hown := caller_stronglyFair (e := e.after n) (hcaller.after n) hcreated
  obtain ⟨m, -, hdone⟩ := caller_done hisle hown 0 hsending
  exact ⟨n + m, Nat.le_add_right n m, hdone⟩

lemma not_caller_enabled {s : Fleet T I J K V} {i : I} {j : J}
    (hsub : ((s.isle i).jobs j).submission = .accepted)
    (hobs : ((s.isle i).jobs j).observed ≠ none) :
    ¬ (fleet fc).Enabled (FleetLabel.ofCaller i j) s := by
  rintro ⟨l, u, hl, hs⟩
  cases hs with
  | isle _ hs =>
    obtain ⟨rfl, hl⟩ := hl
    exact not_ofCaller_step hs hsub hobs hl
  | pool | close | closed => exact hl.elim

lemma soloFleet_served : ∃ s t : Fleet (Option Bool) Unit Bool Unit ℕ,
    (fleet soloFleet).Reachable s ∧ ((s.isle ()).jobs true).submission = .sending ∧
      (fleet soloFleet).RunVia (fun s _ => s.pool.pc none = .rest) s t ∧
      (∀ v, t.pool.pc v = .rest) ∧ ((t.isle ()).jobs true).submission = .accepted ∧
      ((t.isle ()).jobs true).observed = some (.ok 7) ∧
      (t.isle ()).pc = .next ∧ (t.isle ()).chan.buffer = [] ∧ (t.isle ()).sendersGone = false := by
  have h0 := TransitionSystem.Reachable.refl (T := fleet (K := Unit) soloFleet)
  have h1 := h0.tail (.pool (l := .call (some true)) (soloFleet_mayUse (by decide))
    (.callCheckout (t := some true) .checkout rfl))
  have h2 := h1.tail (.pool (l := .lock (some true)) trivial
    (.acquireGrow (t := some true) rfl rfl rfl rfl rfl))
  have h3 := h2.tail (.pool (l := .factoryOk (some true) ()) trivial
    (.factoryOk (t := some true) (i := ()) rfl rfl))
  have h4 := h3.tail (.isle (i := ()) (l := .submit true)
    ⟨rfl, fun _ => rfl, fun _ => by decide, False.elim, False.elim⟩
    (.submit (j := true) rfl (by decide) rfl))
  have r5 := (h4.here_via (fun s _ => s.pool.pc none = .rest)).tail (.isle (i := ())
    (l := .enqueue true) ⟨rfl, fun _ => rfl, False.elim, False.elim, False.elim⟩
    (.enqueue (j := true) rfl rfl)) rfl
  have r6 := r5.tail
    (.isle (i := ()) (Fleet.allows_thread rfl rfl rfl) (.recvJob (j := true) rfl rfl)) rfl
  have r7 := r6.tail
    (.isle (i := ()) (Fleet.allows_thread rfl rfl rfl) (.loadAbort (j := true) rfl)) rfl
  have r8 := r7.tail
    (.isle (i := ()) (Fleet.allows_thread rfl rfl rfl) (.queuedCheck (j := true) rfl)) rfl
  have r9 := r8.tail
    (.isle (i := ()) (Fleet.allows_thread rfl rfl rfl) (.attachStore (j := true) rfl)) rfl
  have r10 := r9.tail
    (.isle (i := ()) (Fleet.allows_thread rfl rfl rfl) (.attachCheckNone (j := true) rfl rfl)) rfl
  have r11 := r10.tail
    (.isle (i := ()) (Fleet.allows_thread rfl rfl rfl) (.closureRet (j := true) rfl)) rfl
  have r12 := r11.tail
    (.isle (i := ()) (Fleet.allows_thread rfl rfl rfl) (.detach (j := true) rfl)) rfl
  have r13 := r12.tail
    (.isle (i := ()) (Fleet.allows_thread rfl rfl rfl) (.respond (j := true) rfl)) rfl
  have r14 := r13.tail (.isle (i := ()) (l := .observe true)
    ⟨rfl, fun _ => rfl, False.elim, False.elim, False.elim⟩
    (.observe (j := true) rfl rfl rfl rfl)) rfl
  refine ⟨_, _, h4, rfl, r14, ?_, rfl, rfl, rfl, rfl, rfl⟩
  intro v
  rcases v with _ | _ | _ <;> rfl

theorem guard_call_returns_served : ∃ e : (fleet (K := Unit) soloFleet).Execution,
    (((e.state 0).isle ()).jobs true).submission = .sending ∧
      ∃ n, CallerDone (((e.state n).isle ()).jobs true) := by
  obtain ⟨s, t, hs, hsub, hrun, hrest, hacc, hobs, hidle⟩ := soloFleet_served
  obtain ⟨e, h0, hstops, hwithin⟩ :=
    TransitionSystem.Execution.exists_stops_within hs hrun (hrest none)
  have hsending : (((e.state 0).isle ()).jobs true).submission = .sending := by rw [h0, hsub]
  obtain ⟨n, -, hn⟩ := guard_call_returns
    (fun i => hstops.stronglyFair (not_worker_enabled (i := i) (Or.inr hidle)))
    (fun n _ _ _ => hwithin n) (fun u => hstops.stronglyFair (not_thread_of_rest (hrest u)))
    (i := ()) (fun n => congrArg PoolPc.prompt (hwithin n)) (hstops.leadsTo (by simp [hrest]))
    (hstops.stronglyFair (not_caller_enabled hacc (by simp [hobs]))) 0 hsending
  exact ⟨e, hsending, n, hn⟩

end RusqliteIsle
