import RusqliteIsle.Pool.Checkout
import RusqliteIsle.Pool.Returns

/-!
# A free slot is not left to a waiting thread in vain

A thread that waits for an isle is passed over only by threads that take the free slots before it.
While a slot is free nobody goes to sleep, and a woken thread on its way to the lock takes it, so
the threads that wait become fewer until the pool is full again. A checkout that never returns
finds the pool full again and again.
-/

namespace RusqliteIsle

set_option linter.unusedSectionVars false

namespace PoolPc

variable {I : Type}

/-- How many wake-ups and locks a waiting thread has still before it. -/
def toLock : PoolPc I → ℕ
  | blocked _ => 2
  | woken _ => 1
  | _ => 0

lemma Next.toLock_le {horizon now : ℕ} {p q : PoolPc I} (h : Next horizon now p q)
    (hp : ∀ w, p ≠ needWait w) : q.toLock ≤ p.toLock := by
  cases h with
  | sleep => exact absurd rfl (hp _)
  | wake => exact Nat.le_succ 1
  | _ => exact Nat.zero_le _

lemma Next.toLock_of_woken {horizon now : ℕ} {w : Patience} {q : PoolPc I}
    (h : Next horizon now (woken w) q) : q.toLock = 0 := by
  cases h with
  | leave | grow | wait => rfl

end PoolPc

section

variable {T I J K V : Type} [DecidableEq T] [DecidableEq I] [DecidableEq J] [DecidableEq K]
  [Fintype T] {fc : FleetConfig T I J V}

/-- Every slot is taken. -/
def Fleet.Full (fc : FleetConfig T I J V) (s : Fleet T I J K V) : Prop :=
  fc.pool.maxSize ≤ s.pool.inner.active

lemma full_of_needWait {s : Fleet T I J K V} (h : (fleet fc).Reachable s) {t : T} {w : Patience}
    (hpc : s.pool.pc t = .needWait w) : s.Full fc :=
  ((held_reachable (pool_reachable h) t).at_pc hpc rfl).2.2

lemma toLock_step {s s' : Fleet T I J K V} {l : FleetLabel T I J K V} (h : (fleet fc).Reachable s)
    (hroom : ¬ s.Full fc) (hs : FleetStep fc s l s') (t : T) :
    (s'.pool.pc t).toLock ≤ (s.pool.pc t).toLock := by
  rcases fleet_next (t := t) h hs with heq | hnext
  · rw [heq]
  · exact hnext.toLock_le (fun w hw => hroom (full_of_needWait h hw))

lemma not_blocked_step {s s' : Fleet T I J K V} {l : FleetLabel T I J K V}
    (h : (fleet fc).Reachable s) (hroom : ¬ s.Full fc) (hs : FleetStep fc s l s') {t : T}
    (ht : ∀ w, s.pool.pc t ≠ .blocked w) (w : Patience) : s'.pool.pc t ≠ .blocked w := by
  have hle := toLock_step h hroom hs t
  intro hw
  rw [hw] at hle
  cases hpc : s.pool.pc t with
  | blocked w' => exact ht w' hpc
  | _ =>
    rw [hpc] at hle
    exact absurd hle (by simp [PoolPc.toLock])

lemma woken_of_room {s : Fleet T I J K V} (h : (fleet fc).Reachable s)
    (hopen : s.pool.inner.closed = false) (hsound : s.pool.poisoned = false) (hroom : ¬ s.Full fc)
    {t : T} {w : Patience} (ht : s.pool.pc t = .blocked w) : ∃ u w', s.pool.pc u = .woken w' := by
  have hserved : Monitor.Served ((s.view fc).monitor fc.pool) :=
    Monitor.served_reachable (monitor_simulation.reachable
      (fun s h => ⟨accounted_reachable h, held_reachable h⟩) (pool_reachable h) ⟨hopen, hsound⟩)
  have hasleep := le_tally PoolPc.asleep s.pool.pc t
  rw [ht] at hasleep
  have hfree : fc.pool.maxSize - s.pool.inner.active ≤ tally PoolPc.awake s.pool.pc :=
    hserved hasleep
  have hawake : 0 < tally PoolPc.awake s.pool.pc := by
    rw [Fleet.Full] at hroom
    omega
  obtain ⟨u, hu⟩ := exists_of_tally_pos hawake
  cases hpc : s.pool.pc u with
  | woken w' => exact ⟨u, w', hpc⟩
  | _ =>
    rw [hpc] at hu
    cases hu

variable {e : (fleet (K := K) fc).Execution}

/-- Nobody sleeps for ever beside a free slot. -/
lemma blocked_roused (hworkers : ∀ i, e.WeaklyFair (FleetLabel.ofWorker i))
    (hquiet : ∀ n, Fleet.Quiet fc (e.state n))
    (hthreads : ∀ t, e.StronglyFair (FleetLabel.ofThread t)) (t : T) (w : Patience) :
    e.LeadsTo (fun s => s.pool.pc t = .blocked w)
      (fun s => s.pool.pc t = .woken w ∨ s.Full fc ∨ s.pool.inner.closed = true ∨
        s.pool.poisoned = true) := by
  refine .of_rank wellFounded_lt (fun s => tally PoolPc.toLock s.pool.pc) (fun a => ?_)
  rintro n ⟨ht, ha⟩
  by_cases hend : (e.state n).Full fc ∨ (e.state n).pool.inner.closed = true ∨
      (e.state n).pool.poisoned = true
  · exact ⟨n, le_rfl, Or.inl (Or.inr hend)⟩
  -- some thread is on its way to the lock
  obtain ⟨u, w', hu⟩ : ∃ u w', (e.state n).pool.pc u = .woken w' := by
    simp only [not_or, Bool.not_eq_true] at hend
    exact woken_of_room (e.reachable n) hend.2.1 hend.2.2 hend.1 ht
  refine (underWay_left hworkers hquiet hthreads u (p := .woken w') rfl).change
    (P := fun s => s.pool.pc t = .blocked w ∧ tally PoolPc.toLock s.pool.pc ≤ a ∧ ¬ s.Full fc)
    (Q := fun s => (s.pool.pc t = .woken w ∨ s.Full fc ∨ s.pool.inner.closed = true ∨
        s.pool.poisoned = true) ∨ s.pool.pc t = .blocked w ∧ tally PoolPc.toLock s.pool.pc < a)
    (fun s l s' h hP hpc hs => ?_) n ⟨⟨ht, ha.le, fun hfull => hend (Or.inl hfull)⟩, hu⟩
  obtain ⟨ht, hle, hroom⟩ := hP
  have hfewer := toLock_step h hroom hs
  rcases fleet_next (t := t) h hs with heq | hnext
  swap
  · rw [ht] at hnext
    exact Or.inr (Or.inl (Or.inl hnext.of_blocked))
  by_cases hfull : s'.Full fc
  · exact Or.inr (Or.inl (Or.inr (Or.inl hfull)))
  by_cases hu' : s'.pool.pc u = .woken w'
  · exact Or.inl ⟨hu', heq.trans ht, (tally_le_tally hfewer).trans hle, hfull⟩
  · have hnext := (fleet_next (t := u) h hs).resolve_left (fun heq => hu' (heq.trans hpc))
    rw [hpc] at hnext
    have hless : tally PoolPc.toLock s'.pool.pc < tally PoolPc.toLock s.pool.pc :=
      tally_lt_tally hfewer (i := u) (by rw [hnext.toLock_of_woken, hpc]; exact Nat.one_pos)
    exact Or.inr (Or.inr ⟨heq.trans ht, lt_of_lt_of_le hless hle⟩)

/-- Every checkout returns, or the pool comes to be full. A checkout that is left waiting is passed
over by others that get the free slots, again and again, or the slots are all taken for good. The
exception is a poisoned lock: who is asleep then is not told of a free slot. -/
theorem checkout_passed_over (hworkers : ∀ i, e.WeaklyFair (FleetLabel.ofWorker i))
    (hquiet : ∀ n, Fleet.Quiet fc (e.state n))
    (hthreads : ∀ t, e.StronglyFair (FleetLabel.ofThread t)) {t : T}
    (hfactory : e.LeadsTo (fun s => s.pool.pc t = .factory) (fun s => s.pool.pc t ≠ .factory)) :
    e.LeadsTo (fun s => (s.pool.pc t).inCheckout = true)
      (fun s => s.pool.pc t = .rest ∨ s.Full fc ∨ s.pool.poisoned = true) := by
  intro n _
  by_contra hnone
  have hroom (m : ℕ) (hm : n ≤ m) : ¬ (e.state m).Full fc :=
    fun h => hnone ⟨m, hm, Or.inr (Or.inl h)⟩
  have hinside (m : ℕ) (hm : n ≤ m) : (e.state m).pool.pc t ≠ .rest :=
    fun h => hnone ⟨m, hm, Or.inl h⟩
  have hopen (m : ℕ) (hm : n ≤ m) : (e.state m).pool.inner.closed ≠ true := by
    intro hclosed
    obtain ⟨k, hk, hrest⟩ := closed_returns hworkers hquiet hthreads hfactory m hclosed
    exact hinside k (hm.trans hk) hrest
  -- the thread is awake at last, and from then on
  obtain ⟨m, hm, hawake⟩ : ∃ m, n ≤ m ∧ ∀ w, (e.state m).pool.pc t ≠ .blocked w := by
    by_cases hblocked : ∃ w, (e.state n).pool.pc t = .blocked w
    · obtain ⟨w, hw⟩ := hblocked
      obtain ⟨m, hm, hwoken | hfull | hclosed | hpoison⟩ :=
        blocked_roused hworkers hquiet hthreads t w n hw
      · exact ⟨m, hm, by simp [hwoken]⟩
      · exact absurd hfull (hroom m hm)
      · exact absurd hclosed (hopen m hm)
      · exact absurd ⟨m, hm, Or.inr (Or.inr hpoison)⟩ hnone
    · exact ⟨n, le_rfl, fun w hw => hblocked ⟨w, hw⟩⟩
  have hstays (k : ℕ) (hk : m ≤ k) : ∀ w, (e.state k).pool.pc t ≠ .blocked w := by
    induction k, hk using Nat.le_induction with
    | base => exact hawake
    | succ k hk ih =>
      obtain ⟨-, heq⟩ | ⟨l, -, hs⟩ := e.next k
      · rwa [heq]
      · exact not_blocked_step (e.reachable k) (hroom k (hm.trans hk)) hs ih
  obtain ⟨k, hk, -, hout⟩ := arrives hworkers hquiet hthreads t (P := fun _ => True)
    (fun _ _ _ _ _ _ _ => trivial) m trivial
  rcases PoolPc.rest_or_factory (hstays k hk) hout with hrest | hpc
  · exact hinside k (hm.trans hk) hrest
  · obtain ⟨i, hi, hrest⟩ := factory_returns hworkers hquiet hthreads hfactory k hpc
    exact hinside i (hm.trans (hk.trans hi)) hrest

end

/-- A pool of two isles, of which one is made. -/
def roomyFleet : FleetConfig (Option Bool) Unit Bool ℕ := { soloFleet with pool := twoIsles }

/-- What holds during the only checkout from a pool of two isles. -/
def Roomy (s : Fleet (Option Bool) Unit Bool Unit ℕ) : Prop :=
  s.Quiet roomyFleet ∧ s.pool.inner.active < 2 ∧ s.pool.poisoned = false

lemma roomyFleet_served : ∃ s t : Fleet (Option Bool) Unit Bool Unit ℕ,
    (fleet roomyFleet).Reachable s ∧ s.pool.pc (some true) = .locking .checkout ∧
      (fleet roomyFleet).RunVia (fun s _ => Roomy s) s t ∧ Roomy t ∧ (∀ v, t.pool.pc v = .rest) ∧
      (t.isle ()).pc = .next ∧ (t.isle ()).chan.buffer = [] ∧ (t.isle ()).sendersGone = false := by
  have q {s : Fleet (Option Bool) Unit Bool Unit ℕ} (h : s.pool.pc none = .rest)
      (hactive : s.pool.inner.active < 2) (hsound : s.pool.poisoned = false) : Roomy s :=
    ⟨fun _ _ _ => h, hactive, hsound⟩
  have h0 := TransitionSystem.Reachable.refl (T := fleet (K := Unit) roomyFleet)
  have h1 := h0.tail (.pool (l := .call (some true)) (fun _ h => by cases h)
    (.callCheckout (t := some true) .checkout rfl))
  have r2 := (h1.here_via (fun s _ => Roomy s)).tail (.pool (l := .lock (some true)) trivial
    (.acquireGrow (t := some true) rfl rfl rfl rfl rfl)) (q rfl (by decide) rfl)
  have r3 := r2.tail (.pool (l := .factoryOk (some true) ()) trivial
    (.factoryOk (t := some true) (i := ()) rfl rfl)) (q rfl (by decide) rfl)
  refine ⟨_, _, h1, rfl, r3, q rfl (by decide) rfl, ?_, rfl, rfl, rfl⟩
  intro v
  rcases v with _ | _ | _ <;> rfl

theorem checkout_passed_over_free : ∃ e : (fleet (K := Unit) roomyFleet).Execution,
    (e.state 0).pool.pc (some true) = .locking .checkout ∧
      ∃ n, (e.state n).pool.pc (some true) = .rest := by
  obtain ⟨s, t, hs, hcall, hrun, hroomy, hrest, hidle⟩ := roomyFleet_served
  obtain ⟨e, h0, hstops, hwithin⟩ :=
    TransitionSystem.Execution.exists_stops_within hs hrun hroomy
  have hcall0 : (e.state 0).pool.pc (some true) = .locking .checkout := by rw [h0, hcall]
  obtain ⟨n, -, hrest | hfull | hpoison⟩ := checkout_passed_over
    (fun _ => (hstops.stronglyFair (not_worker_enabled (Or.inr hidle))).weaklyFair)
    (fun n => (hwithin n).1) (fun u => hstops.stronglyFair (not_thread_of_rest (hrest u)))
    (hstops.leadsTo (by simp [hrest])) 0 (congrArg PoolPc.inCheckout hcall0)
  · exact ⟨e, hcall0, n, hrest⟩
  · exact absurd (hwithin n).2.1 (Nat.not_lt.mpr hfull)
  · rw [(hwithin n).2.2] at hpoison
    cases hpoison

end RusqliteIsle
