import RusqliteIsle.Pool.Composition
import Mathlib.Algebra.Order.BigOperators.Group.Multiset

/-!
# How many connections there are

The counters of the pool bound the isles that it has. An isle that is being shut down is counted
by neither of them, but the pool is closed by then and does not grow. The pool lets go of an isle
only when its thread has ended, so the threads that run are bounded as well.
-/

namespace RusqliteIsle

set_option linter.unusedSectionVars false

namespace PoolPc

variable {I : Type}

/-- How many isles a thread is about to shut down or is shutting down. -/
def doomed (p : PoolPc I) : ℕ := p.disposing.length

/-- The isles that a thread has: one whose guard it drops, and those it shuts down. -/
def has (p : PoolPc I) : List I := p.dropped ++ p.disposing

lemma length_has (p : PoolPc I) : p.has.length = p.dropping + p.doomed := by
  rw [has, List.length_append, doomed]
  cases p <;> rfl

end PoolPc

section

variable {T I : Type} [DecidableEq T] [DecidableEq I] [Fintype T] {cfg : PoolConfig}

/-- The isles in the slots, the idle ones and those that are being shut down. -/
def WithinSize (cfg : PoolConfig) (s : PoolState T I) : Prop :=
  s.inner.active + s.inner.idle.length + tally PoolPc.doomed s.pc ≤ cfg.maxSize

lemma doomed_of_open {s : PoolState T I} (hheld : ∀ t, Held cfg s t)
    (hopen : s.inner.closed = false) : tally PoolPc.doomed s.pc = 0 := by
  refine tally_eq_zero.mpr (fun t => ?_)
  cases hpc : s.pc t with
  | returnShutdown | draining | drainShutdown =>
    have hclosed : s.inner.closed = true := ((hheld t).at_pc hpc rfl).2
    rw [hopen] at hclosed
    cases hclosed
  | _ => rfl

namespace WithinSize

variable {s s' : PoolState T I} {t : T}

/-- A thread moves from `p` to `q`, and the pool has as many isles as before. -/
lemma hand (hi : WithinSize cfg s) {p q : PoolPc I} (hpc : s.pc t = p)
    (hpc' : tally PoolPc.doomed s'.pc = tally PoolPc.doomed (Function.update s.pc t q))
    (hle : s'.inner.active + s'.inner.idle.length + q.doomed ≤
      s.inner.active + s.inner.idle.length + p.doomed) : WithinSize cfg s' := by
  have hmove : tally PoolPc.doomed (Function.update s.pc t q) + p.doomed =
      tally PoolPc.doomed s.pc + q.doomed := hpc ▸ tally_update q
  rw [WithinSize] at hi ⊢
  omega

lemma lock (hi : WithinSize cfg s) (hheld : ∀ t, Held cfg s t)
    (hs : PoolStep cfg s (.lock t) s') : WithinSize cfg s' := by
  cases hs with
  | lockPoisoned | lockOverflow | lockClosed =>
    exact hi.hand (q := .rest) rfl rfl (Nat.add_le_add_left (Nat.zero_le _) _)
  | acquireIsle _ _ _ _ hacquire =>
    obtain ⟨hidle, hactive, -⟩ := tryAcquire_isle hacquire
    have hlength := congrArg List.length hidle
    rw [List.length_append, List.length_cons] at hlength
    refine hi.hand (q := .rest) rfl rfl ?_
    simp only [hactive, PoolPc.doomed, PoolPc.disposing, List.length_nil]
    omega
  | acquireGrow _ _ _ hopen hacquire =>
    -- the slots grow, but nobody shuts an isle of an open pool down
    obtain ⟨-, hidle, hroom, hactive, -⟩ := tryAcquire_grow hacquire
    have hzero := doomed_of_open hheld hopen
    have hmove : tally PoolPc.doomed (Function.update s.pc t .factory) + (s.pc t).doomed =
        tally PoolPc.doomed s.pc + 0 := tally_update PoolPc.factory
    simp only [WithinSize, hactive, hidle, List.length_nil]
    omega
  | @acquireNeedWait _ w _ _ _ _ _ hacquire =>
    obtain ⟨-, hidle, -, hactive, -⟩ := tryAcquire_needWait hacquire
    refine hi.hand (q := .needWait w) rfl rfl ?_
    simp only [hactive, hidle, PoolPc.doomed, PoolPc.disposing, List.length_nil]
    omega

end WithinSize

lemma withinSize_step {s s' : PoolState T I} {l : PoolLabel T I} (hheld : ∀ t, Held cfg s t)
    (hacc : Accounted cfg s) (hi : WithinSize cfg s) (hs : PoolStep cfg s l s') :
    WithinSize cfg s' := by
  have hstep := hs
  -- a thread that gives its slot back was counted
  have counted {t : T} {i : I} (hpc : s.pc t = .returning i) : 1 ≤ s.inner.active := by
    have hle := hacc.slot_le t
    rw [hpc] at hle
    exact hle
  cases hs with
  | lockPoisoned | lockOverflow | lockClosed | acquireIsle | acquireGrow | acquireNeedWait =>
    exact hi.lock hheld hstep
  | decActive _ hpc hnotify | returnDead _ hpc _ _ hnotify =>
    refine hi.hand (q := .rest) hpc (hnotify.tally_eq (fun _ => rfl)) ?_
    exact Nat.add_le_add_right (Nat.add_le_add_right (Nat.sub_le _ _) _) _
  | returnIdle _ hpc _ _ hnotify =>
    have hone := counted hpc
    refine hi.hand (q := .rest) hpc (hnotify.tally_eq (fun _ => rfl)) ?_
    simp only [PoolPc.doomed, PoolPc.disposing, List.length_nil, List.length_cons]
    omega
  | returnClosed _ hpc =>
    have hone := counted hpc
    refine hi.hand hpc rfl ?_
    simp only [PoolPc.doomed, PoolPc.disposing, List.length_nil, List.length_singleton]
    omega
  | returnEnd hpc _ hnotify =>
    exact hi.hand (q := .rest) hpc (hnotify.tally_eq (fun _ => rfl))
      (Nat.add_le_add_left (Nat.zero_le _) _)
  | shutdown _ hpc =>
    refine hi.hand hpc rfl ?_
    simp only [PoolPc.doomed, PoolPc.disposing, List.length_nil, List.length_reverse]
    omega
  | drain hpc => exact hi.hand hpc rfl le_rfl
  | @drainEnd t i queue hpc =>
    exact hi.hand (q := .draining queue) hpc rfl (Nat.add_le_add_left (Nat.le_succ _) _)
  | shutdownEnd hpc => exact hi.hand (q := .rest) hpc (tally_notifyAll (fun _ => rfl)) le_rfl
  | callCheckout _ hpc | callRead _ hpc | callShutdown hpc | sleep hpc | refuse hpc | spurious hpc
  | elapsed hpc | factoryOk hpc | factoryErr hpc | factoryPanic hpc | dropGuard hpc =>
    exact hi.hand hpc rfl le_rfl
  | read _ hpc => exact hi.hand hpc rfl le_rfl
  | tick | isleExit | isleFinish | guardShutdown | jobStart | jobEnd => exact hi

lemma withinSize_reachable {s : PoolState T I} (h : (pool cfg).Reachable s) : WithinSize cfg s := by
  refine TransitionSystem.ReachableVia.invariant_of
    (J := fun s => (∀ t, Held cfg s t) ∧ Accounted cfg s) (I := WithinSize cfg)
    (fun s hs => ⟨held_reachable hs, accounted_reachable hs⟩) ?_
    (fun s l s' hJ hi _ hs => withinSize_step hJ.1 hJ.2 hi hs) h
  have hzero : tally PoolPc.doomed (PoolState.init T I).pc = 0 := tally_eq_zero.mpr (fun _ => rfl)
  rw [WithinSize, show (pool cfg).init = PoolState.init T I from rfl, hzero]
  exact Nat.zero_le _

/-- The isles that the pool has, each counted wherever it is. -/
def PoolState.holdings (s : PoolState T I) : Multiset I :=
  s.inner.idle + s.guards + ∑ t, ((s.pc t).has : Multiset I)

lemma card_holdings {s : PoolState T I} (h : (pool cfg).Reachable s) :
    s.holdings.card ≤ cfg.maxSize := by
  have hwithin := withinSize_reachable h
  have hactive := (accounted_reachable h).active
  have hhas : ∑ t, ((s.pc t).has : Multiset I).card =
      tally PoolPc.dropping s.pc + tally PoolPc.doomed s.pc := by
    rw [← tally_add]
    exact Finset.sum_congr rfl (fun t _ => (s.pc t).length_has)
  have hslots : tally PoolPc.slot s.pc = tally PoolPc.dropping s.pc + tally PoolPc.factoryCall s.pc :=
    tally_add
  rw [WithinSize] at hwithin
  rw [PoolState.holdings, Multiset.card_add, Multiset.card_add, Multiset.card_sum, hhas,
    Multiset.coe_card]
  omega

end

section

variable {T I J K V : Type} [DecidableEq T] [DecidableEq I] [DecidableEq J] [DecidableEq K]
  [Fintype T] {fc : FleetConfig T I J V}

lemma mem_holdings {s : Fleet T I J K V} {i : I} (h : ¬ s.Released i) : i ∈ s.pool.holdings := by
  rw [PoolState.holdings, Multiset.mem_add, Multiset.mem_add]
  by_contra hnone
  simp only [not_or, Multiset.mem_coe] at hnone
  obtain ⟨⟨hidle, hguards⟩, hhands⟩ := hnone
  refine h ⟨hidle, hguards, fun t => ?_⟩
  have hhas : i ∉ (s.pool.pc t).has := by
    intro hmem
    exact hhands (Multiset.mem_sum.mpr ⟨t, Finset.mem_univ t, hmem⟩)
  simpa [PoolPc.has] using hhas

/-- At no time do the threads of more than `max_size` isles run, also while the pool is being shut
down. -/
theorem threads_bounded {s : Fleet T I J K V} (h : (fleet fc).Reachable s) (running : Finset I)
    (hrunning : ∀ i ∈ running, s.pool.created i = true ∧ (s.isle i).pc.isFinished = false) :
    running.card ≤ fc.pool.maxSize := by
  have hsub : running.val ≤ s.pool.holdings := by
    refine (Multiset.le_iff_subset running.nodup).mpr (fun i hi => mem_holdings (fun hreleased => ?_))
    obtain ⟨hcreated, hfin⟩ := hrunning i hi
    rw [finished_of_released h hcreated hreleased] at hfin
    cases hfin
  have hcard : s.pool.holdings.card ≤ fc.pool.maxSize :=
    card_holdings (s := s.view fc) (pool_reachable h)
  exact (Multiset.card_le_card hsub).trans hcard

end

/-- A pool of two isles, and a thread beside those of the isles. -/
def pairFleet : FleetConfig (Option Bool) Bool Bool ℕ where
  pool := twoIsles
  isle := fun _ => twoJobs
  worker := some
  sync := fun _ => rfl
  apart := Option.some_injective Bool

lemma pairFleet_mayUse {s : Fleet (Option Bool) Bool Bool Unit ℕ} : s.MayUse pairFleet none :=
  fun _ h => by cases h

/-- One isle is checked out, and the other one is being shut down under the lock. -/
lemma pairFleet_draining : ∃ s : Fleet (Option Bool) Bool Bool Unit ℕ,
    (fleet pairFleet).Reachable s ∧ s.pool.pc none = .drainShutdown false [] ∧
      s.pool.inner.active = 1 ∧ (∀ i, s.pool.created i = true) ∧
      ∀ i, (s.isle i).pc.isFinished = false := by
  have h0 := TransitionSystem.Reachable.refl (T := fleet (K := Unit) pairFleet)
  have h1 := h0.tail (.pool (l := .call none) pairFleet_mayUse
    (.callCheckout (t := none) .checkout rfl))
  have h2 := h1.tail (.pool (l := .lock none) trivial
    (.acquireGrow (t := none) rfl rfl rfl rfl rfl))
  have h3 := h2.tail (.pool (l := .factoryOk none true) trivial
    (.factoryOk (t := none) (i := true) rfl rfl))
  have h4 := h3.tail (.pool (l := .call none) pairFleet_mayUse
    (.callCheckout (t := none) .checkout rfl))
  have h5 := h4.tail (.pool (l := .lock none) trivial
    (.acquireGrow (t := none) rfl rfl rfl rfl rfl))
  have h6 := h5.tail (.pool (l := .factoryOk none false) trivial
    (.factoryOk (t := none) (i := false) rfl rfl))
  have h7 := h6.tail (.pool (l := .dropGuard none false) ⟨pairFleet_mayUse, rfl⟩
    (.dropGuard (t := none) (i := false) rfl (by decide) (by decide)))
  have h8 := h7.tail (.pool (l := .returnIsle none) trivial
    (.returnIdle (t := none) rfl rfl rfl rfl
      (.none (fun t w h => by rcases t with _ | _ | _ <;> cases h))))
  have h9 := h8.tail (.pool (l := .call none) pairFleet_mayUse
    (.callShutdown (t := none) rfl))
  have h10 := h9.tail (.pool (l := .shutdown none) trivial (.shutdown (t := none) rfl rfl))
  have h11 := h10.tail (.pool (l := .drain none) trivial (.drain (t := none) rfl))
  refine ⟨_, h11, rfl, rfl, fun i => ?_, fun i => rfl⟩
  cases i <;> rfl

theorem threads_bounded_draining : ∃ s : Fleet (Option Bool) Bool Bool Unit ℕ,
    s.pool.pc none = .drainShutdown false [] ∧ s.pool.inner.active = 1 ∧
      (∀ i, (s.isle i).pc.isFinished = false) ∧ (Finset.univ : Finset Bool).card ≤ 2 := by
  obtain ⟨s, hs, hpc, hactive, hcreated, hrunning⟩ := pairFleet_draining
  exact ⟨s, hpc, hactive, hrunning,
    threads_bounded hs Finset.univ (fun i _ => ⟨hcreated i, hrunning i⟩)⟩

end RusqliteIsle
