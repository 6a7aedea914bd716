import RusqliteIsle.Pool.Wakeup
import Mathlib.Data.Set.Finite.Basic
import Mathlib.Data.Fintype.EquivFin

/-!
# Factory calls that fail

A factory call runs outside the lock, on a slot that was reserved for it. When it returns an error
the checkout passes through `dec_active`, which gives the slot back and notifies. When it unwinds
the checkout is left at once, and the slot stays reserved.
-/

namespace RusqliteIsle

set_option linter.unusedSectionVars false

variable {T I : Type} [DecidableEq T] [DecidableEq I] [Fintype T] {cfg : PoolConfig}

/-- The slots in use: guards, guards on their way back, and factory calls. -/
def PoolState.used (s : PoolState T I) : ℕ := s.guards.card + tally PoolPc.slot s.pc

/-- The checkout of `t` leaves the pool, its factory call having failed, as if it had not come: it
gives back the one slot it took, wakes one of the blocked threads, and does not poison the lock. If
the slots were in order, later checkouts can bring the pool to `maxSize`. -/
structure Restored (cfg : PoolConfig) (s s' : PoolState T I) (t : T) : Prop where
  active : s'.inner.active + 1 = s.inner.active
  idle : s'.inner.idle = s.inner.idle
  closed : s'.inner.closed = s.inner.closed
  notified : (∃ u w, s.pc u = .blocked w) → ∃ u w, s.pc u = .blocked w ∧ s'.pc u = .woken w ∧
    ∀ v, v ≠ u → v ≠ t → s'.pc v = s.pc v
  poisoned : s'.poisoned = s.poisoned
  refill : s.inner.closed = false → s.poisoned = false → s.inner.active = s.used →
    ∃ s'', (pool cfg).Run s' s'' ∧ s''.used = cfg.maxSize

lemma finite_created {s : PoolState T I} (h : (pool cfg).Reachable s) :
    {i | s.created i = true}.Finite := by
  refine TransitionSystem.Reachable.invariant (I := fun s => {i | s.created i = true}.Finite) ?_ ?_ h
  · simp [pool, PoolState.init]
  · intro s l s' hi hs
    cases hs with
    | @factoryOk t i =>
      refine (hi.insert i).subset (fun k hk => ?_)
      by_cases hki : k = i
      · exact Or.inl hki
      · exact Or.inr (by simpa [hki] using hk)
    | _ => exact hi

lemma exists_fresh [Infinite I] {s : PoolState T I} (h : (pool cfg).Reachable s) :
    ∃ i, s.created i = false := by
  obtain ⟨i, hi⟩ := (finite_created h).exists_notMem
  exact ⟨i, by simpa using hi⟩

/-- An open pool with the lock free, where `t` is not inside the pool and no slot is lost. -/
structure Ready (cfg : PoolConfig) (s : PoolState T I) (t : T) : Prop where
  reachable : (pool cfg).Reachable s
  opened : s.inner.closed = false
  unpoisoned : s.poisoned = false
  unlocked : s.lock = none
  rest : s.pc t = .rest
  intact : s.leaked = 0

lemma Ready.checkout [Infinite I] {s : PoolState T I} {t : T} (hi : Ready cfg s t)
    (hroom : s.inner.active < cfg.maxSize) :
    ∃ s', (pool cfg).Run s s' ∧ Ready cfg s' t ∧ s'.inner.active = s.inner.active + 1 := by
  have hcall : PoolStep cfg s (.call t) _ := .callCheckout .tryCheckout hi.rest
  have r1 : (pool cfg).Run s _ := (TransitionSystem.Run.refl s).tail hcall
  have hentering : (Function.update s.pc t (.locking .tryCheckout) t).entering cfg.horizon s.now =
      some (some .never) := by
    rw [Function.update_self]
    rfl
  cases hacquire : tryAcquire cfg.maxSize s.alive s.inner with
  | mk acquired inner =>
    cases acquired with
    | isle i =>
      obtain ⟨-, hact, hclosed, -⟩ := tryAcquire_isle hacquire
      have r2 := r1.tail (.acquireIsle hi.unlocked hi.unpoisoned hentering hi.opened hacquire)
      exact ⟨_, r2, ⟨hi.reachable.run r2, hclosed.trans hi.opened, hi.unpoisoned, hi.unlocked,
        Function.update_self _ _ _, hi.intact⟩, hact⟩
    | grow =>
      obtain ⟨-, -, -, hact, hclosed⟩ := tryAcquire_grow hacquire
      obtain ⟨i, hfresh⟩ := exists_fresh hi.reachable
      have r2 := r1.tail (.acquireGrow hi.unlocked hi.unpoisoned hentering hi.opened hacquire)
      have r3 := r2.tail (.factoryOk (t := t) (i := i) (Function.update_self _ _ _) hfresh)
      exact ⟨_, r3, ⟨hi.reachable.run r3, hclosed.trans hi.opened, hi.unpoisoned, hi.unlocked,
        Function.update_self _ _ _, hi.intact⟩, hact⟩
    | needWait =>
      obtain ⟨-, -, hfull, -, -⟩ := tryAcquire_needWait hacquire
      exact absurd hroom (Nat.not_lt.mpr hfull)

lemma Ready.used_eq {s : PoolState T I} {t : T} (hi : Ready cfg s t) : s.used = s.inner.active := by
  have hacc := accounted_reachable hi.reachable
  have hactive := hacc.active
  rw [hi.intact] at hactive
  exact hactive.symm

/-- From a ready pool, checkouts can bring the slots in use to `maxSize`. -/
theorem Ready.fill [Infinite I] {s : PoolState T I} {t : T} (hi : Ready cfg s t) :
    ∃ s', (pool cfg).Run s s' ∧ s'.used = cfg.maxSize := by
  obtain ⟨n, hn⟩ : ∃ n, s.inner.active + n = cfg.maxSize := by
    have hbound := (accounted_reachable hi.reachable).bounded
    exact ⟨cfg.maxSize - s.inner.active, by omega⟩
  induction n generalizing s with
  | zero => exact ⟨s, TransitionSystem.Run.refl s, hi.used_eq.trans hn⟩
  | succ n ih =>
    obtain ⟨s₁, hrun, hi₁, hact⟩ := hi.checkout (by omega)
    obtain ⟨s₂, hrun₂, hused⟩ := ih hi₁ (by omega)
    exact ⟨s₂, hrun.trans hrun₂, hused⟩

/-- The call of `t` leaves the pool after its factory call has failed, by an error or by a panic. -/
def LeavesFailed (l : PoolLabel T I) (t : T) : Prop := l = .decActive t ∨ l = .factoryPanic t

lemma notified_of_leave {s : PoolState T I} {t : T} {p : PoolPc I} {pc : T → PoolPc I}
    (hpc : s.pc t = p) (hp : ∀ w, p ≠ .blocked w)
    (hnotify : NotifyOne (Function.update s.pc t .rest) pc)
    (hblocked : ∃ u w, s.pc u = .blocked w) :
    ∃ u w, s.pc u = .blocked w ∧ pc u = .woken w ∧ ∀ v, v ≠ u → v ≠ t → pc v = s.pc v := by
  have other {u : T} {w : Patience} (hu : s.pc u = .blocked w) : u ≠ t := by
    rintro rfl
    exact hp w (hpc.symm.trans hu)
  cases hnotify with
  | @wake u w hu =>
    have hut : u ≠ t := by
      rintro rfl
      rw [Function.update_self] at hu
      cases hu
    rw [Function.update_of_ne hut] at hu
    refine ⟨u, w, hu, Function.update_self _ _ _, fun v hvu hvt => ?_⟩
    rw [Function.update_of_ne hvu, Function.update_of_ne hvt]
  | none hnone =>
    obtain ⟨u, w, hu⟩ := hblocked
    refine absurd ?_ (hnone u w)
    rw [Function.update_of_ne (other hu), hu]

lemma restored_of_failed [Infinite I] {s s' : PoolState T I} {t : T} (h : (pool cfg).Reachable s)
    (hs : PoolStep cfg s (.decActive t) s') : Restored cfg s s' t := by
  have hreach := h.tail hs
  have hacc := accounted_reachable h
  cases hs with
  | @decActive _ e pc hlock hpc hnotify =>
    have hpos : 0 < s.inner.active := by
      have hle := hacc.slot_le t
      rw [hpc] at hle
      exact hle
    refine ⟨Nat.sub_add_cancel hpos, rfl, rfl, ?_, rfl, fun hopen hpoison hused => ?_⟩
    · exact notified_of_leave hpc (by simp) hnotify
    · have hactive := hacc.active
      have hintact : s.leaked = 0 := by
        rw [PoolState.used] at hused
        omega
      exact Ready.fill (t := t) ⟨hreach, hopen, hpoison, hlock, hnotify.at_rest, hintact⟩

lemma not_restored_of_panic {s s' : PoolState T I} {t : T}
    (hs : PoolStep cfg s (.factoryPanic t) s') : ¬ Restored cfg s s' t := by
  intro h
  have hactive := h.active
  cases hs with
  | factoryPanic => exact Nat.succ_ne_self _ hactive

/-- A slot lost to a panic stays lost: the pool never again has `maxSize` slots in use. -/
theorem used_lt_of_panic {s s' s'' : PoolState T I} {t : T} (h : (pool cfg).Reachable s)
    (hs : PoolStep cfg s (.factoryPanic t) s') (hrun : (pool cfg).Run s' s'') :
    s''.used < cfg.maxSize := by
  have hleaked : 0 < s''.leaked := by
    refine TransitionSystem.Run.invariant (I := fun s => 0 < s.leaked) ?_ hrun ?_
    · intro u l v hu hst
      cases hst with
      | factoryPanic => exact Nat.succ_pos _
      | _ => exact hu
    · cases hs with
      | factoryPanic => exact Nat.succ_pos _
  have hacc := accounted_reachable ((h.tail hs).run hrun)
  have hactive := hacc.active
  have hbound := hacc.bounded
  rw [PoolState.used]
  omega

/-- A checkout whose factory call has failed leaves the pool as it was if and only if the call
returned an error; and as long as every factory call returns, the slots are in order. -/
theorem failed_factory_restores [Infinite I] {s s' : PoolState T I} {l : PoolLabel T I} {t : T}
    (h : (pool cfg).Reachable s) (hs : PoolStep cfg s l s') (hl : LeavesFailed l t) :
    (Restored cfg s s' t ↔ ∃ e, s.pc t = .failed e) ∧
      ((pool cfg).ReachableVia FactoryReturns s → s.inner.active = s.used) := by
  refine ⟨?_, fun hvia => ?_⟩
  · rcases hl with rfl | rfl
    · refine iff_of_true (restored_of_failed h hs) ?_
      cases hs with
      | decActive _ hpc => exact ⟨_, hpc⟩
    · refine iff_of_false (not_restored_of_panic hs) ?_
      rintro ⟨e, he⟩
      cases hs with
      | factoryPanic hpc =>
        rw [he] at hpc
        cases hpc
  · have hactive := (accounted_reachable h).active
    rwa [leaked_eq_zero hvia] at hactive

/-- The only slot is given back after an error of the factory. -/
theorem failed_factory_restores_one : ∃ s s' : PoolState Bool ℕ,
    Restored oneIsle s s' true ∧ s.inner.active = 1 ∧ s'.inner.active = 0 := by
  have h0 := TransitionSystem.Reachable.refl (T := pool (T := Bool) (I := ℕ) oneIsle)
  have h1 := h0.tail (.callCheckout (t := true) .checkout rfl)
  have h2 := h1.tail (.acquireGrow (t := true) rfl rfl rfl rfl rfl)
  have h3 := h2.tail (.factoryErr (t := true) (e := .timeout) rfl)
  have hfail := (failed_factory_restores h3 (.decActive (t := true) (e := .timeout) rfl rfl
    (.none (fun t w h => by cases t <;> cases h))) (.inl rfl)).1
  exact ⟨_, _, hfail.mpr ⟨_, rfl⟩, rfl, rfl⟩

/-- The only slot is lost to a panic of the factory. -/
theorem panicking_factory_leaks : ¬ ∀ (s s' : PoolState Bool ℕ) (l : PoolLabel Bool ℕ) (t : Bool),
    (pool oneIsle).Reachable s → PoolStep oneIsle s l s' → LeavesFailed l t →
      Restored oneIsle s s' t := by
  intro h
  have h0 := TransitionSystem.Reachable.refl (T := pool (T := Bool) (I := ℕ) oneIsle)
  have h1 := h0.tail (.callCheckout (t := true) .checkout rfl)
  have h2 := h1.tail (.acquireGrow (t := true) rfl rfl rfl rfl rfl)
  have hactive := (h _ _ _ true h2 (.factoryPanic (t := true) rfl) (.inr rfl)).active
  cases hactive

end RusqliteIsle
