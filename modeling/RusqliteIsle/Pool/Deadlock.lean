import RusqliteIsle.Pool.Custody
import RusqliteIsle.Pool.Slots

/-!
# The lock and the jobs

`IslePool::shutdown` and `return_isle` call `Isle::shutdown` under the lock, and `Isle::shutdown`
waits for the jobs of the isle. A job that uses the pool waits for the lock. The two waits form a
cycle when the job comes to the lock while its isle is being shut down.
-/

namespace RusqliteIsle

set_option linter.unusedSectionVars false

variable {T I : Type} [DecidableEq T] [DecidableEq I] {cfg : PoolConfig}

namespace PoolPc

/-- Whether the thread needs the lock before it can go on. -/
def waitsForLock : PoolPc I → Bool
  | locking _ | woken _ | failed _ | returning _ | reading _ | shutting => true
  | _ => false

/-- The isle that the thread is shutting down under the lock. -/
def shuttingDown? : PoolPc I → Option I
  | returnShutdown i | drainShutdown i _ => some i
  | _ => none

/-- Whether the thread uses the pool only through `try_checkout`, `active`, `idle` and the drop of
guards. -/
def modest : PoolPc I → Bool
  | locking call => call = .tryCheckout
  | needWait w | blocked w | woken w => w = .never
  | shutting | draining _ | drainShutdown _ _ => false
  | _ => true

end PoolPc

/-- A thread holds the lock and waits, inside `Isle::shutdown`, for a job that waits for the
lock. A job that joins its own thread has the lock, and is no such job. -/
def LockDeadlock (s : PoolState T I) : Prop :=
  ∃ u i t, s.lock = some u ∧ (s.pc u).shuttingDown? = some i ∧
    (s.isles i).shutdownReturns = false ∧ s.host i = some t ∧ (s.pc t).waitsForLock = true

/-- The jobs use the pool only through `try_checkout`, `active`, `idle` and the drop of guards. -/
def ModestJobs (s : PoolState T I) : Prop :=
  ∀ i t, s.host i = some t → (s.pc t).modest = true

instance [Fintype T] [Fintype I] (s : PoolState T I) : Decidable (ModestJobs s) :=
  inferInstanceAs (Decidable (∀ i t, s.host i = some t → (s.pc t).modest = true))

/-- With such jobs, no state reached by steps that meet `P` is a deadlock on the lock. -/
def NoLockDeadlock (cfg : PoolConfig) (P : PoolState T I → PoolLabel T I → Prop) : Prop :=
  ∀ s, (pool cfg).ReachableVia (fun s l => ModestJobs s ∧ P s l) s → ModestJobs s →
    ¬ LockDeadlock s

/-- While an isle is shut down under the lock, its job does not come to wait for the lock, and such
a shutdown does not begin while the job waits for it, unless `Isle::shutdown` returns at once. A job
may shut its own isle down, by the drop of its guard. -/
def JobsApart (s : PoolState T I) : PoolLabel T I → Prop
  | .call t | .dropGuard t _ | .factoryErr t | .wake t => ∀ i u, s.host i = some t →
      (s.pc u).shuttingDown? = some i → (s.isles i).shutdownReturns = true
  | .drain u => ∀ i queue t, s.pc u = .draining (i :: queue) → s.host i = some t → t ≠ u →
      (s.pc t).waitsForLock = true → (s.isles i).shutdownReturns = true
  | .returnIsle u => ∀ i t, s.pc u = .returning i → s.inner.closed = true → s.host i = some t →
      t ≠ u → (s.pc t).waitsForLock = true → (s.isles i).shutdownReturns = true
  | _ => True

lemma lock_of_woken {s s' : PoolState T I} {l : PoolLabel T I} {t : T} {w : Patience}
    (hs : PoolStep cfg s l s') (hl : l.thread? ≠ some t) (hblocked : s.pc t = .blocked w)
    (hwoken : s'.pc t = .woken w) :
    s.lock = none ∨ ∃ v, l.thread? = some v ∧ (s.pc v).holdsLock = true := by
  have stays (h : s'.pc t = s.pc t) : False := by
    rw [h, hblocked] at hwoken
    cases hwoken
  have other {u : T} (hu : some u ≠ some t) (p : PoolPc I) :
      Function.update s.pc u p t = s.pc t :=
    Function.update_of_ne (fun h => hu (congrArg some h.symm)) _ _
  cases hs with
  | decActive hlock | returnIdle hlock | returnDead hlock => exact Or.inl hlock
  | @returnEnd v _ _ hpc | @shutdownEnd v hpc => exact Or.inr ⟨v, rfl, by rw [hpc]; rfl⟩
  | tick | isleExit | isleFinish | guardShutdown | jobStart | jobEnd => exact (stays rfl).elim
  | _ => exact (stays (other hl _)).elim

/-- The actions by which a thread comes to wait for the lock. -/
def ComesToLock (l : PoolLabel T I) (t : T) : Prop :=
  l = .call t ∨ (∃ i, l = .dropGuard t i) ∨ l = .factoryErr t ∨ l = .wake t

lemma waits_step {s s' : PoolState T I} {l : PoolLabel T I} {t : T} (hs : PoolStep cfg s l s')
    (ht : (s'.pc t).waitsForLock = true) :
    (s.pc t).waitsForLock = true ∨ ComesToLock l t ∨
      s.lock = none ∨ ∃ v, l.thread? = some v ∧ (s.pc v).holdsLock = true := by
  by_cases hl : l.thread? = some t
  swap
  · rcases pc_step hs hl with heq | ⟨w, hblocked, hwoken⟩
    · exact Or.inl (heq ▸ ht)
    · exact Or.inr (Or.inr (lock_of_woken hs hl hblocked hwoken))
  cases hs with
  | callCheckout | callRead | callShutdown =>
    cases hl
    exact Or.inr (Or.inl (Or.inl rfl))
  | @dropGuard _ i =>
    cases hl
    exact Or.inr (Or.inl (Or.inr (Or.inl ⟨i, rfl⟩)))
  | factoryErr =>
    cases hl
    exact Or.inr (Or.inl (Or.inr (Or.inr (Or.inl rfl))))
  | spurious | elapsed =>
    cases hl
    exact Or.inr (Or.inl (Or.inr (Or.inr (Or.inr rfl))))
  | lockPoisoned hlock | lockOverflow hlock | lockClosed hlock | acquireIsle hlock
  | acquireGrow hlock | acquireNeedWait hlock | decActive hlock | returnIdle hlock
  | returnDead hlock | returnClosed hlock | read hlock | shutdown hlock =>
    exact Or.inr (Or.inr (Or.inl hlock))
  | sleep hpc | refuse hpc | returnEnd hpc | drain hpc | drainEnd hpc | shutdownEnd hpc =>
    cases hl
    exact Or.inr (Or.inr (Or.inr ⟨t, rfl, by rw [hpc]; rfl⟩))
  | factoryOk | factoryPanic =>
    cases hl
    simp [PoolState.leave, PoolPc.waitsForLock] at ht
  | tick | isleExit | isleFinish | guardShutdown | jobStart | jobEnd => cases hl

lemma shuttingDown_step {s s' : PoolState T I} {l : PoolLabel T I} {u : T} {i : I}
    (hs : PoolStep cfg s l s') (hu : (s'.pc u).shuttingDown? = some i) :
    (s.pc u).shuttingDown? = some i ∨
      (l = .drain u ∧ ∃ queue, s.pc u = .draining (i :: queue)) ∨
      (l = .returnIsle u ∧ s.pc u = .returning i ∧ s.inner.closed = true) := by
  by_cases hl : l.thread? = some u
  swap
  · rcases pc_step hs hl with heq | ⟨w, -, heq⟩
    · exact Or.inl (heq ▸ hu)
    · rw [heq] at hu
      cases hu
  cases hs with
  | drain hpc =>
    cases hl
    simp only [Function.update_self, PoolPc.shuttingDown?, Option.some.injEq] at hu
    exact Or.inr (Or.inl ⟨rfl, _, hu ▸ hpc⟩)
  | returnClosed _ hpc hclosed =>
    cases hl
    simp only [Function.update_self, PoolPc.shuttingDown?, Option.some.injEq] at hu
    exact Or.inr (Or.inr ⟨rfl, hu ▸ hpc, hclosed⟩)
  | decActive _ _ hnotify | returnIdle _ _ _ _ hnotify | returnDead _ _ _ _ hnotify
  | returnEnd _ _ hnotify =>
    cases hl
    dsimp only at hu
    rw [hnotify.at_rest] at hu
    cases hu
  | tick | isleExit | isleFinish | guardShutdown | jobStart | jobEnd => cases hl
  | _ =>
    cases hl
    simp [PoolState.leave, notifyAll, PoolPc.shuttingDown?] at hu

lemma host_step {s s' : PoolState T I} {l : PoolLabel T I} {i : I} {t : T}
    (hs : PoolStep cfg s l s') (ht : s'.host i = some t) :
    s.host i = some t ∨ (s.pc t = .rest ∧ s'.pc = s.pc) := by
  cases hs with
  | @jobStart k u _ _ _ hpc =>
    by_cases hik : i = k
    · subst hik
      simp only [Function.update_self, Option.some.injEq] at ht
      exact Or.inr ⟨ht ▸ hpc, rfl⟩
    · exact Or.inl (by simpa [hik] using ht)
  | @jobEnd k u =>
    by_cases hik : i = k
    · subst hik
      simp at ht
    · exact Or.inl (by simpa [hik] using ht)
  | _ => exact Or.inl ht

lemma waits_of_shuttingDown {s s' : PoolState T I} {l : PoolLabel T I} {u : T} {i : I}
    (hs : PoolStep cfg s l s') (hu : (s.pc u).shuttingDown? = some i)
    (hwait : (s.isles i).shutdownReturns = false) : l.thread? ≠ some u := by
  intro hl
  have elsewhere {p : PoolPc I} (hpc : s.pc u = p) (hp : p.shuttingDown? = none) : False := by
    rw [hpc, hp] at hu
    cases hu
  cases hs with
  | returnEnd hpc hreturns | drainEnd hpc hreturns =>
    cases hl
    rw [hpc] at hu
    cases hu
    rw [hwait] at hreturns
    cases hreturns
  | lockPoisoned _ _ hpc =>
    cases hl
    rcases PoolPc.entering_cases hpc with ⟨call, h⟩ | ⟨w, h⟩ <;> exact elsewhere h rfl
  | lockOverflow _ _ hpc | lockClosed _ _ hpc | acquireIsle _ _ hpc | acquireGrow _ _ hpc
  | acquireNeedWait _ _ hpc =>
    cases hl
    rcases PoolPc.entering_cases (by rw [hpc]; exact Option.some_ne_none _) with ⟨call, h⟩ | ⟨w, h⟩ <;>
      exact elsewhere h rfl
  | callCheckout _ hpc | callRead _ hpc | callShutdown hpc | sleep hpc | refuse hpc | spurious hpc
  | elapsed hpc | factoryOk hpc | factoryErr hpc | factoryPanic hpc | dropGuard hpc | drain hpc
  | shutdownEnd hpc =>
    cases hl
    exact elsewhere hpc rfl
  | decActive _ hpc | returnIdle _ hpc | returnDead _ hpc | returnClosed _ hpc | read _ hpc
  | shutdown _ hpc =>
    cases hl
    exact elsewhere hpc rfl
  | tick | isleExit | isleFinish | guardShutdown | jobStart | jobEnd => cases hl

lemma shutdownReturns_step {s s' : PoolState T I} {l : PoolLabel T I} {i : I}
    (hs : PoolStep cfg s l s') (h : (s.isles i).shutdownReturns = true) :
    (s'.isles i).shutdownReturns = true := by
  have moved {k : I} {v : IsleView} (hv : i = k → v.shutdownReturns = true) :
      (Function.update s.isles k v i).shutdownReturns = true := by
    by_cases hik : i = k
    · subst hik
      rw [Function.update_self]
      exact hv rfl
    · rwa [Function.update_of_ne hik]
  cases hs with
  | isleExit => exact moved (fun hik => hik ▸ h)
  | isleFinish => exact moved (fun _ => by simp [IsleView.finish, IsleView.shutdownReturns])
  | guardShutdown | returnEnd | drainEnd => exact moved (fun _ => rfl)
  | _ => exact h

/-- The job of an isle whose shutdown under the lock is held up does not wait for the lock. -/
def Apart (s : PoolState T I) : Prop :=
  ∀ u i t, (s.pc u).shuttingDown? = some i → (s.isles i).shutdownReturns = false →
    s.host i = some t → (s.pc t).waitsForLock = false

lemma holdsLock_of_shuttingDown {p : PoolPc I} {i : I} (h : p.shuttingDown? = some i) :
    p.holdsLock = true := by
  cases p <;> first | rfl | cases h

lemma not_waits_of_shuttingDown {p : PoolPc I} {i : I} (h : p.shuttingDown? = some i) :
    p.waitsForLock = false := by
  cases p <;> first | rfl | cases h

lemma apart_step {s s' : PoolState T I} {l : PoolLabel T I} (hheld : ∀ t, Held cfg s t)
    (hi : Apart s) (hP : JobsApart s l) (hs : PoolStep cfg s l s') : Apart s' := by
  intro u i t hu hwait ht
  have hwait' : (s.isles i).shutdownReturns = false := by
    by_contra h
    rw [shutdownReturns_step hs (Bool.eq_true_of_not_eq_false h)] at hwait
    cases hwait
  have absent {p : Prop} (h : p → (s.isles i).shutdownReturns = true) : ¬ p := by
    intro hp
    rw [h hp] at hwait'
    cases hwait'
  by_cases htu : t = u
  · exact htu ▸ not_waits_of_shuttingDown hu
  rcases host_step hs ht with hhost | ⟨hrest, heq⟩
  swap
  · rw [heq, hrest]
    rfl
  rw [← Bool.not_eq_true]
  intro hwaits
  rcases shuttingDown_step hs hu with h | ⟨rfl, queue, hpc⟩ | ⟨rfl, hpc, hclosed⟩
  · have howner := (hheld u).owner (holdsLock_of_shuttingDown h)
    rcases waits_step hs hwaits with hold | hcomes | hfree | ⟨v, hv, hholds⟩
    · rw [hi u i t h hwait' hhost] at hold
      cases hold
    · -- the job would come to the lock while its isle is being shut down
      rcases hcomes with rfl | ⟨k, rfl⟩ | rfl | rfl <;> exact absent (hP i u hhost) h
    · rw [howner] at hfree
      cases hfree
    · have hvu := (hheld v).owner hholds
      rw [howner] at hvu
      cases hvu
      exact waits_of_shuttingDown hs h hwait' hv
  · cases hs with
    | drain =>
      dsimp only at hwaits
      rw [Function.update_of_ne htu] at hwaits
      exact absent (hP i queue t hpc hhost htu) hwaits
  · cases hs with
    | returnIdle _ _ hopen | returnDead _ _ hopen =>
      rw [hclosed] at hopen
      cases hopen
    | returnClosed =>
      dsimp only at hwaits
      rw [Function.update_of_ne htu] at hwaits
      exact absent (hP i t hpc hclosed hhost htu) hwaits

lemma lockDeadlock_of_comes {s s' : PoolState T I} {u t : T} {i : I} {p : PoolPc I}
    (hheld : ∀ t, Held cfg s t) (hu : (s.pc u).shuttingDown? = some i)
    (hwait : (s.isles i).shutdownReturns = false) (hhost : s.host i = some t)
    (ht : (s.pc t).shuttingDown? = none) (hp : p.waitsForLock = true) (hlock : s'.lock = s.lock)
    (hpc : s'.pc = Function.update s.pc t p) (hisles : s'.isles = s.isles)
    (hhosts : s'.host = s.host) : LockDeadlock s' := by
  have htu : u ≠ t := by
    rintro rfl
    rw [ht] at hu
    cases hu
  refine ⟨u, i, t, ?_, ?_, hisles ▸ hwait, hhosts ▸ hhost, ?_⟩
  · rw [hlock, (hheld u).owner (holdsLock_of_shuttingDown hu)]
  · rw [hpc, Function.update_of_ne htu, hu]
  · rw [hpc, Function.update_self, hp]

/-- A step that the condition excludes ends in a deadlock. -/
lemma lockDeadlock_of_not_apart {s s' : PoolState T I} {l : PoolLabel T I}
    (hheld : ∀ t, Held cfg s t) (hs : PoolStep cfg s l s') (hP : ¬ JobsApart s l) :
    LockDeadlock s' := by
  by_contra hno
  refine hP ?_
  cases hs with
  | callCheckout _ hpc | callRead _ hpc | callShutdown hpc | spurious hpc | elapsed hpc
  | factoryErr hpc | dropGuard hpc =>
    intro i u hhost hu
    by_contra hwait
    exact hno (lockDeadlock_of_comes hheld hu (Bool.eq_false_of_not_eq_true hwait) hhost
      (by rw [hpc]; rfl) rfl rfl rfl rfl rfl)
  | @drain u i queue hpc =>
    intro k queue' t hpc' hhost htu hwaits
    rw [hpc] at hpc'
    cases hpc'
    by_contra hwait
    refine hno ⟨u, i, t, ((hheld u).at_pc hpc rfl).1, by simp [PoolPc.shuttingDown?],
      Bool.eq_false_of_not_eq_true hwait, hhost, ?_⟩
    dsimp only
    rw [Function.update_of_ne htu, hwaits]
  | @returnClosed u i _ hpc =>
    intro k t hpc' _ hhost htu hwaits
    rw [hpc] at hpc'
    cases hpc'
    by_contra hwait
    refine hno ⟨u, i, t, rfl, by simp [PoolPc.shuttingDown?],
      Bool.eq_false_of_not_eq_true hwait, hhost, ?_⟩
    dsimp only
    rw [Function.update_of_ne htu, hwaits]
  | returnIdle _ _ hopen | returnDead _ _ hopen =>
    intro i t _ hclosed
    rw [hopen] at hclosed
    cases hclosed
  | _ => trivial

/-- The lock is not part of a deadlock as long as the job of an isle neither waits for the lock
nor comes to it while the isle is shut down under the lock; otherwise it is. -/
theorem lock_not_in_deadlock : NoLockDeadlock (T := T) (I := I) cfg JobsApart ∧
    ∀ (s : PoolState T I) l s', (pool cfg).Reachable s → PoolStep cfg s l s' → ¬ JobsApart s l →
      LockDeadlock s' := by
  refine ⟨?_, fun s l s' h hs hP => lockDeadlock_of_not_apart (held_reachable h) hs hP⟩
  rintro s hs - ⟨u, i, t, -, hu, hwait, hhost, hwaits⟩
  have hapart : Apart s := by
    refine TransitionSystem.ReachableVia.invariant_of (J := fun s => ∀ t, Held cfg s t)
      (I := Apart) (fun s h => held_reachable h) (fun u i t hu => by cases hu) ?_ hs
    exact fun s l s' hheld hi hP hst => apart_step hheld hi hP.2 hst
  rw [hapart u i t hu hwait hhost] at hwaits
  cases hwaits

/-- The job of the isle is still running when the pool is shut down, and does not use the pool. -/
theorem lock_not_in_deadlock_quiet : ∃ s : PoolState Bool Unit,
    s.pc true = .drainShutdown () [] ∧ s.host () = some false ∧ ¬ LockDeadlock s := by
  have h0 : (pool (T := Bool) (I := Unit) twoIsles).ReachableVia
    (fun s l => ModestJobs s ∧ JobsApart s l) _ := TransitionSystem.RunVia.refl _
  have h1 := h0.tail (.callCheckout (t := true) .checkout rfl) ⟨by decide, fun i u h => by cases h⟩
  have h2 := h1.tail (.acquireGrow (t := true) rfl rfl rfl rfl rfl) ⟨by decide, trivial⟩
  have h3 := h2.tail (.factoryOk (t := true) (i := ()) rfl rfl) ⟨by decide, trivial⟩
  have h4 := h3.tail (.jobStart (i := ()) (t := false) rfl rfl rfl rfl (by decide))
    ⟨by decide, trivial⟩
  have h5 := h4.tail (.dropGuard (t := true) (i := ()) rfl (by decide) (by decide))
    ⟨by decide, fun i u h => by cases h⟩
  have h6 := h5.tail (.returnIdle (t := true) rfl rfl rfl rfl
    (.none (fun t w h => by cases t <;> cases h))) ⟨by decide, fun i t _ h => by cases h⟩
  have h7 := h6.tail (.callShutdown (t := true) rfl) ⟨by decide, fun i u h => by cases h⟩
  have h8 := h7.tail (.shutdown (t := true) rfl rfl) ⟨by decide, trivial⟩
  have h9 := h8.tail (.drain (t := true) rfl) ⟨by decide, fun i queue t _ h _ hwaits => by cases h; cases hwaits⟩
  exact ⟨_, rfl, rfl, lock_not_in_deadlock.1 _ h9 (by decide)⟩

/-- A guard is dropped while the job that was submitted through it still runs. The pool is shut
down, and the job comes to `active`. -/
theorem lock_in_deadlock :
    ¬ NoLockDeadlock (T := Bool) (I := Unit) twoIsles (fun _ _ => True) := by
  intro h
  have h0 : (pool (T := Bool) (I := Unit) twoIsles).ReachableVia
    (fun s _ => ModestJobs s ∧ True) _ := TransitionSystem.RunVia.refl _
  have h1 := h0.tail (.callCheckout (t := true) .checkout rfl) ⟨by decide, trivial⟩
  have h2 := h1.tail (.acquireGrow (t := true) rfl rfl rfl rfl rfl) ⟨by decide, trivial⟩
  have h3 := h2.tail (.factoryOk (t := true) (i := ()) rfl rfl) ⟨by decide, trivial⟩
  have h4 := h3.tail (.jobStart (i := ()) (t := false) rfl rfl rfl rfl (by decide))
    ⟨by decide, trivial⟩
  have h5 := h4.tail (.dropGuard (t := true) (i := ()) rfl (by decide) (by decide))
    ⟨by decide, trivial⟩
  have h6 := h5.tail (.returnIdle (t := true) rfl rfl rfl rfl (.none (fun t w h => by cases t <;> cases h)))
    ⟨by decide, trivial⟩
  have h7 := h6.tail (.callShutdown (t := true) rfl) ⟨by decide, trivial⟩
  have h8 := h7.tail (.shutdown (t := true) rfl rfl) ⟨by decide, trivial⟩
  have h9 := h8.tail (.drain (t := true) rfl) ⟨by decide, trivial⟩
  have h10 := h9.tail (.callRead (t := false) .active rfl) ⟨by decide, trivial⟩
  exact h _ h10 (by decide) ⟨true, (), false, rfl, rfl, rfl, rfl, rfl⟩

/-! ## Once in a deadlock -/

lemma waits_of_taken {s s' : PoolState T I} {l : PoolLabel T I} {t : T}
    (hs : PoolStep cfg s l s') (ht : (s.pc t).waitsForLock = true) (hlock : s.lock ≠ none) :
    l.thread? ≠ some t := by
  intro hl
  have elsewhere {p : PoolPc I} (hpc : s.pc t = p) (hp : p.waitsForLock = false) : False := by
    rw [hpc, hp] at ht
    cases ht
  cases hs with
  | lockPoisoned hfree | lockOverflow hfree | lockClosed hfree | acquireIsle hfree
  | acquireGrow hfree | acquireNeedWait hfree | decActive hfree | returnIdle hfree
  | returnDead hfree | returnClosed hfree | read hfree | shutdown hfree => exact hlock hfree
  | callCheckout _ hpc | callRead _ hpc | callShutdown hpc | sleep hpc | refuse hpc | spurious hpc
  | elapsed hpc | factoryOk hpc | factoryErr hpc | factoryPanic hpc | dropGuard hpc
  | returnEnd hpc | drain hpc | drainEnd hpc | shutdownEnd hpc =>
    cases hl
    exact elsewhere hpc rfl
  | tick | isleExit | isleFinish | guardShutdown | jobStart | jobEnd => cases hl

/-- An isle that runs a job is in its loop. -/
def Busy (s : PoolState T I) (i : I) : Prop :=
  ((s.isles i).finished = true → (s.isles i).exited = true) ∧
    (s.host i ≠ none → (s.isles i).exited = false)

lemma busy_step {s s' : PoolState T I} {l : PoolLabel T I} {i : I} (hi : Busy s i)
    (hs : PoolStep cfg s l s') : Busy s' i := by
  have moved {k : I} {v : IsleView} (hfin : i = k → v.finished = true → v.exited = true)
      (hexit : i = k → s.host i ≠ none → v.exited = false) :
      ((Function.update s.isles k v i).finished = true →
        (Function.update s.isles k v i).exited = true) ∧
      (s.host i ≠ none → (Function.update s.isles k v i).exited = false) := by
    by_cases hik : i = k
    · subst hik
      rw [Function.update_self]
      exact ⟨hfin rfl, hexit rfl⟩
    · rw [Function.update_of_ne hik]
      exact hi
  cases hs with
  | isleExit _ hhost =>
    refine moved (fun _ _ => rfl) (fun hik h => ?_)
    subst hik
    exact absurd hhost h
  | isleFinish _ hexited =>
    refine moved (fun _ _ => hexited) (fun hik h => ?_)
    subst hik
    exact hi.2 h
  | guardShutdown | returnEnd | drainEnd =>
    refine moved (fun hik h => ?_) (fun hik h => ?_) <;> subst hik
    · exact hi.1 h
    · exact hi.2 h
  | @jobStart k t _ hexited =>
    refine ⟨hi.1, fun h => ?_⟩
    by_cases hik : i = k
    · exact hik ▸ hexited
    · exact hi.2 (by simpa [hik] using h)
  | @jobEnd k =>
    refine ⟨hi.1, fun h => ?_⟩
    by_cases hik : i = k
    · subst hik
      simp at h
    · exact hi.2 (by simpa [hik] using h)
  | _ => exact hi

theorem busy_reachable {s : PoolState T I} (h : (pool cfg).Reachable s) (i : I) : Busy s i := by
  refine TransitionSystem.Reachable.invariant (I := fun s => Busy s i) ?_
    (fun s l s' hi hs => busy_step hi hs) h
  exact ⟨fun h => (by cases h), fun _ => rfl⟩

lemma host_of_waits {s s' : PoolState T I} {l : PoolLabel T I} {i : I} {t : T}
    (hs : PoolStep cfg s l s') (hhost : s.host i = some t)
    (ht : (s.pc t).waitsForLock = true) : s'.host i = some t := by
  cases hs with
  | @jobStart k u _ _ hfree =>
    by_cases hik : i = k
    · subst hik
      rw [hfree] at hhost
      cases hhost
    · simpa [hik] using hhost
  | @jobEnd k u hhost' hpc =>
    by_cases hik : i = k
    · subst hik
      rw [hhost'] at hhost
      cases hhost
      rw [hpc] at ht
      cases ht
    · simpa [hik] using hhost
  | _ => exact hhost

section

variable [Fintype T]

lemma not_guarded_of_shuttingDown {s : PoolState T I} (h : (pool cfg).Reachable s) {u : T} {i : I}
    (hu : (s.pc u).shuttingDown? = some i) : i ∉ s.guards := by
  intro hguard
  have hplace := (custody_reachable h i).place
  have hcount := Multiset.count_pos.mpr hguard
  have hdisposing : 0 < carried PoolPc.disposing s.pc i := by
    refine lt_of_lt_of_le ?_ (le_tally (fun p => (PoolPc.disposing p).count i) s.pc u)
    cases hpc : s.pc u with
    | returnShutdown | drainShutdown =>
      rw [hpc] at hu
      cases hu
      simp [PoolPc.disposing]
    | _ =>
      rw [hpc] at hu
      cases hu
  split at hplace <;> omega

/-- Nobody gets out of a deadlock on the lock. -/
theorem lockDeadlock_step {s s' : PoolState T I} {l : PoolLabel T I} (h : (pool cfg).Reachable s)
    (hs : PoolStep cfg s l s') (hd : LockDeadlock s) : LockDeadlock s' := by
  obtain ⟨u, i, t, hlock, hu, hwait, hhost, ht⟩ := hd
  have hbusy := busy_reachable h i
  have hexited : (s.isles i).exited = false := hbusy.2 (by simp [hhost])
  have htaken : s.lock ≠ none := by simp [hlock]
  have hmove := waits_of_shuttingDown hs hu hwait
  have hlock' : s'.lock = some u := by
    rcases lock_step hs with heq | hfree | ⟨v, hv, hholds⟩
    · exact heq.trans hlock
    · exact absurd hfree htaken
    · have hvu := (held_reachable h v).owner hholds
      rw [hlock] at hvu
      cases hvu
      exact absurd hv hmove
  have hu' : (s'.pc u).shuttingDown? = some i := by
    rcases pc_step hs hmove with heq | ⟨w, hblocked, -⟩
    · rw [heq, hu]
    · rw [hblocked] at hu
      cases hu
  have ht' : (s'.pc t).waitsForLock = true := by
    rcases pc_step hs (waits_of_taken hs ht htaken) with heq | ⟨w, hblocked, -⟩
    · rw [heq, ht]
    · rw [hblocked] at ht
      cases ht
  refine ⟨u, i, t, hlock', hu', ?_, host_of_waits hs hhost ht, ht'⟩
  have moved {k : I} {v : IsleView} (hv : i = k → v.shutdownReturns = false) :
      (Function.update s.isles k v i).shutdownReturns = false := by
    by_cases hik : i = k
    · subst hik
      rw [Function.update_self]
      exact hv rfl
    · rw [Function.update_of_ne hik]
      exact hwait
  have alone {v : T} (hv : (s.pc v).holdsLock = true) : v = u := by
    have hvu := (held_reachable h v).owner hv
    rw [hlock] at hvu
    exact (Option.some.inj hvu).symm
  cases hs with
  | isleExit =>
    refine moved (fun hik => ?_)
    subst hik
    exact hwait
  | isleFinish _ hfin =>
    refine moved (fun hik => ?_)
    subst hik
    rw [hexited] at hfin
    cases hfin
  | guardShutdown hguard =>
    refine moved (fun hik => ?_)
    subst hik
    exact absurd hguard (not_guarded_of_shuttingDown h hu)
  | returnEnd hpc | drainEnd hpc =>
    exact absurd (congrArg some (alone (by rw [hpc]; rfl))) hmove
  | _ => exact hwait

theorem lockDeadlock_forever {s s' : PoolState T I} (h : (pool cfg).Reachable s)
    (hd : LockDeadlock s) (hrun : (pool cfg).Run s s') : LockDeadlock s' :=
  TransitionSystem.RunVia.invariant_of (J := fun s => (pool cfg).Reachable s)
    (fun _ h => h) (fun _ _ _ hr hd _ hs => lockDeadlock_step hr hs hd) h hrun hd

end

end RusqliteIsle
