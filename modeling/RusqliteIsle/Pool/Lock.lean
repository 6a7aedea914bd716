import RusqliteIsle.Pool.System

/-!
# The holder of the pool's lock

A step moves the thread it is about; any other thread can only be woken by it. So the lock has
one holder, and what a holder has found out under the lock stays true until it lets go: a checkout
about to sleep found the pool open and full, and an isle is shut down only in a closed pool.
-/

namespace RusqliteIsle

set_option linter.unusedSectionVars false

variable {T I : Type} [DecidableEq T] [DecidableEq I] {cfg : PoolConfig}

/-- The thread that a label moves. -/
def PoolLabel.thread? : PoolLabel T I → Option T
  | call t | lock t | decide t | wake t | factoryOk t _ | factoryErr t | factoryPanic t
  | decActive t | dropGuard t _ | returnIsle t | returnEnd t | read t | shutdown t | drain t
  | drainEnd t | shutdownEnd t => some t
  | _ => none

namespace PoolPc

variable {I : Type}

/-- Whether the thread is inside `IslePool::shutdown`, under the lock. -/
def isDraining : PoolPc I → Bool
  | draining _ => true
  | drainShutdown _ _ => true
  | _ => false

end PoolPc

lemma NotifyOne.at_thread {pc pc' : T → PoolPc I} (h : NotifyOne pc pc') (t : T) :
    pc' t = pc t ∨ ∃ w, pc t = .blocked w ∧ pc' t = .woken w := by
  cases h with
  | @wake t' w hblocked =>
    by_cases ht : t = t'
    · subst ht
      exact Or.inr ⟨w, hblocked, Function.update_self _ _ _⟩
    · exact Or.inl (Function.update_of_ne ht _ _)
  | none => exact Or.inl rfl

lemma notifyAll_at_thread (pc : T → PoolPc I) (t : T) :
    notifyAll pc t = pc t ∨ ∃ w, pc t = .blocked w ∧ notifyAll pc t = .woken w := by
  cases hpc : pc t with
  | blocked w => exact Or.inr ⟨w, rfl, by simp [notifyAll, hpc]⟩
  | _ => exact Or.inl (by simp [notifyAll, hpc])

lemma notifyAll_ne_blocked (pc : T → PoolPc I) (t : T) (w : Patience) :
    notifyAll pc t ≠ .blocked w := by
  cases hpc : pc t <;> simp [notifyAll, hpc]

lemma pc_step {s s' : PoolState T I} {l : PoolLabel T I} {t : T} (hs : PoolStep cfg s l s')
    (hl : l.thread? ≠ some t) :
    s'.pc t = s.pc t ∨ ∃ w, s.pc t = .blocked w ∧ s'.pc t = .woken w := by
  have other {u : T} (hu : some u ≠ some t) (p : PoolPc I) :
      Function.update s.pc u p t = s.pc t :=
    Function.update_of_ne (fun h => hu (congrArg some h.symm)) _ _
  cases hs with
  | decActive _ _ hnotify | returnIdle _ _ _ _ hnotify | returnDead _ _ _ _ hnotify
  | returnEnd _ _ hnotify =>
    have hat := hnotify.at_thread t
    simp only [PoolState.leave, other hl] at hat
    exact hat
  | @shutdownEnd u =>
    have hat := notifyAll_at_thread (Function.update s.pc u .rest) t
    rw [other hl] at hat
    exact hat
  | tick | isleExit | isleFinish | guardShutdown | jobStart | jobEnd => exact Or.inl rfl
  | _ => exact Or.inl (other hl _)

lemma NotifyOne.at_rest {pc pc' : T → PoolPc I} {t : T}
    (h : NotifyOne (Function.update pc t .rest) pc') : pc' t = .rest := by
  rcases h.at_thread t with heq | ⟨w, heq, -⟩
  · rw [heq, Function.update_self]
  · rw [Function.update_self] at heq
    cases heq

/-- What the lock protects changes only while nobody holds the lock. -/
lemma inner_step {s s' : PoolState T I} {l : PoolLabel T I} (hs : PoolStep cfg s l s') :
    s'.inner = s.inner ∨ s.lock = none := by
  cases hs with
  | acquireIsle hlock | acquireGrow hlock | acquireNeedWait hlock | decActive hlock
  | returnIdle hlock | returnDead hlock | returnClosed hlock | shutdown hlock => exact Or.inr hlock
  | _ => exact Or.inl rfl

lemma lock_step {s s' : PoolState T I} {l : PoolLabel T I} (hs : PoolStep cfg s l s') :
    s'.lock = s.lock ∨ s.lock = none ∨
      ∃ t, l.thread? = some t ∧ (s.pc t).holdsLock = true := by
  cases hs with
  | acquireNeedWait hlock | returnClosed hlock | shutdown hlock => exact Or.inr (Or.inl hlock)
  | @sleep t w hpc | @refuse t w _ hpc | @returnEnd t _ _ hpc | @shutdownEnd t hpc =>
    exact Or.inr (Or.inr ⟨t, rfl, by rw [hpc]; rfl⟩)
  | _ => exact Or.inl rfl

lemma closed_step {s s' : PoolState T I} {l : PoolLabel T I} (hs : PoolStep cfg s l s')
    (h : s'.inner.closed = true) :
    s.inner.closed = true ∨ ∃ t, (s'.pc t).isDraining = true := by
  cases hs with
  | acquireIsle _ _ _ hopen hacquire =>
    rw [show _ = _ from (tryAcquire_isle hacquire).2.2.1, hopen] at h
    cases h
  | acquireGrow _ _ _ hopen hacquire =>
    rw [show _ = _ from (tryAcquire_grow hacquire).2.2.2.2, hopen] at h
    cases h
  | acquireNeedWait _ _ _ hopen hacquire =>
    rw [show _ = _ from (tryAcquire_needWait hacquire).2.2.2.2, hopen] at h
    cases h
  | @shutdown t => exact Or.inr ⟨t, by simp [PoolPc.isDraining]⟩
  | _ => exact Or.inl h

lemma closed_of_step {s s' : PoolState T I} {l : PoolLabel T I} (hs : PoolStep cfg s l s')
    (h : s.inner.closed = true) : s'.inner.closed = true := by
  cases hs with
  | acquireIsle _ _ _ hopen | acquireGrow _ _ _ hopen | acquireNeedWait _ _ _ hopen =>
    rw [hopen] at h
    cases h
  | shutdown => rfl
  | _ => exact h

/-- What a thread that holds the lock has found out under it. -/
def Found (cfg : PoolConfig) (inner : PoolInner I) : PoolPc I → Prop
  | .needWait _ => inner.closed = false ∧ cfg.maxSize ≤ inner.active
  | .returnShutdown _ => inner.closed = true
  | .draining _ => inner.closed = true
  | .drainShutdown _ _ => inner.closed = true
  | _ => True

structure Held (cfg : PoolConfig) (s : PoolState T I) (t : T) : Prop where
  owner : (s.pc t).holdsLock = true → s.lock = some t
  found : Found cfg s.inner (s.pc t)

namespace Held

variable {s s' : PoolState T I} {l : PoolLabel T I} {t : T}

lemma of_free (h : (s.pc t).holdsLock = false) : Held cfg s t := by
  refine ⟨fun ht => ?_, ?_⟩
  · rw [h] at ht
    cases ht
  · cases hpc : s.pc t <;> first | trivial | (rw [hpc] at h; cases h)

lemma of_pc {p : PoolPc I} (hpc : s.pc t = p) (hlock : s.lock = some t)
    (hfound : Found cfg s.inner p) : Held cfg s t :=
  ⟨fun _ => hlock, hpc ▸ hfound⟩

lemma at_pc (hi : Held cfg s t) {p : PoolPc I} (hpc : s.pc t = p) (hp : p.holdsLock = true) :
    s.lock = some t ∧ Found cfg s.inner p :=
  ⟨hi.owner (hpc ▸ hp), hpc ▸ hi.found⟩

lemma keep (hi : ∀ t, Held cfg s t) (hs : PoolStep cfg s l s') (hl : l.thread? ≠ some t)
    (ht : (s.pc t).holdsLock = true) : s'.lock = some t ∧ s'.inner = s.inner := by
  have howner := (hi t).owner ht
  have htaken : s.lock ≠ none := by
    rw [howner]
    exact Option.some_ne_none t
  refine ⟨?_, (inner_step hs).resolve_right htaken⟩
  rw [← howner]
  rcases lock_step hs with h | h | ⟨u, hu, hholds⟩
  · exact h
  · exact absurd h htaken
  · have hut := (hi u).owner hholds
    rw [howner] at hut
    cases hut
    exact absurd hu hl

end Held

lemma held_step {s s' : PoolState T I} {l : PoolLabel T I} (hi : ∀ t, Held cfg s t)
    (hs : PoolStep cfg s l s') (t : T) : Held cfg s' t := by
  by_cases hl : l.thread? = some t
  swap
  · rcases pc_step hs hl with heq | ⟨w, -, heq⟩
    · by_cases hholds : (s.pc t).holdsLock = true
      · obtain ⟨hlock, hinner⟩ := Held.keep hi hs hl hholds
        refine ⟨fun _ => hlock, ?_⟩
        rw [heq, hinner]
        exact (hi t).found
      · exact .of_free (by rw [heq]; exact Bool.eq_false_of_not_eq_true hholds)
    · exact .of_free (by rw [heq]; rfl)
  cases hs with
  | acquireNeedWait _ _ _ hopen hacquire =>
    cases hl
    obtain ⟨-, -, hfull, hact, hclosed⟩ := tryAcquire_needWait hacquire
    exact .of_pc (Function.update_self _ _ _) rfl ⟨hclosed.trans hopen, hact ▸ hfull⟩
  | returnClosed _ _ hclosed =>
    cases hl
    exact .of_pc (Function.update_self _ _ _) rfl hclosed
  | shutdown =>
    cases hl
    exact .of_pc (Function.update_self _ _ _) rfl rfl
  | drain hpc | drainEnd hpc =>
    cases hl
    obtain ⟨howner, hclosed⟩ := (hi t).at_pc hpc rfl
    exact .of_pc (Function.update_self _ _ _) howner hclosed
  | decActive _ _ hnotify | returnIdle _ _ _ _ hnotify | returnDead _ _ _ _ hnotify
  | returnEnd _ _ hnotify =>
    cases hl
    exact .of_free (by dsimp only; rw [hnotify.at_rest]; rfl)
  | shutdownEnd =>
    cases hl
    exact .of_free (by simp [notifyAll, PoolPc.holdsLock])
  | tick | isleExit | isleFinish | guardShutdown | jobStart | jobEnd => cases hl
  | _ =>
    cases hl
    exact .of_free (by simp [PoolState.leave, PoolPc.holdsLock])

theorem held_reachable {s : PoolState T I} (h : (pool cfg).Reachable s) (t : T) :
    Held cfg s t := by
  refine TransitionSystem.Reachable.invariant (I := fun s => ∀ t, Held cfg s t) ?_ ?_ h t
  · exact fun t => .of_free rfl
  · exact fun s l s' hi hs t => held_step hi hs t

end RusqliteIsle
