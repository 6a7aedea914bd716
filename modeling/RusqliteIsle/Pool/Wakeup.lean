import RusqliteIsle.Lib.Monitor
import RusqliteIsle.Pool.Lock
import RusqliteIsle.Pool.Slots

/-!
# Wake-ups

While the pool is open and its lock is not poisoned, the pool is a monitor whose units are the
free slots. Its sleepers are the threads blocked on the condition variable, and a thread is on its
way from its wake-up until it has the lock again. Once a shutdown has let go of the lock, nobody
is blocked.
-/

namespace RusqliteIsle

set_option linter.unusedSectionVars false

namespace PoolPc

variable {I : Type}

/-- A thread that is blocked on the condition variable and not yet woken. -/
def asleep : PoolPc I → ℕ
  | blocked _ => 1
  | _ => 0

/-- A thread that has been woken and has not yet taken the lock again. -/
def awake : PoolPc I → ℕ
  | woken _ => 1
  | _ => 0

end PoolPc

variable {T I : Type} [DecidableEq T] [DecidableEq I] [Fintype T] {cfg : PoolConfig}

def PoolState.monitor (cfg : PoolConfig) (s : PoolState T I) : Monitor where
  free := cfg.maxSize - s.inner.active
  asleep := tally PoolPc.asleep s.pc
  awake := tally PoolPc.awake s.pc

lemma NotifyOne.tally_asleep {pc pc' : T → PoolPc I} (h : NotifyOne pc pc') :
    (0 < tally PoolPc.asleep pc ∧ tally PoolPc.asleep pc' = tally PoolPc.asleep pc - 1 ∧
      tally PoolPc.awake pc' = tally PoolPc.awake pc + 1) ∨
    (tally PoolPc.asleep pc = 0 ∧ pc' = pc) := by
  cases h with
  | @wake t w hblocked =>
    have hpos := le_tally PoolPc.asleep pc t
    have hasleep : tally PoolPc.asleep (Function.update pc t (.woken w)) +
        PoolPc.asleep (pc t) = tally PoolPc.asleep pc + 0 := tally_update (PoolPc.woken w)
    have hawake : tally PoolPc.awake (Function.update pc t (.woken w)) +
        PoolPc.awake (pc t) = tally PoolPc.awake pc + 1 := tally_update (PoolPc.woken w)
    rw [hblocked] at hpos hasleep hawake
    simp only [PoolPc.asleep, PoolPc.awake] at hpos hasleep hawake
    exact Or.inl ⟨by omega, by omega, by omega⟩
  | none hnone =>
    refine Or.inr ⟨tally_eq_zero.mpr (fun t => ?_), rfl⟩
    cases hpc : pc t with
    | blocked w => exact absurd hpc (hnone t w)
    | _ => rfl

section

variable {s s' : PoolState T I} {t : T} {p : PoolPc I}

lemma monitor_keep (hactive : s'.inner.active = s.inner.active)
    (hasleep : tally PoolPc.asleep s'.pc = tally PoolPc.asleep s.pc)
    (hawake : tally PoolPc.awake s'.pc = tally PoolPc.awake s.pc) :
    s'.monitor cfg = s.monitor cfg := by
  simp only [PoolState.monitor, hactive, hasleep, hawake]

lemma monitor_move (hpc : s.pc t = p) (hactive : s'.inner.active = s.inner.active)
    {q : PoolPc I} (hpc' : s'.pc = Function.update s.pc t q) (hasleep : q.asleep = p.asleep)
    (hawake : q.awake = p.awake) : s'.monitor cfg = s.monitor cfg := by
  refine monitor_keep hactive ?_ ?_ <;> rw [hpc']
  · exact tally_update_of_eq (hpc ▸ hasleep)
  · exact tally_update_of_eq (hpc ▸ hawake)

lemma monitor_wake {w : Patience} (hpc : s.pc t = .blocked w)
    (hactive : s'.inner.active = s.inner.active)
    (hpc' : s'.pc = Function.update s.pc t (.woken w)) :
    ∃ e, Monitor.Step (s.monitor cfg) e (s'.monitor cfg) := by
  have hpos := le_tally PoolPc.asleep s.pc t
  have hasleep : tally PoolPc.asleep s'.pc + PoolPc.asleep (s.pc t) =
      tally PoolPc.asleep s.pc + 0 := hpc' ▸ tally_update (PoolPc.woken w)
  have hawake : tally PoolPc.awake s'.pc + PoolPc.awake (s.pc t) =
      tally PoolPc.awake s.pc + 1 := hpc' ▸ tally_update (PoolPc.woken w)
  rw [hpc] at hpos hasleep hawake
  simp only [PoolPc.asleep, PoolPc.awake] at hpos hasleep hawake
  have heq : s'.monitor cfg =
      ⟨(s.monitor cfg).free, (s.monitor cfg).asleep - 1, (s.monitor cfg).awake + 1⟩ := by
    simp only [PoolState.monitor, hactive, Monitor.mk.injEq, true_and]
    omega
  exact ⟨.wake, heq ▸ .wake hpos⟩

lemma monitor_release (hpc : s.pc t = p) (hasleep : p.asleep = 0) (hawake : p.awake = 0)
    (hpos : 0 < s.inner.active) (hbound : s.inner.active ≤ cfg.maxSize)
    (hactive : s'.inner.active = s.inner.active - 1)
    (hnotify : NotifyOne (Function.update s.pc t .rest) s'.pc) :
    ∃ e, Monitor.Step (s.monitor cfg) e (s'.monitor cfg) := by
  have hfree : cfg.maxSize - s'.inner.active = cfg.maxSize - s.inner.active + 1 := by omega
  have hsleep : tally PoolPc.asleep (Function.update s.pc t .rest) = tally PoolPc.asleep s.pc :=
    tally_update_of_eq (by rw [hpc, hasleep]; rfl)
  have hwake : tally PoolPc.awake (Function.update s.pc t .rest) = tally PoolPc.awake s.pc :=
    tally_update_of_eq (by rw [hpc, hawake]; rfl)
  rcases hnotify.tally_asleep with ⟨h1, h2, h3⟩ | ⟨h1, h2⟩
  · have heq : s'.monitor cfg = ⟨(s.monitor cfg).free + 1, (s.monitor cfg).asleep - 1,
        (s.monitor cfg).awake + 1⟩ := by
      simp only [PoolState.monitor, hfree, h2, h3, hsleep, hwake]
    exact ⟨.release, heq ▸ .releaseWake (h1.trans_eq hsleep)⟩
  · have heq : s'.monitor cfg = { s.monitor cfg with free := (s.monitor cfg).free + 1 } := by
      simp only [PoolState.monitor, hfree, h2, hsleep, hwake]
    exact ⟨.release, heq ▸ .releaseLost (hsleep.symm.trans h1)⟩

lemma tally_resume {w : Patience} {q : PoolPc I} (hpc : s.pc t = .woken w) (hasleep : q.asleep = 0)
    (hawake : q.awake = 0) :
    tally PoolPc.asleep (Function.update s.pc t q) = tally PoolPc.asleep s.pc ∧
      tally PoolPc.awake (Function.update s.pc t q) = tally PoolPc.awake s.pc - 1 ∧
      0 < tally PoolPc.awake s.pc := by
  have hpos := le_tally PoolPc.awake s.pc t
  have hmove : tally PoolPc.awake (Function.update s.pc t q) + PoolPc.awake (s.pc t) =
      tally PoolPc.awake s.pc + q.awake := tally_update q
  rw [hpc] at hpos hmove
  simp only [PoolPc.awake] at hpos
  refine ⟨tally_update_of_eq (by rw [hpc, hasleep]; rfl), ?_, hpos⟩
  rw [hawake] at hmove
  simp only [PoolPc.awake] at hmove
  omega

lemma monitor_acquire {o : Option Patience} {now : ℕ} {q : PoolPc I}
    (hpc : (s.pc t).entering cfg.horizon now = some o) (hasleep : q.asleep = 0)
    (hawake : q.awake = 0) (hroom : s.inner.active < cfg.maxSize)
    (hactive : s'.inner.active = s.inner.active + 1)
    (hpc' : s'.pc = Function.update s.pc t q) :
    ∃ e, Monitor.Step (s.monitor cfg) e (s'.monitor cfg) := by
  have hfree : 0 < (s.monitor cfg).free := Nat.sub_pos_of_lt hroom
  have hless : cfg.maxSize - s'.inner.active = cfg.maxSize - s.inner.active - 1 := by omega
  rcases PoolPc.entering_cases (by rw [hpc]; exact Option.some_ne_none o) with ⟨call, hat⟩ | ⟨w, hat⟩
  · have heq : s'.monitor cfg = { s.monitor cfg with free := (s.monitor cfg).free - 1 } := by
      simp only [PoolState.monitor, hless, hpc', Monitor.mk.injEq, true_and]
      exact ⟨tally_update_of_eq (by rw [hat, hasleep]; rfl),
        tally_update_of_eq (by rw [hat, hawake]; rfl)⟩
    exact ⟨.take, heq ▸ .take hfree⟩
  · obtain ⟨h1, h2, h3⟩ := tally_resume hat hasleep hawake
    have heq : s'.monitor cfg = { s.monitor cfg with
        free := (s.monitor cfg).free - 1, awake := (s.monitor cfg).awake - 1 } := by
      simp only [PoolState.monitor, hless, hpc', h1, h2]
    exact ⟨.resume, heq ▸ .resume hfree h3⟩

lemma monitor_giveUp {o : Option Patience} {now : ℕ} {q : PoolPc I}
    (hpc : (s.pc t).entering cfg.horizon now = some o) (hasleep : q.asleep = 0)
    (hawake : q.awake = 0) (hfull : cfg.maxSize ≤ s.inner.active)
    (hactive : s'.inner.active = s.inner.active) (hpc' : s'.pc = Function.update s.pc t q) :
    s'.monitor cfg = s.monitor cfg ∨ ∃ e, Monitor.Step (s.monitor cfg) e (s'.monitor cfg) := by
  rcases PoolPc.entering_cases (by rw [hpc]; exact Option.some_ne_none o) with ⟨call, hat⟩ | ⟨w, hat⟩
  · exact Or.inl (monitor_move hat hactive hpc' hasleep hawake)
  · obtain ⟨h1, h2, h3⟩ := tally_resume hat hasleep hawake
    have heq : s'.monitor cfg = { s.monitor cfg with awake := (s.monitor cfg).awake - 1 } := by
      simp only [PoolState.monitor, hactive, hpc', h1, h2]
    exact Or.inr ⟨.giveUp, heq ▸ .giveUp (Nat.sub_eq_zero_of_le hfull) h3⟩

lemma monitor_sleep {w : Patience} (hpc : s.pc t = .needWait w)
    (hfull : cfg.maxSize ≤ s.inner.active) (hactive : s'.inner.active = s.inner.active)
    (hpc' : s'.pc = Function.update s.pc t (.blocked w)) :
    ∃ e, Monitor.Step (s.monitor cfg) e (s'.monitor cfg) := by
  have hmove : tally PoolPc.asleep s'.pc + PoolPc.asleep (s.pc t) =
      tally PoolPc.asleep s.pc + 1 := hpc' ▸ tally_update (PoolPc.blocked w)
  rw [hpc] at hmove
  have hawake : tally PoolPc.awake s'.pc = tally PoolPc.awake s.pc := by
    rw [hpc']
    exact tally_update_of_eq (by rw [hpc]; rfl)
  have heq : s'.monitor cfg =
      { s.monitor cfg with asleep := (s.monitor cfg).asleep + 1 } := by
    simp only [PoolState.monitor, hactive, hawake, Monitor.mk.injEq, true_and, and_true]
    exact hmove
  exact ⟨.sleep, heq ▸ .sleep (Nat.sub_eq_zero_of_le hfull)⟩

end

/-- Open, and the lock not poisoned. -/
def Serving (s : PoolState T I) : Prop := s.inner.closed = false ∧ s.poisoned = false

lemma serving_back {s s' : PoolState T I} {l : PoolLabel T I} (hs : PoolStep cfg s l s')
    (h : Serving s') : Serving s := by
  cases hs with
  | acquireIsle _ _ _ hopen hacquire => exact ⟨hopen, h.2⟩
  | acquireGrow _ _ _ hopen hacquire => exact ⟨hopen, h.2⟩
  | acquireNeedWait _ _ _ hopen hacquire => exact ⟨hopen, h.2⟩
  | lockOverflow => cases h.2
  | shutdown => cases h.1
  | _ => exact h

/-- A step of a serving pool is a step of the monitor, or the monitor does not see it. -/
lemma monitor_step {s s' : PoolState T I} {l : PoolLabel T I} (hacc : Accounted cfg s)
    (hheld : ∀ t, Held cfg s t) (hserving : Serving s') (hs : PoolStep cfg s l s') :
    s'.monitor cfg = s.monitor cfg ∨ ∃ e, Monitor.Step (s.monitor cfg) e (s'.monitor cfg) := by
  have hbound : s.inner.active ≤ cfg.maxSize := le_trans (Nat.le_add_right _ _) hacc.bounded
  obtain ⟨hopen, hsound⟩ := serving_back hs hserving
  have counted {t : T} {p : PoolPc I} (hpc : s.pc t = p) (hp : p.slot = 1) :
      0 < s.inner.active := by
    have hle := hacc.slot_le t
    rw [hpc, hp] at hle
    exact hle
  cases hs with
  | acquireIsle _ _ hpc _ hacquire =>
    obtain ⟨hidle, hact, -, -⟩ := tryAcquire_isle hacquire
    have hlen := congrArg List.length hidle
    have hroom := hacc.bounded
    simp only [List.length_append, List.length_cons] at hlen
    exact Or.inr (monitor_acquire hpc rfl rfl (by omega) hact rfl)
  | acquireGrow _ _ hpc _ hacquire =>
    obtain ⟨-, -, hroom, hact, -⟩ := tryAcquire_grow hacquire
    exact Or.inr (monitor_acquire hpc rfl rfl hroom hact rfl)
  | acquireNeedWait _ _ hpc _ hacquire =>
    obtain ⟨-, -, hfull, hact, -⟩ := tryAcquire_needWait hacquire
    exact monitor_giveUp hpc rfl rfl hfull hact rfl
  | @sleep t w hpc => exact Or.inr (monitor_sleep hpc ((hheld t).at_pc hpc rfl).2.2 rfl rfl)
  | spurious hpc | elapsed hpc => exact Or.inr (monitor_wake hpc rfl rfl)
  | decActive _ hpc hnotify =>
    exact Or.inr (monitor_release hpc rfl rfl (counted hpc rfl) hbound rfl hnotify)
  | returnIdle _ hpc _ _ hnotify | returnDead _ hpc _ _ hnotify =>
    exact Or.inr (monitor_release hpc rfl rfl (counted hpc rfl) hbound rfl hnotify)
  | returnClosed _ _ hclosed =>
    rw [hopen] at hclosed
    cases hclosed
  | @returnEnd t i _ hpc | @shutdownEnd t hpc =>
    have hclosed : s.inner.closed = true := ((hheld t).at_pc hpc rfl).2
    rw [hopen] at hclosed
    cases hclosed
  | shutdown => cases hserving.1
  | lockOverflow => cases hserving.2
  | lockPoisoned _ hpoison =>
    rw [hsound] at hpoison
    cases hpoison
  | lockClosed _ _ _ hclosed =>
    rw [hopen] at hclosed
    cases hclosed
  | callCheckout _ hpc | callRead _ hpc | callShutdown hpc | refuse hpc | factoryOk hpc
  | factoryErr hpc | factoryPanic hpc | dropGuard hpc | read _ hpc | drain hpc | drainEnd hpc =>
    exact Or.inl (monitor_move hpc rfl rfl rfl rfl)
  | _ => exact Or.inl rfl

theorem monitor_simulation : TransitionSystem.Simulation (pool (T := T) (I := I) cfg)
    (Monitor.system cfg.maxSize) (PoolState.monitor cfg)
    (fun s => Accounted cfg s ∧ ∀ t, Held cfg s t) Serving where
  init := by
    have hasleep : tally PoolPc.asleep (PoolState.init T I).pc = 0 := tally_eq_zero.mpr (fun _ => rfl)
    have hawake : tally PoolPc.awake (PoolState.init T I).pc = 0 := tally_eq_zero.mpr (fun _ => rfl)
    simp only [PoolState.monitor, pool, Monitor.system, hasleep, hawake]
    rfl
  back _ _ _ hs h := serving_back hs h
  step _ _ _ hi h hs := monitor_step hi.1 hi.2 h hs

/-! ## The closed pool -/

/-- Once the pool is closed, a shutdown is still at work or nobody is blocked. -/
def Roused (s : PoolState T I) : Prop :=
  s.inner.closed = true →
    (∃ t, (s.pc t).isDraining = true) ∨ ∀ t w, s.pc t ≠ .blocked w

lemma blocked_step {s s' : PoolState T I} {l : PoolLabel T I} {t : T} {w : Patience}
    (hheld : Held cfg s t) (hclosed : s.inner.closed = true) (hs : PoolStep cfg s l s')
    (ht : s'.pc t = .blocked w) : ∃ w, s.pc t = .blocked w := by
  by_cases hl : l.thread? = some t
  swap
  · rcases pc_step hs hl with heq | ⟨w', -, heq⟩
    · exact ⟨w, heq ▸ ht⟩
    · rw [heq] at ht
      cases ht
  cases hs with
  | sleep hpc =>
    cases hl
    have hopen : s.inner.closed = false := (hheld.at_pc hpc rfl).2.1
    rw [hopen] at hclosed
    cases hclosed
  | decActive _ _ hnotify | returnIdle _ _ _ _ hnotify | returnDead _ _ _ _ hnotify
  | returnEnd _ _ hnotify =>
    cases hl
    dsimp only at ht
    rw [hnotify.at_rest] at ht
    cases ht
  | tick | isleExit | isleFinish | guardShutdown | jobStart | jobEnd => cases hl
  | _ =>
    cases hl
    simp [PoolState.leave, notifyAll] at ht

lemma draining_step {s s' : PoolState T I} {l : PoolLabel T I} {t : T}
    (ht : (s.pc t).isDraining = true) (hs : PoolStep cfg s l s') :
    (s'.pc t).isDraining = true ∨ ∀ t w, s'.pc t ≠ .blocked w := by
  by_cases hl : l.thread? = some t
  swap
  · rcases pc_step hs hl with heq | ⟨w', heq, -⟩
    · exact Or.inl (heq ▸ ht)
    · rw [heq] at ht
      cases ht
  have elsewhere {p : PoolPc I} (hpc : s.pc t = p) (hp : p.isDraining = false) : False := by
    rw [hpc, hp] at ht
    cases ht
  cases hs with
  | drain | drainEnd =>
    cases hl
    exact Or.inl (by simp [PoolPc.isDraining])
  | @shutdownEnd u =>
    exact Or.inr (notifyAll_ne_blocked _)
  | lockPoisoned _ _ hpc =>
    cases hl
    rcases PoolPc.entering_cases hpc with ⟨call, h⟩ | ⟨w, h⟩ <;> exact (elsewhere h rfl).elim
  | lockOverflow _ _ hpc | lockClosed _ _ hpc | acquireIsle _ _ hpc | acquireGrow _ _ hpc
  | acquireNeedWait _ _ hpc =>
    cases hl
    rcases PoolPc.entering_cases (by rw [hpc]; exact Option.some_ne_none _) with ⟨call, h⟩ | ⟨w, h⟩ <;>
      exact (elsewhere h rfl).elim
  | tick | isleExit | isleFinish | guardShutdown | jobStart | jobEnd => cases hl
  | callCheckout _ hpc | callRead _ hpc | callShutdown hpc | sleep hpc | refuse hpc | spurious hpc
  | elapsed hpc | factoryOk hpc | factoryErr hpc | factoryPanic hpc | dropGuard hpc
  | returnEnd hpc =>
    cases hl
    exact (elsewhere hpc rfl).elim
  | decActive _ hpc | returnIdle _ hpc | returnDead _ hpc | returnClosed _ hpc | read _ hpc
  | shutdown _ hpc =>
    cases hl
    exact (elsewhere hpc rfl).elim

lemma roused_step {s s' : PoolState T I} {l : PoolLabel T I} (hheld : ∀ t, Held cfg s t)
    (hi : Roused s) (hs : PoolStep cfg s l s') : Roused s' := by
  intro hclosed'
  rcases closed_step hs hclosed' with hclosed | hdraining
  swap
  · exact Or.inl hdraining
  rcases hi hclosed with ⟨t, ht⟩ | hnone
  · exact (draining_step ht hs).imp_left (fun h => ⟨t, h⟩)
  · refine Or.inr (fun t w ht => ?_)
    obtain ⟨w', hw'⟩ := blocked_step (hheld t) hclosed hs ht
    exact hnone t w' hw'

theorem roused_reachable {s : PoolState T I} (h : (pool cfg).Reachable s) : Roused s := by
  refine TransitionSystem.ReachableVia.invariant_of (J := fun s => ∀ t, Held cfg s t)
    (I := Roused) (fun s hs => held_reachable hs) (fun h => by cases h) ?_ h
  exact fun s l s' hJ hi _ hs => roused_step hJ hi hs

/-- While a serving pool has a blocked thread, no more slots are free than woken threads are on
their way. Once a shutdown has let go of the lock, nobody is ever blocked again. -/
theorem no_lost_wakeup {s : PoolState T I} (hs : (pool cfg).Reachable s) :
    (Serving s → ∀ t w, s.pc t = .blocked w →
      cfg.maxSize - s.inner.active ≤ tally PoolPc.awake s.pc ∧
      (s.inner.active < cfg.maxSize → ∃ t' w', s.pc t' = .woken w')) ∧
    (s.inner.closed = true → s.lock = none → ∀ s', (pool cfg).Run s s' →
      ∀ t w, s'.pc t ≠ .blocked w) := by
  refine ⟨fun hserving t w ht => ?_, fun hclosed hlock s' hrun => ?_⟩
  · have hserved := Monitor.served_reachable (monitor_simulation.reachable
      (fun s h => ⟨accounted_reachable h, held_reachable h⟩) hs hserving)
    have hle := le_tally PoolPc.asleep s.pc t
    rw [ht] at hle
    have hfree : cfg.maxSize - s.inner.active ≤ tally PoolPc.awake s.pc := hserved hle
    refine ⟨hfree, fun hroom => ?_⟩
    have hawake : 0 < tally PoolPc.awake s.pc := by omega
    obtain ⟨t', ht'⟩ := exists_of_tally_pos hawake
    cases hpc : s.pc t' with
    | woken w' => exact ⟨t', w', hpc⟩
    | _ =>
      rw [hpc] at ht'
      cases ht'
  · have hnone : ∀ t w, s.pc t ≠ .blocked w := by
      rcases roused_reachable hs hclosed with ⟨t, ht⟩ | hnone
      · have hholds : (s.pc t).holdsLock = true := by
          cases hpc : s.pc t <;> rw [hpc] at ht <;> first | rfl | cases ht
        rw [(held_reachable hs t).owner hholds] at hlock
        cases hlock
      · exact hnone
    have hend : s'.inner.closed = true ∧ ∀ t w, s'.pc t ≠ .blocked w := by
      refine TransitionSystem.RunVia.invariant_of (J := fun s => ∀ t, Held cfg s t)
        (I := fun s => s.inner.closed = true ∧ ∀ t w, s.pc t ≠ .blocked w)
        (fun s h => held_reachable h) ?_ hs hrun ⟨hclosed, hnone⟩
      rintro s l s' hheld ⟨hcl, hno⟩ - hst
      refine ⟨closed_of_step hst hcl, fun t w ht => ?_⟩
      obtain ⟨w', hw'⟩ := blocked_step (hheld t) hcl hst ht
      exact hno t w' hw'
    exact hend.2

/-- A pool of at most one isle. -/
def oneIsle : PoolConfig := ⟨1, 100⟩

/-- One thread has the isle and two wait for it. Its return wakes one of them. -/
theorem no_lost_wakeup_one : ∃ s : PoolState (Fin 3) Unit, (pool oneIsle).Reachable s ∧
    s.pc 2 = .blocked .forever ∧ s.inner.active = 0 ∧ 1 ≤ tally PoolPc.awake s.pc := by
  have h0 := TransitionSystem.Reachable.refl (T := pool (T := Fin 3) (I := Unit) oneIsle)
  have h1 := h0.tail (.callCheckout (t := 0) .tryCheckout rfl)
  have h2 := h1.tail (.acquireGrow (t := 0) rfl rfl rfl rfl rfl)
  have h3 := h2.tail (.factoryOk (t := 0) (i := ()) rfl rfl)
  have h4 := h3.tail (.callCheckout (t := 1) .checkout rfl)
  have h5 := h4.tail (.acquireNeedWait (t := 1) rfl rfl rfl rfl rfl)
  have h6 := h5.tail (.sleep (t := 1) rfl rfl)
  have h7 := h6.tail (.callCheckout (t := 2) .checkout rfl)
  have h8 := h7.tail (.acquireNeedWait (t := 2) rfl rfl rfl rfl rfl)
  have h9 := h8.tail (.sleep (t := 2) rfl rfl)
  have h10 := h9.tail (.dropGuard (t := 0) (i := ()) rfl (by decide) (by decide))
  have h11 := h10.tail (.returnIdle (t := 0) rfl rfl rfl rfl (.wake (t := 1) rfl))
  exact ⟨_, h11, rfl, rfl, ((no_lost_wakeup h11).1 ⟨rfl, rfl⟩ 2 .forever rfl).1⟩

end RusqliteIsle
