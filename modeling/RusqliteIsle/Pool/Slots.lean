import RusqliteIsle.Lib.Tally
import RusqliteIsle.Pool.System

/-!
# The slots of the pool

The counter `active` stands for the guards, the guards on their way back, and the factory calls.
A slot is reserved before the factory runs and given back on three paths. The account holds in
every state, so the subtractions that saturate never do. A factory that unwinds leaks its slot;
`leaked` counts these.
-/

namespace RusqliteIsle

set_option linter.unusedSectionVars false

namespace PoolPc

variable {I : Type}

/-- A factory call in progress, or failed and not yet passed to `dec_active`. -/
def factoryCall : PoolPc I → ℕ
  | factory => 1
  | failed _ => 1
  | _ => 0

/-- A guard that is being dropped and has not been returned. -/
def dropping : PoolPc I → ℕ
  | returning _ => 1
  | _ => 0

/-- The slots that a thread holds without a guard. -/
def slot (p : PoolPc I) : ℕ := p.dropping + p.factoryCall

lemma slot_of_entering {p : PoolPc I} {horizon now : ℕ} (h : p.entering horizon now ≠ none) :
    p.slot = 0 := by
  rcases entering_cases h with ⟨call, rfl⟩ | ⟨w, rfl⟩ <;> rfl

end PoolPc

variable {T I : Type} [DecidableEq T] [DecidableEq I] [Fintype T] {cfg : PoolConfig}

lemma NotifyOne.tally_eq {pc pc' : T → PoolPc I} {w : PoolPc I → ℕ} (h : NotifyOne pc pc')
    (hw : ∀ p, w (.woken p) = w (.blocked p)) : tally w pc' = tally w pc := by
  cases h with
  | wake hblocked => exact tally_update_of_eq (by rw [hblocked, hw])
  | none => rfl

lemma tally_notifyAll {pc : T → PoolPc I} {w : PoolPc I → ℕ}
    (hw : ∀ p, w (.woken p) = w (.blocked p)) : tally w (notifyAll pc) = tally w pc := by
  refine tally_congr (fun t => ?_)
  cases hpc : pc t <;> simp [notifyAll, hpc, hw]

structure Accounted (cfg : PoolConfig) (s : PoolState T I) : Prop where
  active : s.inner.active = s.guards.card + tally PoolPc.slot s.pc + s.leaked
  bounded : s.inner.active + s.inner.idle.length ≤ cfg.maxSize

namespace Accounted

variable {s s' : PoolState T I}

lemma keep (hi : Accounted cfg s) (hactive : s'.inner.active = s.inner.active)
    (hidle : s'.inner.idle.length ≤ s.inner.idle.length) (hguards : s'.guards = s.guards)
    (hpc : tally PoolPc.slot s'.pc = tally PoolPc.slot s.pc) (hleaked : s'.leaked = s.leaked) :
    Accounted cfg s' := by
  have hbound := hi.bounded
  refine ⟨?_, by omega⟩
  rw [hactive, hguards, hpc, hleaked]
  exact hi.active

lemma slot_le (hi : Accounted cfg s) (t : T) : (s.pc t).slot ≤ s.inner.active := by
  have hle := le_tally PoolPc.slot s.pc t
  have hactive := hi.active
  omega

lemma giveBack (hi : Accounted cfg s) {t : T} {q : PoolPc I} (hslot : (s.pc t).slot = 1)
    (hq : q.slot = 0) (hactive : s'.inner.active = s.inner.active - 1)
    (hidle : s'.inner.idle.length ≤ s.inner.idle.length + 1) (hguards : s'.guards = s.guards)
    (hpc : tally PoolPc.slot s'.pc = tally PoolPc.slot (Function.update s.pc t q))
    (hleaked : s'.leaked = s.leaked) : Accounted cfg s' := by
  have hcount := hi.active
  have hbound := hi.bounded
  have hpos := hi.slot_le t
  have hmove : tally PoolPc.slot (Function.update s.pc t q) + (s.pc t).slot =
      tally PoolPc.slot s.pc + q.slot := tally_update q
  refine ⟨?_, by omega⟩
  rw [hactive, hguards, hpc, hleaked]
  omega

end Accounted

lemma accounted_lock {s s' : PoolState T I} {t : T} (hi : Accounted cfg s)
    (hs : PoolStep cfg s (.lock t) s') : Accounted cfg s' := by
  have hactive := hi.active
  have hbounded := hi.bounded
  have enter {o : Option Patience} (q : PoolPc I)
      (hpc : (s.pc t).entering cfg.horizon s.now = some o) :
      tally PoolPc.slot (Function.update s.pc t q) = tally PoolPc.slot s.pc + q.slot := by
    have hzero := PoolPc.slot_of_entering (p := s.pc t) (by rw [hpc]; exact Option.some_ne_none o)
    have hmove : tally PoolPc.slot (Function.update s.pc t q) + (s.pc t).slot =
        tally PoolPc.slot s.pc + q.slot := tally_update q
    omega
  cases hs with
  | acquireIsle hlock hpoison hpc hopen hacquire =>
    obtain ⟨hidle, hact, -, -⟩ := tryAcquire_isle hacquire
    have hlen := congrArg List.length hidle
    have hmove := enter .rest hpc
    simp only [List.length_append, List.length_cons] at hlen
    refine ⟨?_, ?_⟩
    · simp only [PoolState.leave, Multiset.card_cons, hmove, hact, PoolPc.slot, PoolPc.dropping,
        PoolPc.factoryCall]
      omega
    · dsimp only
      omega
  | acquireGrow hlock hpoison hpc hopen hacquire =>
    obtain ⟨-, hidle, hroom, hact, -⟩ := tryAcquire_grow hacquire
    have hmove := enter .factory hpc
    refine ⟨?_, ?_⟩
    · simp only [hmove, hact, PoolPc.slot, PoolPc.dropping, PoolPc.factoryCall]
      omega
    · simp only [hidle, hact, List.length_nil]
      omega
  | acquireNeedWait hlock hpoison hpc hopen hacquire =>
    obtain ⟨-, hidle, -, hact, -⟩ := tryAcquire_needWait hacquire
    exact hi.keep hact (by simp [hidle]) rfl (enter _ hpc) rfl
  | lockOverflow hlock hpoison hpc => exact hi.keep rfl le_rfl rfl (enter _ hpc) rfl
  | lockClosed hlock hpoison hpc => exact hi.keep rfl le_rfl rfl (enter _ hpc) rfl
  | lockPoisoned hlock hpoison hpc =>
    obtain ⟨o, ho⟩ := Option.ne_none_iff_exists'.mp hpc
    exact hi.keep rfl le_rfl rfl (enter _ ho) rfl

lemma accounted_step {s s' : PoolState T I} {l : PoolLabel T I} (hi : Accounted cfg s)
    (hs : PoolStep cfg s l s') : Accounted cfg s' := by
  have hstep := hs
  have hactive := hi.active
  have hbounded := hi.bounded
  have move {t : T} {p q : PoolPc I} (hpc : s.pc t = p) :
      tally PoolPc.slot (Function.update s.pc t q) + p.slot = tally PoolPc.slot s.pc + q.slot :=
    hpc ▸ tally_update q
  cases hs with
  | lockPoisoned | lockOverflow | lockClosed | acquireIsle | acquireGrow | acquireNeedWait =>
    exact accounted_lock hi hstep
  | factoryOk hpc hfresh =>
    have hmove := move (q := .rest) hpc
    refine ⟨?_, hbounded⟩
    simp only [PoolPc.slot, PoolPc.dropping, PoolPc.factoryCall] at hmove
    simp only [PoolState.leave, Multiset.card_cons]
    omega
  | factoryPanic hpc =>
    have hmove := move (q := .rest) hpc
    refine ⟨?_, hbounded⟩
    simp only [PoolPc.slot, PoolPc.dropping, PoolPc.factoryCall] at hmove
    simp only [PoolState.leave]
    omega
  | @dropGuard _ i hpc hguard =>
    have hmove := move (q := .returning i) hpc
    have hcard := Multiset.card_erase_of_mem hguard
    have hpos := Multiset.card_pos_iff_exists_mem.mpr ⟨i, hguard⟩
    refine ⟨?_, hbounded⟩
    simp only [PoolPc.slot, PoolPc.dropping, PoolPc.factoryCall] at hmove
    rw [Nat.pred_eq_sub_one] at hcard
    dsimp only
    omega
  | decActive hlock hpc hnotify =>
    exact hi.giveBack (by rw [hpc]; rfl) rfl rfl (Nat.le_succ _) rfl
      (hnotify.tally_eq (fun _ => rfl)) rfl
  | returnIdle hlock hpc hopen halive hnotify =>
    exact hi.giveBack (by rw [hpc]; rfl) rfl rfl le_rfl rfl (hnotify.tally_eq (fun _ => rfl)) rfl
  | returnDead hlock hpc hopen hdead hnotify =>
    exact hi.giveBack (by rw [hpc]; rfl) rfl rfl (Nat.le_succ _) rfl
      (hnotify.tally_eq (fun _ => rfl)) rfl
  | @returnClosed _ i hlock hpc hclosed =>
    exact hi.giveBack (q := .returnShutdown i) (by rw [hpc]; rfl) rfl rfl (Nat.le_succ _) rfl rfl rfl
  | returnEnd hpc hreturns hnotify =>
    refine hi.keep rfl le_rfl rfl ((hnotify.tally_eq (fun _ => rfl)).trans ?_) rfl
    exact tally_update_of_eq (by rw [hpc]; rfl)
  | shutdown hlock hpc =>
    exact hi.keep rfl (Nat.zero_le _) rfl (tally_update_of_eq (by rw [hpc]; rfl)) rfl
  | shutdownEnd hpc =>
    refine hi.keep rfl le_rfl rfl ((tally_notifyAll (fun _ => rfl)).trans ?_) rfl
    exact tally_update_of_eq (by rw [hpc]; rfl)
  | callCheckout _ hpc | callRead _ hpc | callShutdown hpc | sleep hpc | refuse hpc | spurious hpc
  | elapsed hpc | factoryErr hpc | read _ hpc | drain hpc | drainEnd hpc =>
    exact hi.keep rfl le_rfl rfl (tally_update_of_eq (by rw [hpc]; rfl)) rfl
  | _ => exact hi.keep rfl le_rfl rfl rfl rfl

theorem accounted_reachable {s : PoolState T I} (h : (pool cfg).Reachable s) :
    Accounted cfg s := by
  refine TransitionSystem.Reachable.invariant (I := Accounted cfg) ?_ ?_ h
  · have hzero : tally PoolPc.slot (PoolState.init T I).pc = 0 := tally_eq_zero.mpr (fun _ => rfl)
    exact ⟨by simpa [pool, PoolState.init] using hzero.symm, Nat.zero_le _⟩
  · exact fun s l s' hi hs => accounted_step hi hs

/-- The factory returns, with an isle or an error. -/
def FactoryReturns (_ : PoolState T I) : PoolLabel T I → Prop
  | .factoryPanic _ => False
  | _ => True

lemma leaked_eq_zero {s : PoolState T I} (h : (pool cfg).ReachableVia FactoryReturns s) :
    s.leaked = 0 := by
  refine TransitionSystem.ReachableVia.invariant (I := fun s => s.leaked = 0) rfl ?_ h
  intro s l s' hi hP hs
  cases hs with
  | factoryPanic => exact hP.elim
  | _ => exact hi

/-- In every state, `active` is the number of guards, of guards on their way back and of factory
calls; with the idle isles it does not exceed `maxSize`; and whoever is about to give a slot back
finds it counted. -/
theorem slots_accounted {s : PoolState T I} (h : (pool cfg).ReachableVia FactoryReturns s) :
    s.inner.active = s.guards.card + tally PoolPc.dropping s.pc + tally PoolPc.factoryCall s.pc ∧
      s.inner.active + s.inner.idle.length ≤ cfg.maxSize ∧
      (∀ t, (∃ i, s.pc t = .returning i) ∨ (∃ e, s.pc t = .failed e) → 0 < s.inner.active) ∧
      s.guards.card + tally PoolPc.dropping s.pc + s.inner.idle.length ≤ cfg.maxSize := by
  have hacc := accounted_reachable h.reachable
  have hslots : tally PoolPc.slot s.pc = tally PoolPc.dropping s.pc + tally PoolPc.factoryCall s.pc :=
    tally_add
  have hactive := hacc.active
  have hbounded := hacc.bounded
  rw [leaked_eq_zero h, hslots] at hactive
  refine ⟨by omega, hbounded, fun t ht => ?_, by omega⟩
  have hslot : (s.pc t).slot = 1 := by
    rcases ht with ⟨i, hpc⟩ | ⟨e, hpc⟩ <;> rw [hpc] <;> rfl
  have hle := hacc.slot_le t
  omega

/-- A pool of at most two isles. -/
def twoIsles : PoolConfig := ⟨2, 100⟩

/-- One isle is checked out while the factory runs for a second one. -/
theorem slots_accounted_growing : ∃ s : PoolState Bool Bool,
    (pool twoIsles).ReachableVia FactoryReturns s ∧ s.inner.active = 2 ∧ s.guards = {true} ∧
      s.pc false = .factory ∧ s.inner.active + s.inner.idle.length ≤ 2 := by
  have h0 : (pool (T := Bool) (I := Bool) twoIsles).ReachableVia FactoryReturns _ :=
    TransitionSystem.RunVia.refl _
  have h1 := h0.tail (.callCheckout (t := true) .checkout rfl) trivial
  have h2 := h1.tail (.acquireGrow (t := true) rfl rfl rfl rfl rfl) trivial
  have h3 := h2.tail (.factoryOk (t := true) (i := true) rfl rfl) trivial
  have h4 := h3.tail (.callCheckout (t := false) .tryCheckout rfl) trivial
  have h5 := h4.tail (.acquireGrow (t := false) rfl rfl rfl rfl rfl) trivial
  exact ⟨_, h5, rfl, rfl, rfl, (slots_accounted h5).2.1⟩

end RusqliteIsle
