import RusqliteIsle.Pool.Checkout
import RusqliteIsle.Pool.Slots

/-!
# Checkouts of a closed pool

The flag `closed` is read at the top of every round of a checkout, and a thread that was asleep
reads it again. A thread whose factory call runs outside the lock does not: what the factory
returns after the shutdown is handed out.
-/

namespace RusqliteIsle

set_option linter.unusedSectionVars false

variable {T I : Type} [DecidableEq T] [DecidableEq I] {cfg : PoolConfig}

/-- The step of a closed pool hands out nothing: a checkout that returns reports `Closed` or the
error of its own factory, and an isle that its factory creates is shut down. A checkout that unwinds
reports nothing and is not meant. -/
def Declines (s : PoolState T I) (l : PoolLabel T I) (s' : PoolState T I) : Prop :=
  (∀ t o, Departs s s' t o → o ≠ .unwound →
    o = .error .closed ∨ ∃ e, s.pc t = .failed e ∧ o = .error e) ∧
  ∀ t i, l = .factoryOk t i → (s'.record i).calls = 1

/-- Once a shutdown has returned, and as long as the steps meet `P`, every checkout is declined. -/
def HandsOutNothing (cfg : PoolConfig) (P : PoolState T I → PoolLabel T I → Prop) : Prop :=
  ∀ s u s₁, (pool cfg).Reachable s → PoolStep cfg s (.shutdownEnd u) s₁ →
    ∀ s₂ l s₃, (pool cfg).RunVia P s₁ s₂ → P s₂ l → PoolStep cfg s₂ l s₃ → Declines s₂ l s₃

/-- No factory call comes back with an isle, and no checkout finds the lock poisoned. -/
def NoLateIsle (s : PoolState T I) : PoolLabel T I → Prop
  | .factoryOk _ _ => False
  | .lock _ => s.poisoned = false
  | _ => True

lemma closed_of_shutdownEnd {s s' : PoolState T I} {u : T} (h : (pool cfg).Reachable s)
    (hs : PoolStep cfg s (.shutdownEnd u) s') : s'.inner.closed = true := by
  cases hs with
  | shutdownEnd hpc => exact ((held_reachable h u).at_pc hpc rfl).2

lemma closed_run {P : PoolState T I → PoolLabel T I → Prop} {s s' : PoolState T I}
    (hrun : (pool cfg).RunVia P s s') (h : s.inner.closed = true) : s'.inner.closed = true :=
  TransitionSystem.RunVia.invariant (I := fun s => s.inner.closed = true)
    (fun _ _ _ hcl _ hst => closed_of_step hst hcl) hrun h

lemma outcome_of_closed {s s' : PoolState T I} {l : PoolLabel T I} {t : T} {o : Outcome I}
    (hheld : Held cfg s t) (hclosed : s.inner.closed = true) (hs : PoolStep cfg s l s')
    (hd : Departs s s' t o) :
    o = .unwound ∨ o = .error .closed ∨ (∃ e, s.pc t = .failed e ∧ o = .error e) ∨
      (l = .lock t ∧ s.poisoned = true) ∨ ∃ i, l = .factoryOk t i := by
  cases departure_of_step hs hd with
  | poisoned hpoison => exact Or.inr (Or.inr (Or.inr (Or.inl ⟨rfl, hpoison⟩)))
  | overflow => exact Or.inl rfl
  | closed => exact Or.inr (Or.inl rfl)
  | reused hopen =>
    rw [hclosed] at hopen
    cases hopen
  | refused hpc =>
    -- the pool was open when the thread took the lock, and the thread still holds it
    obtain ⟨hopen, -⟩ := (hheld.at_pc hpc rfl).2
    rw [hclosed] at hopen
    cases hopen
  | @created i => exact Or.inr (Or.inr (Or.inr (Or.inr ⟨i, rfl⟩)))
  | unwound => exact Or.inl rfl
  | failed hpc => exact Or.inr (Or.inr (Or.inl ⟨_, hpc, rfl⟩))

lemma declines_of_noLateIsle {s s' : PoolState T I} {l : PoolLabel T I}
    (h : (pool cfg).Reachable s) (hclosed : s.inner.closed = true) (hs : PoolStep cfg s l s')
    (hP : NoLateIsle s l) : Declines s l s' := by
  refine ⟨fun t o hd hreturns => ?_, ?_⟩
  · rcases outcome_of_closed (held_reachable h t) hclosed hs hd with
      h | h | h | ⟨rfl, hpoison⟩ | ⟨i, rfl⟩
    · exact absurd h hreturns
    · exact Or.inl h
    · exact Or.inr h
    · rw [show s.poisoned = false from hP] at hpoison
      cases hpoison
    · exact hP.elim
  · rintro t i rfl
    exact hP.elim

lemma not_declines_of_late {s s' : PoolState T I} {l : PoolLabel T I} (hs : PoolStep cfg s l s')
    (hP : ¬ NoLateIsle s l) : ¬ Declines s l s' := by
  rintro ⟨hdeclined, -⟩
  cases hs with
  | @factoryOk t i hpc =>
    have hinside : (s.pc t).inCheckout = true := by rw [hpc]; rfl
    rcases hdeclined t (.isle i) ⟨hinside, Function.update_self .., Function.update_self ..⟩
      (by simp) with h | ⟨e, -, h⟩ <;> cases h
  | @lockPoisoned t _ _ hpc =>
    have hinside : (s.pc t).inCheckout = true := by
      rcases PoolPc.entering_cases hpc with ⟨call, h⟩ | ⟨w, h⟩ <;> rw [h] <;> rfl
    rcases hdeclined t (.error (.panicked poisonMessage))
      ⟨hinside, Function.update_self .., Function.update_self ..⟩ (by simp) with h | ⟨e, h, -⟩
    · cases h
    · rw [h] at hpc
      exact hpc rfl
  | lockOverflow _ hpoison | lockClosed _ hpoison | acquireIsle _ hpoison | acquireGrow _ hpoison
  | acquireNeedWait _ hpoison => exact hP hpoison
  | _ => exact hP trivial

/-- A closed pool hands out nothing, unless a factory call that was in progress at the shutdown
comes back with an isle; and that is when it hands out something. -/
theorem closed_pool_hands_out_nothing : HandsOutNothing (T := T) (I := I) cfg NoLateIsle ∧
    ∀ (s : PoolState T I) l s', (pool cfg).Reachable s → s.inner.closed = true →
      PoolStep cfg s l s' → (Declines s l s' ↔ NoLateIsle s l) := by
  refine ⟨fun s u s₁ hs hend s₂ l s₃ hrun hP hst => ?_, fun s l s' h hclosed hst => ?_⟩
  · have hclosed := closed_run hrun (closed_of_shutdownEnd hs hend)
    exact declines_of_noLateIsle ((hs.tail hend).run hrun.run) hclosed hst hP
  · refine ⟨fun hdeclines => ?_, declines_of_noLateIsle h hclosed hst⟩
    by_contra hP
    exact not_declines_of_late hst hP hdeclines

/-- The factory call of one thread fails after the shutdown, and the checkout reports its error. -/
theorem closed_pool_hands_out_nothing_failed : ∃ s₂ s₃ : PoolState Bool Bool,
    Departs s₂ s₃ true (.error .timeout) ∧ s₂.inner.closed = true ∧
      ∃ e, s₂.pc true = .failed e ∧ Outcome.error (I := Bool) .timeout = .error e := by
  have h0 := TransitionSystem.Reachable.refl (T := pool (T := Bool) (I := Bool) twoIsles)
  have h1 := h0.tail (.callCheckout (t := true) .checkout rfl)
  have h2 := h1.tail (.acquireGrow (t := true) rfl rfl rfl rfl rfl)
  have h3 := h2.tail (.callShutdown (t := false) rfl)
  have h4 := h3.tail (.shutdown (t := false) rfl rfl)
  have h5 := h4.tail (.shutdownEnd (t := false) rfl)
  have r0 := h5.here_via NoLateIsle
  have r1 := r0.tail (.factoryErr (t := true) (e := .timeout) rfl) trivial
  have hnothing := closed_pool_hands_out_nothing.1 _ _ _ h4 (.shutdownEnd (t := false) rfl) _
    (.decActive true) _ r1 trivial (.decActive (t := true) (e := .timeout) rfl rfl
      (.none (fun t w h => by cases t <;> cases h)))
  refine ⟨_, _, ?back, rfl, (hnothing.1 true _ ?back (by simp)).resolve_left (by simp)⟩
  exact ⟨rfl, rfl, rfl⟩

/-- The factory call returns an isle after the shutdown, and the checkout hands it out. -/
theorem closed_pool_hands_out_late :
    ¬ HandsOutNothing (T := Bool) (I := Bool) twoIsles (fun _ _ => True) := by
  intro h
  have h0 := TransitionSystem.Reachable.refl (T := pool (T := Bool) (I := Bool) twoIsles)
  have h1 := h0.tail (.callCheckout (t := true) .checkout rfl)
  have h2 := h1.tail (.acquireGrow (t := true) rfl rfl rfl rfl rfl)
  have h3 := h2.tail (.callShutdown (t := false) rfl)
  have h4 := h3.tail (.shutdown (t := false) rfl rfl)
  have hlate := h _ _ _ h4 (.shutdownEnd (t := false) rfl) _ _ _ (TransitionSystem.RunVia.refl _)
    trivial (.factoryOk (t := true) (i := true) rfl rfl)
  rcases hlate.1 true (.isle true) ⟨rfl, rfl, rfl⟩ (by simp) with h | ⟨e, h, -⟩ <;> cases h

end RusqliteIsle
