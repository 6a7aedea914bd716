import RusqliteIsle.Isle.Exit
import RusqliteIsle.Pool.Checkout
import RusqliteIsle.Pool.Slots

/-!
# Isles that have stopped serving

The pool takes an isle to be alive as long as its thread has not finished. The loop returns
before that: the thread still has to close the connection. An isle that is returned, or checked
out again, in this gap is handed out although it serves no more.
-/

namespace RusqliteIsle

set_option linter.unusedSectionVars false

/-- The loop has returned, and the isle still counts as alive. -/
def IsleView.inGap (v : IsleView) : Bool := v.exited && v.isAlive

section

variable {I : Type} {alive : I → Bool} {l m : List I} {dead rest : List I} {i k : I}

lemma first_alive (h : dead ++ i :: rest = l ++ k :: m) (hdead : ∀ x ∈ dead, alive x = false)
    (hi : alive i = true) (hl : ∀ x ∈ l, alive x = false) (hk : alive k = true) : i = k := by
  induction dead generalizing l with
  | nil =>
    cases l with
    | nil => exact (List.cons.inj h).1
    | cons x l =>
      have hx := hl x (List.mem_cons_self ..)
      rw [← (List.cons.inj h).1, hi] at hx
      cases hx
  | cons x dead ih =>
    have hx := hdead x (List.mem_cons_self ..)
    cases l with
    | nil =>
      rw [(List.cons.inj h).1, hk] at hx
      cases hx
    | cons y l =>
      exact ih (List.cons.inj h).2 (fun z hz => hdead z (List.mem_cons_of_mem _ hz))
        (fun z hz => hl z (List.mem_cons_of_mem _ hz))

end

variable {T I : Type} [DecidableEq T] [DecidableEq I] {cfg : PoolConfig}

/-- A checkout that takes an isle from the idle list takes one whose loop has not returned. -/
def HandsOutServing (cfg : PoolConfig) (P : PoolState T I → PoolLabel T I → Prop) : Prop :=
  ∀ s t i s', (pool cfg).ReachableVia P s → P s (.lock t) → PoolStep cfg s (.lock t) s' →
    Departs s s' t (.isle i) → (s.isles i).exited = false

/-- When a checkout takes the lock, the isle returned last among those alive is not in the gap. -/
def NotInGap (s : PoolState T I) : PoolLabel T I → Prop
  | .lock _ => ∀ dead i rest, s.inner.idle = dead ++ i :: rest →
      (∀ k ∈ dead, s.alive k = false) → (s.isles i).inGap = false
  | _ => True

lemma taken_of_lock {s s' : PoolState T I} {t : T} {i : I} (hs : PoolStep cfg s (.lock t) s')
    (hd : Departs s s' t (.isle i)) :
    ∃ rest, s.inner.idle = skippedIsles s.alive s.inner.idle ++ i :: rest ∧ s.alive i = true := by
  have hout := hd.outcome
  have hback := hd.back
  cases hs with
  | acquireIsle _ _ _ _ hacquire =>
    obtain ⟨hidle, -, -, halive⟩ := tryAcquire_isle hacquire
    have heq := Option.some.inj ((Function.update_self t _ s.outcome).symm.trans hout)
    cases heq
    exact ⟨_, hidle, halive⟩
  | lockPoisoned | lockOverflow | lockClosed =>
    have heq := Option.some.inj ((Function.update_self t _ s.outcome).symm.trans hout)
    cases heq
  | acquireGrow | acquireNeedWait =>
    have heq := (Function.update_self t _ s.pc).symm.trans hback
    cases heq

lemma serving_iff {s s' : PoolState T I} {t : T} {i : I} (hs : PoolStep cfg s (.lock t) s')
    (hd : Departs s s' t (.isle i)) : (s.isles i).exited = false ↔ NotInGap s (.lock t) := by
  obtain ⟨rest, hidle, halive⟩ := taken_of_lock hs hd
  have hskipped : ∀ k ∈ skippedIsles s.alive s.inner.idle, s.alive k = false :=
    fun k hk => dead_of_skipped hk
  constructor
  · intro hserves dead k rest' hidle' hdead
    cases hk : s.alive k with
    | true =>
      have heq := first_alive (hidle.symm.trans hidle') hskipped halive hdead hk
      rw [← heq, IsleView.inGap, hserves]
      rfl
    | false =>
      rw [IsleView.inGap, show (s.isles k).isAlive = false from hk, Bool.and_false]
  · intro hgap
    have hnot := hgap _ i rest hidle hskipped
    rw [IsleView.inGap, show (s.isles i).isAlive = true from halive, Bool.and_true] at hnot
    exact hnot

/-- As long as no isle in the gap is the first one alive when a checkout takes the lock, only isles
that serve are handed out, and exactly then; and if such an isle later answers `Closed`, its loop
has returned in between. -/
theorem serving_isles_handed_out {J K V : Type} [DecidableEq J] [DecidableEq K] :
    HandsOutServing (T := T) (I := I) cfg NotInGap ∧
    (∀ (s : PoolState T I) t i s', PoolStep cfg s (.lock t) s' → Departs s s' t (.isle i) →
      ((s.isles i).exited = false ↔ NotInGap s (.lock t))) ∧
    ∀ (icfg : Config J V) (s s' : State J K V) j, icfg.front = .sync → (isle icfg).Reachable s →
      s.view.exited = false → (isle icfg).Run s s' →
      (s'.jobs j).observed = some (.error .closed) → s'.view.exited = true := by
  refine ⟨fun s t i s' _ hP hs hd => (serving_iff hs hd).mpr hP,
    fun s t i s' hs hd => serving_iff hs hd, ?_⟩
  intro icfg s s' j hfront hs _ hrun hobs
  exact exited_of_closed hfront (hs.run hrun) hobs

/-- An isle is returned and checked out again while its loop runs. -/
theorem serving_isles_handed_out_again : ∃ s : PoolState Bool Bool,
    (pool twoIsles).Reachable s ∧ s.inner.idle = [true] ∧ (s.isles true).exited = false := by
  have r0 := TransitionSystem.Reachable.refl (T := pool (T := Bool) (I := Bool) twoIsles)
  have h0 := r0.here_via NotInGap
  have h1 := h0.tail (.callCheckout (t := true) .checkout rfl) trivial
  have h2 := h1.tail (.acquireGrow (t := true) rfl rfl rfl rfl rfl)
    (fun dead i rest h => by cases dead <;> cases h)
  have h3 := h2.tail (.factoryOk (t := true) (i := true) rfl rfl) trivial
  have h4 := h3.tail (.dropGuard (t := true) (i := true) rfl (by decide) (by decide)) trivial
  have h5 := h4.tail (.returnIdle (t := true) rfl rfl rfl rfl
    (.none (fun t w h => by cases t <;> cases h))) trivial
  have h6 := h5.tail (.callCheckout (t := false) .checkout rfl) trivial
  have hserves := (@serving_isles_handed_out Bool Bool _ _ twoIsles Unit Unit ℕ _ _).1 _
    false true _ h6 ?gap (.acquireIsle (t := false) rfl rfl rfl rfl rfl) ⟨rfl, rfl, rfl⟩
  exact ⟨_, TransitionSystem.ReachableVia.reachable h6, rfl, hserves⟩
  rintro dead i rest hidle -
  cases dead with
  | nil =>
    cases hidle
    rfl
  | cons k dead => cases dead <;> cases hidle

/-- An isle is returned, its loop returns, and it is checked out before its thread finishes. -/
theorem exited_isle_handed_out :
    ¬ HandsOutServing (T := Bool) (I := Bool) twoIsles (fun _ _ => True) := by
  intro h
  have h0 := TransitionSystem.Reachable.refl (T := pool (T := Bool) (I := Bool) twoIsles)
  have h1 := h0.tail (.callCheckout (t := true) .checkout rfl)
  have h2 := h1.tail (.acquireGrow (t := true) rfl rfl rfl rfl rfl)
  have h3 := h2.tail (.factoryOk (t := true) (i := true) rfl rfl)
  have h4 := h3.tail (.dropGuard (t := true) (i := true) rfl (by decide) (by decide))
  have h5 := h4.tail (.returnIdle (t := true) rfl rfl rfl rfl
    (.none (fun t w h => by cases t <;> cases h)))
  have h6 := h5.tail (.isleExit (i := true) rfl rfl)
  have h7 := h6.tail (.callCheckout (t := false) .checkout rfl)
  have hexited := h _ false true _ h7 trivial (.acquireIsle (t := false) rfl rfl rfl rfl rfl)
    ⟨rfl, rfl, rfl⟩
  cases hexited

end RusqliteIsle
