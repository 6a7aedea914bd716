import RusqliteIsle.Lib.Recency
import RusqliteIsle.Pool.Checkout
import RusqliteIsle.Pool.Custody
import RusqliteIsle.Pool.Wakeup

/-!
# Refusing, growing and reusing

A round of a checkout makes one acquisition attempt. The attempt reuses the isle that was returned
last among those alive; if there is none it reserves a slot for the factory; and if every slot is
taken the checkout sleeps or is refused. An error of the factory is passed on as it is, so a
`checkout_timeout` also returns `Timeout` when its factory call did.
-/

namespace RusqliteIsle

set_option linter.unusedSectionVars false

section

variable {I : Type} {alive : ℕ → I → Bool}

/-- `take_alive_isle` while the isles are dying: `alive n` is what its `n`-th look finds. -/
def searchIdle (alive : ℕ → I → Bool) : ℕ → List I → Option I × List I
  | _, [] => (none, [])
  | n, i :: idle => if alive n i then (some i, idle) else searchIdle alive (n + 1) idle

/-- The search finds the isles as they are at its last look. -/
theorem searchIdle_eq_takeAliveIsle (hdying : ∀ n i, alive n i = false → alive (n + 1) i = false)
    (n : ℕ) (idle : List I) :
    ∃ last, n ≤ last ∧ searchIdle alive n idle = takeAliveIsle (alive last) idle := by
  have hdead {m last : ℕ} {i : I} (hle : m ≤ last) (hi : alive m i = false) :
      alive last i = false := by
    induction last, hle using Nat.le_induction with
    | base => exact hi
    | succ last _ ih => exact hdying last i ih
  induction idle generalizing n with
  | nil => exact ⟨n, le_rfl, rfl⟩
  | cons i idle ih =>
    cases hi : alive n i with
    | true => exact ⟨n, le_rfl, by simp [searchIdle, takeAliveIsle, hi]⟩
    | false =>
      obtain ⟨last, hle, heq⟩ := ih (n + 1)
      refine ⟨last, by omega, ?_⟩
      simp only [searchIdle, takeAliveIsle, hi, hdead (by omega : n ≤ last) hi]
      exact heq

end

variable {T I : Type} [DecidableEq T] [DecidableEq I] {cfg : PoolConfig}

/-! ## Attempts -/

/-- The thread is about to take the lock and to call `try_acquire`. -/
structure Attempts (cfg : PoolConfig) (s : PoolState T I) (t : T) : Prop where
  free : s.lock = none
  healthy : s.poisoned = false
  entering : ∃ w, (s.pc t).entering cfg.horizon s.now = some (some w)
  isOpen : s.inner.closed = false

/-- The places that an attempt without an isle leads to. -/
def PoolPc.unserved : PoolPc I → Bool
  | needWait _ | blocked _ | factory => true
  | _ => false

/-- How a thread comes to such a place. -/
inductive Arrival (cfg : PoolConfig) (s : PoolState T I) (t : T) (s' : PoolState T I) :
    PoolLabel T I → PoolPc I → Prop
  | refused {w : Patience} (hattempt : Attempts cfg s t)
      (hacquire : tryAcquire cfg.maxSize s.alive s.inner = (.needWait, s'.inner)) :
      Arrival cfg s t s' (.lock t) (.needWait w)
  | reserved (hattempt : Attempts cfg s t)
      (hacquire : tryAcquire cfg.maxSize s.alive s.inner = (.grow, s'.inner)) :
      Arrival cfg s t s' (.lock t) .factory
  | asleep {w : Patience} (hpc : s.pc t = .needWait w) :
      Arrival cfg s t s' (.decide t) (.blocked w)

lemma arrival_of_step {s s' : PoolState T I} {l : PoolLabel T I} {t : T} {p : PoolPc I}
    (hs : PoolStep cfg s l s') (hp : s'.pc t = p) (hplace : p.unserved = true)
    (hmoved : s.pc t ≠ p) : Arrival cfg s t s' l p := by
  by_cases hl : l.thread? = some t
  swap
  · rcases pc_step hs hl with heq | ⟨w, -, heq⟩
    · exact absurd (heq.symm.trans hp) hmoved
    · rw [← hp, heq] at hplace
      cases hplace
  have elsewhere {q : PoolPc I} (hq : q.unserved = false) (hpc : s'.pc t = q) : False := by
    rw [← hp, hpc, hq] at hplace
    cases hplace
  cases hs with
  | @acquireGrow _ w _ hlock hpoison hpc hopen hacquire =>
    cases hl
    obtain rfl := (Function.update_self ..).symm.trans hp
    exact .reserved ⟨hlock, hpoison, ⟨w, hpc⟩, hopen⟩ hacquire
  | @acquireNeedWait _ w _ hlock hpoison hpc hopen hacquire =>
    cases hl
    obtain rfl := (Function.update_self ..).symm.trans hp
    exact .refused ⟨hlock, hpoison, ⟨w, hpc⟩, hopen⟩ hacquire
  | sleep hpc =>
    cases hl
    obtain rfl := (Function.update_self ..).symm.trans hp
    exact .asleep hpc
  | decActive _ _ hnotify | returnIdle _ _ _ _ hnotify | returnDead _ _ _ _ hnotify
  | returnEnd _ _ hnotify =>
    cases hl
    exact (elsewhere rfl hnotify.at_rest).elim
  | shutdownEnd =>
    cases hl
    exact (elsewhere (q := .rest) rfl (by simp [notifyAll])).elim
  | tick | isleExit | isleFinish | guardShutdown | jobStart | jobEnd => cases hl
  | _ =>
    cases hl
    exact (elsewhere rfl (Function.update_self ..)).elim

/-! ## The pool at capacity -/

/-- What a checkout has found that is refused: it has the lock, the pool is open, no isle is idle,
and every slot is taken. -/
structure AtCapacity (cfg : PoolConfig) (s : PoolState T I) (t : T) : Prop where
  lock : s.lock = some t
  isOpen : s.inner.closed = false
  idle : s.inner.idle = []
  active : s.inner.active = cfg.maxSize

lemma idle_of_needWait {s : PoolState T I} (h : (pool cfg).Reachable s) {t : T} {w : Patience}
    (hpc : s.pc t = .needWait w) : s.inner.idle = [] := by
  have hstay : ∀ w, s.pc t = .needWait w → s.inner.idle = [] := by
    refine TransitionSystem.ReachableVia.invariant_of (J := fun s => ∀ t, Held cfg s t)
      (I := fun s => ∀ w, s.pc t = .needWait w → s.inner.idle = [])
      (fun s hs => held_reachable hs) (fun w h => by cases h) ?_ h
    intro s l s' hheld hi _ hs w hpc'
    by_cases hpc : s.pc t = .needWait w
    · have hlock := ((hheld t).at_pc hpc rfl).1
      rw [(inner_step hs).resolve_right (by simp [hlock])]
      exact hi w hpc
    · cases arrival_of_step hs hpc' rfl hpc with
      | refused _ hacquire => exact (tryAcquire_needWait hacquire).2.1
  exact hstay w hpc

section

variable [Fintype T]

lemma atCapacity_of_needWait {s : PoolState T I} (h : (pool cfg).Reachable s) {t : T}
    {w : Patience} (hpc : s.pc t = .needWait w) : AtCapacity cfg s t := by
  obtain ⟨hlock, hopen, hfull⟩ := (held_reachable h t).at_pc hpc rfl
  have hbounded := (accounted_reachable h).bounded
  exact ⟨hlock, hopen, idle_of_needWait h hpc, by omega⟩

end

/-- Between `s₀` and `s` the thread makes an acquisition attempt. -/
def AttemptsBetween (cfg : PoolConfig) (s₀ s : PoolState T I) (t : T) : Prop :=
  ∃ u v, (pool cfg).Run s₀ u ∧ Attempts cfg u t ∧ PoolStep cfg u (.lock t) v ∧ (pool cfg).Run v s

lemma attemptsBetween_of_needWait {s₀ s : PoolState T I} {t : T} {w : Patience}
    (hbefore : ∀ w, s₀.pc t ≠ .needWait w) (hrun : (pool cfg).Run s₀ s)
    (hpc : s.pc t = .needWait w) : AttemptsBetween cfg s₀ s t := by
  have hsince : (pool cfg).Run s₀ s ∧ ∀ w, s.pc t = .needWait w → AttemptsBetween cfg s₀ s t := by
    refine TransitionSystem.Run.invariant
      (I := fun s => (pool cfg).Run s₀ s ∧ ∀ w, s.pc t = .needWait w → AttemptsBetween cfg s₀ s t)
      ?_ hrun ⟨.refl s₀, fun w hpc => absurd hpc (hbefore w)⟩
    rintro s l s' ⟨hrun, hi⟩ hs
    refine ⟨hrun.tail hs, fun w hpc' => ?_⟩
    by_cases hpc : s.pc t = .needWait w
    · obtain ⟨u, v, hu, hattempt, hlock, hv⟩ := hi w hpc
      exact ⟨u, v, hu, hattempt, hlock, hv.tail hs⟩
    · cases arrival_of_step hs hpc' rfl hpc with
      | refused hattempt => exact ⟨s, s', hrun, hattempt, hs, .refl s'⟩
  exact hsince.2 w hpc

/-! ## The order of the idle isles -/

/-- The isle that a step gives back to the pool. -/
def PoolState.returned (s : PoolState T I) : PoolLabel T I → List I
  | .returnIsle t => (s.pc t).dropped
  | _ => []

section

variable [Fintype T]

lemma not_idle_of_returning {s : PoolState T I} (h : (pool cfg).Reachable s) {t : T} {i : I}
    (hpc : s.pc t = .returning i) : i ∉ s.inner.idle := by
  intro hidle
  have hplace := (custody_reachable h i).place
  have hcarried := le_tally (fun p => (PoolPc.dropped p).count i) s.pc t
  have hone : ((s.pc t).dropped).count i = 1 := by rw [hpc]; exact List.count_singleton_self
  have hpos := List.count_pos_iff.mpr hidle
  simp only [carried] at hplace
  split at hplace <;> omega

lemma recent_step {trace : List I} {s s' : PoolState T I} {l : PoolLabel T I}
    (h : (pool cfg).Reachable s) (hi : Recent trace s.inner.idle) (hs : PoolStep cfg s l s') :
    Recent (trace ++ s.returned l) s'.inner.idle := by
  cases hs with
  | acquireIsle _ _ _ _ hacquire =>
    obtain ⟨hidle, -, -, -⟩ := tryAcquire_isle hacquire
    change Recent (trace ++ []) _
    rw [List.append_nil]
    refine hi.sublist ?_
    rw [hidle]
    exact (List.sublist_cons_self _ _).trans (List.sublist_append_right _ _)
  | acquireGrow _ _ _ _ hacquire =>
    rw [show _ = _ from (tryAcquire_grow hacquire).2.1]
    exact Recent.nil _
  | acquireNeedWait _ _ _ _ hacquire =>
    rw [show _ = _ from (tryAcquire_needWait hacquire).2.1]
    exact Recent.nil _
  | returnIdle _ hpc =>
    rw [PoolState.returned, hpc]
    exact hi.push (not_idle_of_returning h hpc)
  | returnDead _ hpc | returnClosed _ hpc =>
    rw [PoolState.returned, hpc]
    exact hi.note (not_idle_of_returning h hpc)
  | shutdown => exact Recent.nil _
  | _ =>
    change Recent (trace ++ []) s.inner.idle
    rwa [List.append_nil]

lemma recent_shows {trace : List I} {s : PoolState T I}
    (h : (pool cfg).Shows PoolState.returned trace s) : Recent trace s.inner.idle := by
  induction h with
  | init => exact Recent.nil _
  | step h hs ih => exact recent_step h.reachable ih hs

/-- The attempt hands out the isle that was returned last among those alive. It removes this isle
and the dead ones that were returned after it, and leaves the rest of the list as it is. -/
structure Reuses (trace : List I) (s s' : PoolState T I) (t : T) (i : I) : Prop where
  departs : Departs s s' t (.isle i)
  alive : s.alive i = true
  latest : ∀ k ∈ s.inner.idle, s.alive k = true → k ≠ i → Later trace i k
  removed : ∃ dead, s.inner.idle = dead ++ i :: s'.inner.idle ∧
    ∀ k ∈ dead, s.alive k = false ∧ Later trace k i

lemma all_dead {alive : I → Bool} {idle : List I} (h : skippedIsles alive idle = idle) :
    ∀ i ∈ idle, alive i = false :=
  fun _ hi => dead_of_skipped (h.symm ▸ hi)

lemma reuses_of_attempt {trace : List I} {s s' : PoolState T I} {t : T}
    (h : (pool cfg).Shows PoolState.returned trace s) (hattempt : Attempts cfg s t)
    (hs : PoolStep cfg s (.lock t) s') (halive : ∃ k ∈ s.inner.idle, s.alive k = true) :
    ∃ i, Reuses trace s s' t i := by
  obtain ⟨k, hk, hkalive⟩ := halive
  have some_alive (hdead : ∀ i ∈ s.inner.idle, s.alive i = false) : False := by
    rw [hdead k hk] at hkalive
    cases hkalive
  cases hs with
  | lockPoisoned _ hpoison =>
    rw [hattempt.healthy] at hpoison
    cases hpoison
  | lockOverflow _ _ hpc =>
    obtain ⟨w, hw⟩ := hattempt.entering
    rw [hw] at hpc
    cases hpc
  | lockClosed _ _ _ hclosed =>
    rw [hattempt.isOpen] at hclosed
    cases hclosed
  | acquireGrow _ _ _ _ hacquire =>
    exact (some_alive (all_dead (tryAcquire_grow hacquire).1)).elim
  | acquireNeedWait _ _ _ _ hacquire =>
    exact (some_alive (all_dead (tryAcquire_needWait hacquire).1)).elim
  | @acquireIsle _ _ i inner _ _ hpc _ hacquire =>
    obtain ⟨hidle, -, -, hi⟩ := tryAcquire_isle hacquire
    obtain ⟨habove, hbelow⟩ := Recent.around (hidle ▸ recent_shows h)
    have hinside : (s.pc t).inCheckout = true := by
      rcases PoolPc.entering_cases (hpc ▸ Option.some_ne_none _) with ⟨call, h⟩ | ⟨w, h⟩ <;>
        rw [h] <;> rfl
    refine ⟨i, ⟨hinside, Function.update_self .., Function.update_self ..⟩, hi, ?_, ?_⟩
    · intro x hx hxalive hne
      rw [hidle] at hx
      rcases List.mem_append.mp hx with hskipped | hrest
      · rw [dead_of_skipped hskipped] at hxalive
        cases hxalive
      · exact hbelow x ((List.mem_cons.mp hrest).resolve_left hne)
    · exact ⟨_, hidle, fun x hx => ⟨dead_of_skipped hx, habove x hx⟩⟩

/-- A checkout is refused for lack of capacity, or goes to sleep, only while it holds the lock of an
open pool without idle isles in which every slot is taken; a `Timeout` is either such a refusal,
with an attempt after the last wake-up, or the error of the checkout's own factory call. A slot is
reserved only if no idle isle is alive, and otherwise the isle returned last is reused. -/
theorem refused_at_capacity {trace : List I} {s s' : PoolState T I} {l : PoolLabel T I}
    (h : (pool cfg).Shows PoolState.returned trace s) (hs : PoolStep cfg s l s') (t : T) :
    (Departs s s' t .unavailable → AtCapacity cfg s t) ∧
    (Departs s s' t (.error .timeout) → s.pc t = .failed .timeout ∨
      AtCapacity cfg s t ∧ ∀ s₀, (pool cfg).Run s₀ s →
        (∃ w, s₀.pc t = .woken w) ∨ (∃ call, s₀.pc t = .locking call) →
        AttemptsBetween cfg s₀ s t) ∧
    (∀ w, s'.pc t = .blocked w → s.pc t ≠ .blocked w → AtCapacity cfg s t) ∧
    (s'.pc t = .factory → s.pc t ≠ .factory → l = .lock t ∧ Attempts cfg s t ∧
      (∀ i ∈ s.inner.idle, s.alive i = false) ∧ s.inner.active < cfg.maxSize) ∧
    (l = .lock t → Attempts cfg s t → (∃ k ∈ s.inner.idle, s.alive k = true) →
      ∃ i, Reuses trace s s' t i) := by
  have hreach := h.reachable
  refine ⟨fun hd => ?_, fun hd => ?_, fun w hpc hmoved => ?_, fun hpc hmoved => ?_, ?_⟩
  · cases departure_of_step hs hd with
    | refused hpc => exact atCapacity_of_needWait hreach hpc
  · cases departure_of_step hs hd with
    | refused hpc =>
      refine Or.inr ⟨atCapacity_of_needWait hreach hpc, fun s₀ hrun hround => ?_⟩
      refine attemptsBetween_of_needWait (fun w hw => ?_) hrun hpc
      rcases hround with ⟨w', hw'⟩ | ⟨call, hcall⟩
      · rw [hw] at hw'
        cases hw'
      · rw [hw] at hcall
        cases hcall
    | failed hpc => exact Or.inl hpc
  · cases arrival_of_step hs hpc rfl hmoved with
    | asleep hpc => exact atCapacity_of_needWait hreach hpc
  · cases arrival_of_step hs hpc rfl hmoved with
    | reserved hattempt hacquire =>
      obtain ⟨hskipped, -, hroom, -⟩ := tryAcquire_grow hacquire
      exact ⟨rfl, hattempt, all_dead hskipped, hroom⟩
  · rintro rfl hattempt halive
    exact reuses_of_attempt h hattempt hs halive

end

/-- The only isle is checked out, and a `checkout_timeout` of zero is refused. -/
theorem refused_at_capacity_zero : ∃ s s' : PoolState Bool Bool,
    Departs s s' false (.error .timeout) ∧ AtCapacity oneIsle s false := by
  have h0 : (pool (T := Bool) (I := Bool) oneIsle).Shows PoolState.returned _ _ := .init
  have h1 := h0.step (.callCheckout (t := true) .checkout rfl)
  have h2 := h1.step (.acquireGrow (t := true) rfl rfl rfl rfl rfl)
  have h3 := h2.step (.factoryOk (t := true) (i := true) rfl rfl)
  have h4 := h3.step (.callCheckout (t := false) (.checkoutTimeout 0) rfl)
  have h5 := h4.step (.acquireNeedWait (t := false) rfl rfl rfl rfl rfl)
  have hrefused := (refused_at_capacity h5
    (.refuse (t := false) (o := .error .timeout) rfl rfl) false).2.1
  refine ⟨_, _, ?back, ((hrefused ?back).resolve_left (fun h => by cases h)).1⟩
  exact ⟨rfl, rfl, rfl⟩

/-- The factory of a `checkout_timeout` fails with `Timeout`, as it may when it times out on an
isle of its own, while every slot but its own is free. -/
theorem timeout_below_capacity : ¬ ∀ (s s' : PoolState Bool Bool) l t,
    (pool twoIsles).Reachable s → PoolStep twoIsles s l s' → Departs s s' t (.error .timeout) →
    AtCapacity twoIsles s t := by
  intro h
  have h0 := TransitionSystem.Reachable.refl (T := pool (T := Bool) (I := Bool) twoIsles)
  have h1 := h0.tail (.callCheckout (t := true) (.checkoutTimeout 5) rfl)
  have h2 := h1.tail (.acquireGrow (t := true) rfl rfl rfl rfl rfl)
  have h3 := h2.tail (.factoryErr (t := true) (e := .timeout) rfl)
  have hfull := h _ _ _ true h3 (.decActive (t := true) (e := .timeout) rfl rfl
    (.none (fun t w h => by cases t <;> cases h))) ⟨rfl, rfl, rfl⟩
  cases hfull.lock

end RusqliteIsle
