import RusqliteIsle.Pool.Checkout
import RusqliteIsle.Pool.Custody
import RusqliteIsle.Pool.Wakeup

/-!
# Timeouts of every length

`checkout_timeout` adds its timeout to the current instant while it holds the lock. The sum may
not be representable, and the addition then panics and poisons the lock. The offer of a pool is
all that a round of a checkout reads; a call that does not panic leaves it as it was, up to the
isle it hands out.
-/

namespace RusqliteIsle

set_option linter.unusedSectionVars false

/-- What the pool offers to a checkout: whether it is closed and its lock poisoned, the idle isles
that are alive, and the slots in use other than those of factory calls. -/
structure Offer (I : Type) where
  closed : Bool
  poisoned : Bool
  live : List I
  active : ℕ

/-- What a round of a checkout comes to. -/
inductive Attempt (I : Type) where
  | done (o : Outcome I)
  | grow
  | wait (w : Patience)

namespace Attempt

variable {I : Type}

def pc : Attempt I → PoolPc I
  | done _ => .rest
  | grow => .factory
  | wait w => .needWait w

def outcome? : Attempt I → Option (Outcome I)
  | done o => some o
  | _ => none

end Attempt

namespace Offer

variable {I : Type}

/-- A round of a checkout, with `growing` factory calls in progress. -/
def attempt (maxSize growing : ℕ) (v : Offer I) (w : Option Patience) : Attempt I :=
  if v.poisoned then .done (.error (.panicked poisonMessage))
  else match w with
    | none => .done .unwound
    | some w =>
      if v.closed then .done (.error .closed)
      else match v.live with
        | i :: _ => .done (.isle i)
        | [] => if v.active + growing < maxSize then .grow else .wait w

section

variable {maxSize growing : ℕ} {v : Offer I} {w : Patience}

lemma attempt_poisoned (h : v.poisoned = true) (o : Option Patience) :
    v.attempt maxSize growing o = .done (.error (.panicked poisonMessage)) := by
  simp [attempt, h]

lemma attempt_overflow (h : v.poisoned = false) :
    v.attempt maxSize growing none = .done .unwound := by
  simp [attempt, h]

lemma attempt_closed (h : v.poisoned = false) (hclosed : v.closed = true) :
    v.attempt maxSize growing (some w) = .done (.error .closed) := by
  simp [attempt, h, hclosed]

lemma attempt_isle {i : I} {rest : List I} (h : v.poisoned = false) (hopen : v.closed = false)
    (hlive : v.live = i :: rest) : v.attempt maxSize growing (some w) = .done (.isle i) := by
  simp [attempt, h, hopen, hlive]

lemma attempt_grow (h : v.poisoned = false) (hopen : v.closed = false) (hlive : v.live = [])
    (hroom : v.active + growing < maxSize) : v.attempt maxSize growing (some w) = .grow := by
  simp [attempt, h, hopen, hlive, hroom]

lemma attempt_wait (h : v.poisoned = false) (hopen : v.closed = false) (hlive : v.live = [])
    (hfull : maxSize ≤ v.active + growing) : v.attempt maxSize growing (some w) = .wait w := by
  simp [attempt, h, hopen, hlive, Nat.not_lt.mpr hfull]

end

/-- The isle `i` has been handed out. -/
def handOut [DecidableEq I] (v : Offer I) (i : I) : Offer I :=
  { v with live := v.live.erase i, active := v.active + 1 }

end Offer

lemma filter_of_skipped {I : Type} {alive : I → Bool} {idle : List I}
    (h : skippedIsles alive idle = idle) : idle.filter alive = [] := by
  refine List.filter_eq_nil_iff.mpr (fun i hi => ?_)
  have hskipped : i ∈ skippedIsles alive idle := h.symm ▸ hi
  rw [dead_of_skipped hskipped]
  exact Bool.false_ne_true

lemma filter_of_taken {I : Type} {alive : I → Bool} {idle rest : List I} {i : I}
    (h : idle = skippedIsles alive idle ++ i :: rest) (halive : alive i = true) :
    idle.filter alive = i :: rest.filter alive := by
  have hdead : (skippedIsles alive idle).filter alive = [] := by
    refine List.filter_eq_nil_iff.mpr (fun k hk => ?_)
    rw [dead_of_skipped hk]
    exact Bool.false_ne_true
  calc idle.filter alive = (skippedIsles alive idle ++ i :: rest).filter alive := by rw [← h]
    _ = i :: rest.filter alive := by
      rw [List.filter_append, hdead, List.nil_append, List.filter_cons_of_pos halive]

variable {T I : Type} [DecidableEq T] [DecidableEq I] [Fintype T] {cfg : PoolConfig}

namespace PoolState

/-- The factory calls in progress. -/
def growing (s : PoolState T I) : ℕ := tally PoolPc.factoryCall s.pc

def offer (s : PoolState T I) : Offer I where
  closed := s.inner.closed
  poisoned := s.poisoned
  live := s.inner.idle.filter s.alive
  active := s.inner.active - s.growing

end PoolState

lemma growing_le {s : PoolState T I} (h : Accounted cfg s) : s.growing ≤ s.inner.active := by
  have hslot : tally PoolPc.slot s.pc = tally PoolPc.dropping s.pc + s.growing := tally_add
  have hactive := h.active
  omega

/-- The round of `t` that ends in `s'` came to `a`. -/
def ComesTo (s' : PoolState T I) (t : T) (a : Attempt I) : Prop :=
  s'.pc t = a.pc ∧ ∀ r, a.outcome? = some r → s'.outcome t = some r

/-- A round of a checkout reads nothing but the offer, the number of factory calls, and its own
arguments. -/
lemma attempt_of_lock {s s' : PoolState T I} {t : T} {o : Option Patience} (hacc : Accounted cfg s)
    (hpc : (s.pc t).entering cfg.horizon s.now = some o) (hs : PoolStep cfg s (.lock t) s') :
    ComesTo s' t (s.offer.attempt cfg.maxSize s.growing o) := by
  have hsum : s.offer.active + s.growing = s.inner.active :=
    Nat.sub_add_cancel (growing_le hacc)
  have leave (r : Outcome I) (u : PoolState T I) (hu : u.pc t = .rest)
      (hr : u.outcome t = some r) : ComesTo u t (.done r) := by
    refine ⟨hu, fun r' hr' => ?_⟩
    cases hr'
    exact hr
  cases hs with
  | lockPoisoned _ hpoison =>
    rw [Offer.attempt_poisoned hpoison]
    exact leave _ _ (Function.update_self _ _ _) (Function.update_self _ _ _)
  | lockOverflow _ hpoison hat =>
    cases hpc.symm.trans hat
    rw [Offer.attempt_overflow hpoison]
    exact leave _ _ (Function.update_self _ _ _) (Function.update_self _ _ _)
  | lockClosed _ hpoison hat hclosed =>
    cases hpc.symm.trans hat
    rw [Offer.attempt_closed hpoison hclosed]
    exact leave _ _ (Function.update_self _ _ _) (Function.update_self _ _ _)
  | acquireIsle _ hpoison hat hopen hacquire =>
    cases hpc.symm.trans hat
    obtain ⟨hidle, -, -, halive⟩ := tryAcquire_isle hacquire
    rw [Offer.attempt_isle hpoison hopen (filter_of_taken hidle halive)]
    exact leave _ _ (Function.update_self _ _ _) (Function.update_self _ _ _)
  | acquireGrow _ hpoison hat hopen hacquire =>
    cases hpc.symm.trans hat
    obtain ⟨hskipped, -, hroom, -, -⟩ := tryAcquire_grow hacquire
    rw [Offer.attempt_grow hpoison hopen (filter_of_skipped hskipped) (hsum.trans_lt hroom)]
    exact ⟨Function.update_self _ _ _, fun r hr => by cases hr⟩
  | acquireNeedWait _ hpoison hat hopen hacquire =>
    cases hpc.symm.trans hat
    obtain ⟨hskipped, -, hfull, -, -⟩ := tryAcquire_needWait hacquire
    rw [Offer.attempt_wait hpoison hopen (filter_of_skipped hskipped) (hfull.trans_eq hsum.symm)]
    exact ⟨Function.update_self _ _ _, fun r hr => by cases hr⟩

/-! ## What a call leaves behind -/

/-- The step of `t`, which is inside a checkout, does the others no harm: the lock is not poisoned,
the call does not unwind unless its factory does, and the offer stays as it was up to the isle that
is handed out. -/
structure Harmless (s s' : PoolState T I) (l : PoolLabel T I) (t : T) : Prop where
  unpoisoned : s'.poisoned = false
  returns : l ≠ .factoryPanic t → ¬ Departs s s' t .unwound
  kept : l ≠ .factoryPanic t → (∀ i, ¬ Departs s s' t (.isle i)) → s'.offer = s.offer
  handed : ∀ i, Departs s s' t (.isle i) → s'.offer = s.offer.handOut i

/-- On the runs whose steps meet `P`, every step of a thread inside a checkout is harmless. -/
def TimeoutSafe (cfg : PoolConfig) (P : PoolState T I → PoolLabel T I → Prop) : Prop :=
  ∀ s l s' t, (pool cfg).ReachableVia P s → P s l → PoolStep cfg s l s' → l.thread? = some t →
    (s.pc t).inCheckout = true → Harmless s s' l t

/-- The deadline of a `checkout_timeout` that takes the lock is representable. -/
def Representable (cfg : PoolConfig) (s : PoolState T I) : PoolLabel T I → Prop
  | .lock t => ∀ timeout, s.pc t = .locking (.checkoutTimeout timeout) →
      s.now + timeout ≤ cfg.horizon
  | _ => True

lemma entering_eq_none {p : PoolPc I} {horizon now : ℕ}
    (h : p.entering horizon now = some none) :
    ∃ timeout, p = .locking (.checkoutTimeout timeout) ∧ horizon < now + timeout := by
  cases p with
  | locking call =>
    have hcall := Option.some.inj h
    cases call with
    | checkoutTimeout timeout =>
      refine ⟨timeout, rfl, Nat.not_le.mp (fun hle => ?_)⟩
      rw [Checkout.patience, if_pos hle] at hcall
      cases hcall
    | checkout | tryCheckout => cases hcall
  | _ => cases h

lemma unpoisoned_via {s : PoolState T I} (h : (pool cfg).ReachableVia (Representable cfg) s) :
    s.poisoned = false := by
  refine TransitionSystem.ReachableVia.invariant (I := fun s => s.poisoned = false) rfl ?_ h
  intro s l s' hi hP hs
  cases hs with
  | lockOverflow _ _ hpc =>
    obtain ⟨timeout, hat, hover⟩ := entering_eq_none hpc
    exact absurd (hP timeout hat) (Nat.not_le.mpr hover)
  | _ => exact hi

section

variable {s s' : PoolState T I} {t : T}

lemma alive_eq (hisles : s'.isles = s.isles) : s'.alive = s.alive := by
  funext i
  rw [PoolState.alive, PoolState.alive, hisles]

lemma offer_eq (hlive : s'.inner.idle.filter s.alive = s.inner.idle.filter s.alive)
    (hclosed : s'.inner.closed = s.inner.closed) (hpoison : s'.poisoned = s.poisoned)
    (hisles : s'.isles = s.isles)
    (hactive : s'.inner.active - s'.growing = s.inner.active - s.growing) :
    s'.offer = s.offer := by
  simp only [PoolState.offer, Offer.mk.injEq]
  rw [alive_eq hisles]
  exact ⟨hclosed, hpoison, hlive, hactive⟩

lemma offer_keep (hinner : s'.inner = s.inner) (hpoison : s'.poisoned = s.poisoned)
    (hisles : s'.isles = s.isles) (hgrowing : s'.growing = s.growing) : s'.offer = s.offer :=
  offer_eq (by rw [hinner]) (by rw [hinner]) hpoison hisles (by rw [hinner, hgrowing])

lemma offer_handOut {i : I} (hlive : s'.inner.idle.filter s.alive = s.offer.live.erase i)
    (hclosed : s'.inner.closed = s.inner.closed) (hpoison : s'.poisoned = s.poisoned)
    (hisles : s'.isles = s.isles)
    (hactive : s'.inner.active - s'.growing = s.inner.active - s.growing + 1) :
    s'.offer = s.offer.handOut i := by
  simp only [Offer.handOut, PoolState.offer, Offer.mk.injEq]
  rw [alive_eq hisles]
  exact ⟨hclosed, hpoison, hlive, hactive⟩

lemma growing_move {p q : PoolPc I} (hpc : s.pc t = p) (hpc' : s'.pc = Function.update s.pc t q)
    (h : q.factoryCall = p.factoryCall) : s'.growing = s.growing := by
  rw [PoolState.growing, hpc']
  exact tally_update_of_eq (by rw [hpc, h])

lemma factoryCall_of_entering {o : Option Patience}
    (h : (s.pc t).entering cfg.horizon s.now = some o) : (s.pc t).factoryCall = 0 := by
  rcases PoolPc.entering_cases (by rw [h]; exact Option.some_ne_none o) with ⟨call, hpc⟩ | ⟨w, hpc⟩ <;>
    rw [hpc] <;> rfl

lemma refusal_cases {w : Patience} {now : ℕ} {o : Outcome I} (h : w.refusal now = some o) :
    o = .unavailable ∨ o = .error .timeout := by
  cases w with
  | forever => cases h
  | never =>
    cases h
    exact Or.inl rfl
  | deadline instant =>
    rw [Patience.refusal] at h
    split at h <;> cases h
    exact Or.inr rfl

lemma growing_taken (h : (s.pc t).factoryCall = 0)
    (hpc' : s'.pc = Function.update s.pc t .factory) : s.growing + 1 = s'.growing := by
  have hmove : tally PoolPc.factoryCall (Function.update s.pc t .factory) + (s.pc t).factoryCall =
      tally PoolPc.factoryCall s.pc + 1 := tally_update PoolPc.factory
  rw [h] at hmove
  rw [PoolState.growing, PoolState.growing, hpc']
  exact hmove.symm

lemma growing_pos {p : PoolPc I} (hpc : s.pc t = p) (h : p.factoryCall = 1) : 0 < s.growing := by
  have hle := le_tally PoolPc.factoryCall s.pc t
  rw [hpc, h] at hle
  exact hle

lemma growing_free {p : PoolPc I} (hpc : s.pc t = p) (h : p.factoryCall = 1)
    (hpc' : tally PoolPc.factoryCall s'.pc =
      tally PoolPc.factoryCall (Function.update s.pc t .rest)) :
    s'.growing = s.growing - 1 := by
  have hmove : tally PoolPc.factoryCall (Function.update s.pc t .rest) + (s.pc t).factoryCall =
      tally PoolPc.factoryCall s.pc + 0 := tally_update PoolPc.rest
  rw [hpc, h, ← hpc'] at hmove
  exact Nat.eq_sub_of_add_eq hmove

end

/-- The call of `t` did not come back with an isle, or it did and its isle is gone from the offer. -/
def Settles (s s' : PoolState T I) (t : T) : Prop :=
  (s'.offer = s.offer ∧ ∀ i, ¬ Departs s s' t (.isle i)) ∨
    ∃ i, Departs s s' t (.isle i) ∧ s'.offer = s.offer.handOut i

namespace Settles

variable {s s' : PoolState T I} {t : T}

lemma goesOn (hoffer : s'.offer = s.offer) {q : PoolPc I} (hpc : s'.pc t = q) (hq : q ≠ .rest) :
    Settles s s' t :=
  Or.inl ⟨hoffer, fun _ hd => hq (hpc.symm.trans hd.back)⟩

lemma leaves (hoffer : s'.offer = s.offer) {o : Outcome I} (hout : s'.outcome t = some o)
    (ho : ∀ i, o ≠ .isle i) : Settles s s' t :=
  Or.inl ⟨hoffer, fun i hd => ho i (Option.some.inj (hout.symm.trans hd.outcome))⟩

end Settles

lemma settles_of_lock {s s' : PoolState T I} {t : T} (hacc : Accounted cfg s)
    (hs : PoolStep cfg s (.lock t) s') (hin : (s.pc t).inCheckout = true)
    (hsafe : s'.poisoned = false) : Settles s s' t := by
  have hgrowing := growing_le hacc
  have entered {o : Option Patience} (h : (s.pc t).entering cfg.horizon s.now = some o)
      {q : PoolPc I} {u : PoolState T I} (hu : u.pc = Function.update s.pc t q)
      (hq : q.factoryCall = 0) : u.growing = s.growing :=
    growing_move (p := s.pc t) rfl hu (hq.trans (factoryCall_of_entering h).symm)
  cases hs with
  | lockPoisoned _ _ hpc =>
    obtain ⟨o, ho⟩ := Option.ne_none_iff_exists'.mp hpc
    exact .leaves (offer_keep rfl rfl rfl (entered ho rfl rfl)) (Function.update_self _ _ _)
      (by simp)
  | lockOverflow => cases hsafe
  | lockClosed _ _ hpc =>
    exact .leaves (offer_keep rfl rfl rfl (entered hpc rfl rfl)) (Function.update_self _ _ _)
      (by simp)
  | @acquireIsle _ _ i inner _ _ hpc _ hacquire =>
    obtain ⟨htaken, hact, hclosed, halive⟩ := tryAcquire_isle hacquire
    have hlive : s.offer.live = i :: inner.idle.filter s.alive := filter_of_taken htaken halive
    refine Or.inr ⟨i, ⟨hin, Function.update_self _ _ _, Function.update_self _ _ _⟩,
      offer_handOut ?_ hclosed rfl rfl ?_⟩
    · rw [hlive, List.erase_cons_head]
    · rw [entered hpc rfl rfl]
      dsimp only
      omega
  | acquireGrow _ _ hpc hopen hacquire =>
    obtain ⟨hskipped, hempty, -, hact, hclosed⟩ := tryAcquire_grow hacquire
    refine .goesOn (offer_eq ?_ hclosed rfl rfl ?_) (Function.update_self _ _ _) (by simp)
    · rw [hempty, filter_of_skipped hskipped]
      rfl
    · rw [← growing_taken (factoryCall_of_entering hpc) rfl]
      dsimp only
      omega
  | acquireNeedWait _ _ hpc hopen hacquire =>
    obtain ⟨hskipped, hempty, -, hact, hclosed⟩ := tryAcquire_needWait hacquire
    refine .goesOn (offer_eq ?_ hclosed rfl rfl ?_) (Function.update_self _ _ _) (by simp)
    · rw [hempty, filter_of_skipped hskipped]
      rfl
    · rw [entered hpc rfl rfl]
      dsimp only
      rw [hact]

lemma settles_of_step {s s' : PoolState T I} {l : PoolLabel T I} {t : T} (hacc : Accounted cfg s)
    (hidle : ∀ i, s.created i = false → i ∉ s.inner.idle) (hs : PoolStep cfg s l s')
    (hl : l.thread? = some t) (hin : (s.pc t).inCheckout = true) (hsafe : s'.poisoned = false)
    (hpanic : l ≠ .factoryPanic t) : Settles s s' t := by
  have hstep := hs
  have hgrowing := growing_le hacc
  have outside {p : PoolPc I} (hpc : s.pc t = p) (hp : p.inCheckout = false) : False := by
    rw [hpc, hp] at hin
    cases hin
  cases hs with
  | lockPoisoned | lockOverflow | lockClosed | acquireIsle | acquireGrow | acquireNeedWait =>
    cases hl
    exact settles_of_lock hacc hstep hin hsafe
  | sleep hpc | spurious hpc | elapsed hpc | factoryErr hpc =>
    cases hl
    exact .goesOn (offer_keep rfl rfl rfl (growing_move hpc rfl rfl)) (Function.update_self _ _ _)
      (by simp)
  | refuse hpc hrefusal =>
    cases hl
    exact .leaves (offer_keep rfl rfl rfl (growing_move hpc rfl rfl)) (Function.update_self _ _ _)
      (fun i => by rcases refusal_cases hrefusal with rfl | rfl <;> simp)
  | @factoryOk _ i hpc hfresh =>
    cases hl
    refine Or.inr ⟨i, ⟨hin, Function.update_self _ _ _, Function.update_self _ _ _⟩,
      offer_handOut ?_ rfl rfl rfl ?_⟩
    · refine (List.erase_of_not_mem (fun hmem => hidle i hfresh ?_)).symm
      exact List.mem_of_mem_filter hmem
    · have hpos := growing_pos hpc rfl
      rw [growing_free hpc rfl rfl]
      dsimp only [PoolState.leave]
      omega
  | factoryPanic =>
    cases hl
    exact absurd rfl hpanic
  | decActive _ hpc hnotify =>
    cases hl
    have hpos := growing_pos hpc rfl
    refine .leaves (offer_eq rfl rfl rfl rfl ?_) (Function.update_self _ _ _) (by simp)
    rw [growing_free hpc rfl (hnotify.tally_eq (w := PoolPc.factoryCall) (fun _ => rfl))]
    dsimp only
    omega
  | callCheckout _ hpc | callRead _ hpc | callShutdown hpc | dropGuard hpc | returnEnd hpc
  | drain hpc | drainEnd hpc | shutdownEnd hpc =>
    cases hl
    exact (outside hpc rfl).elim
  | returnIdle _ hpc | returnDead _ hpc | returnClosed _ hpc | read _ hpc | shutdown _ hpc =>
    cases hl
    exact (outside hpc rfl).elim
  | tick | isleExit | isleFinish | guardShutdown | jobStart | jobEnd => cases hl

lemma not_idle_of_fresh {s : PoolState T I} (h : (pool cfg).Reachable s) {i : I}
    (hfresh : s.created i = false) : i ∉ s.inner.idle := by
  have hplace := (custody_reachable h i).place
  rw [hfresh] at hplace
  intro hmem
  have hpos := List.count_pos_iff.mpr hmem
  simp only [Bool.false_eq_true, if_false] at hplace
  omega

lemma not_unwound {s s' : PoolState T I} {l : PoolLabel T I} {t : T} (hs : PoolStep cfg s l s')
    (hP : Representable cfg s l) (hpanic : l ≠ .factoryPanic t) : ¬ Departs s s' t .unwound := by
  intro hd
  cases departure_of_step hs hd with
  | overflow _ hpc =>
    obtain ⟨timeout, hat, hover⟩ := entering_eq_none hpc
    exact absurd (hP timeout hat) (Nat.not_le.mpr hover)
  | refused _ hrefusal => rcases refusal_cases hrefusal with h | h <;> cases h
  | unwound => exact hpanic rfl

/-- As long as the deadlines are representable, a checkout of any timeout is harmless; a later
round finds out nothing but the offer; and a deadline that is not representable poisons the lock. -/
theorem checkout_timeout_safe :
    TimeoutSafe (T := T) (I := I) cfg (Representable cfg) ∧
    (∀ (s s' : PoolState T I) t o, (pool cfg).Reachable s →
      (s.pc t).entering cfg.horizon s.now = some o → PoolStep cfg s (.lock t) s' →
      ComesTo s' t (s.offer.attempt cfg.maxSize s.growing o)) ∧
    (∀ (s s' : PoolState T I) t timeout, s.poisoned = false →
      s.pc t = .locking (.checkoutTimeout timeout) → PoolStep cfg s (.lock t) s' →
      (s'.poisoned = false ↔ s.now + timeout ≤ cfg.horizon)) := by
  refine ⟨?_, fun s s' t o h hpc hs => attempt_of_lock (accounted_reachable h) hpc hs, ?_⟩
  · intro s l s' t hvia hP hs hl hin
    have hsafe := unpoisoned_via (hvia.tail hs hP)
    have hsettles (hpanic : l ≠ .factoryPanic t) : Settles s s' t :=
      settles_of_step (accounted_reachable hvia.reachable)
        (fun i => not_idle_of_fresh hvia.reachable) hs hl hin hsafe hpanic
    refine ⟨hsafe, not_unwound hs hP, fun hpanic hnone => ?_, fun i hd => ?_⟩
    · rcases hsettles hpanic with ⟨hsame, -⟩ | ⟨i, hd, -⟩
      · exact hsame
      · exact absurd hd (hnone i)
    · have hpanic : l ≠ .factoryPanic t := by
        rintro rfl
        cases departure_of_step hs hd
      rcases hsettles hpanic with ⟨-, hnone⟩ | ⟨k, hk, hoffer⟩
      · exact absurd hd (hnone i)
      · have hki : some (Outcome.isle k) = some (.isle i) := hk.outcome.symm.trans hd.outcome
        cases hki
        exact hoffer
  · intro s s' t timeout hsound hpc hs
    have hentering : (s.pc t).entering cfg.horizon s.now =
        some ((Checkout.checkoutTimeout timeout).patience cfg.horizon s.now) := by
      rw [hpc]
      rfl
    by_cases hle : s.now + timeout ≤ cfg.horizon
    · refine iff_of_true ?_ hle
      cases hs with
      | lockOverflow _ _ hat =>
        rw [hat, Checkout.patience, if_pos hle] at hentering
        cases hentering
      | lockPoisoned | lockClosed | acquireIsle | acquireGrow | acquireNeedWait => exact hsound
    · refine iff_of_false ?_ hle
      have unwinds {w : Patience} (hat : (s.pc t).entering cfg.horizon s.now = some (some w)) :
          False := by
        rw [hat, Checkout.patience, if_neg hle] at hentering
        cases hentering
      cases hs with
      | lockOverflow => exact Bool.noConfusion
      | lockPoisoned _ hpoison =>
        rw [hsound] at hpoison
        cases hpoison
      | lockClosed _ _ hat | acquireIsle _ _ hat | acquireGrow _ _ hat
      | acquireNeedWait _ _ hat => exact (unwinds hat).elim

/-- A timeout that ends at the last instant, with the only isle in use, is reported as such. -/
theorem checkout_timeout_safe_last : ∃ s s' : PoolState Bool Bool,
    s.pc true = .needWait (.deadline 100) ∧ s'.outcome true = some (.error .timeout) ∧
      s'.offer = s.offer := by
  have r0 := TransitionSystem.Reachable.refl (T := pool (T := Bool) (I := Bool) oneIsle)
  have h0 := r0.here_via (Representable oneIsle)
  have h1 := h0.tail (.callCheckout (t := false) .checkout rfl) trivial
  have h2 := h1.tail (.acquireGrow (t := false) rfl rfl rfl rfl rfl) (fun timeout h => by cases h)
  have h3 := h2.tail (.factoryOk (t := false) (i := true) rfl rfl) trivial
  have h4 := h3.tail (.callCheckout (t := true) (.checkoutTimeout 100) rfl) trivial
  have h5 := h4.tail (.acquireNeedWait (t := true) rfl rfl rfl rfl rfl)
    (fun timeout h => by cases h; decide)
  have h6 := h5.tail (@PoolStep.tick _ _ _ _ oneIsle _ 100 (by decide) (by decide)) trivial
  have hharmless := (@checkout_timeout_safe Bool Bool _ _ _ oneIsle).1 _
    (.decide true) _ true h6 trivial (.refuse (t := true) rfl rfl) rfl rfl
  refine ⟨_, _, rfl, rfl, hharmless.kept (by simp) (fun i hd => ?_)⟩
  have hout := hd.outcome
  cases hout

/-- A timeout beyond the last instant unwinds under the lock. -/
theorem checkout_timeout_poisons :
    ¬ TimeoutSafe (T := Bool) (I := Bool) twoIsles (fun _ _ => True) := by
  intro h
  have h0 : (pool (T := Bool) (I := Bool) twoIsles).ReachableVia (fun _ _ => True) _ :=
    TransitionSystem.RunVia.refl _
  have h1 := h0.tail (.callCheckout (t := true) (.checkoutTimeout 101) rfl) trivial
  have hsafe := (h _ _ _ true h1 trivial (.lockOverflow (t := true) rfl rfl rfl) rfl rfl).unpoisoned
  cases hsafe

end RusqliteIsle
