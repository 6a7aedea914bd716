import RusqliteIsle.Pool.Deadlock

/-!
# Threads go through the pool's code

A method of the pool is a few critical sections and, for a checkout, rounds of them with a wait or a
call of the factory in between. Within a round a thread only goes forward, and it can go on when the
lock is free, or at once if it holds the lock and is not inside `Isle::shutdown`.
-/

namespace RusqliteIsle

set_option linter.unusedSectionVars false

namespace PoolPc

variable {I : Type}

/-- Whether the thread is on its way through the pool's code: it neither waits on the condition
variable nor for the factory. -/
def underWay : PoolPc I → Bool
  | rest | blocked _ | factory => false
  | _ => true

/-- How much a thread has still to do in this round. Nobody knows how many isles a shutdown is going
to find. -/
def left : PoolPc I → ℕ × ℕ
  | rest | blocked _ | factory => (0, 0)
  | needWait _ | failed _ | returnShutdown _ | reading _ => (0, 1)
  | locking _ | woken _ | returning _ => (0, 2)
  | draining queue => (0, 2 * queue.length + 1)
  | drainShutdown _ queue => (0, 2 * queue.length + 2)
  | shutting => (1, 0)

/-- Whether the method the thread is in does not wait for an isle. -/
def prompt : PoolPc I → Bool
  | locking call => call = .tryCheckout
  | needWait w | woken w => w = .never
  | blocked _ => false
  | _ => true

/-- Where a thread goes from a position. -/
inductive Next (horizon now : ℕ) : PoolPc I → PoolPc I → Prop
  | checkout {call : Checkout} : Next horizon now rest (locking call)
  | drop {i : I} : Next horizon now rest (returning i)
  | read {q : Query} : Next horizon now rest (reading q)
  | shut : Next horizon now rest shutting
  | leave {p : PoolPc I} (h : p.underWay = true) : Next horizon now p rest
  | grow {p : PoolPc I} (h : p.entering horizon now ≠ none) : Next horizon now p factory
  | wait {p : PoolPc I} {w : Patience} (h : p.entering horizon now = some (some w)) :
      Next horizon now p (needWait w)
  | sleep {w : Patience} (h : w.refusal (I := I) now = none) :
      Next horizon now (needWait w) (blocked w)
  | wake {w : Patience} : Next horizon now (blocked w) (woken w)
  | made : Next horizon now factory rest
  | fail {e : IsleError} : Next horizon now factory (failed e)
  | close {i : I} : Next horizon now (returning i) (returnShutdown i)
  | begin {queue : List I} : Next horizon now shutting (draining queue)
  | drain {i : I} {queue : List I} :
      Next horizon now (draining (i :: queue)) (drainShutdown i queue)
  | drained {i : I} {queue : List I} : Next horizon now (drainShutdown i queue) (draining queue)

/-- One position has less left to do than another. -/
def Ahead (p q : PoolPc I) : Prop := Prod.Lex (· < ·) (· < ·) p.left q.left

lemma ahead_wf : WellFounded (Ahead (I := I)) :=
  InvImage.wf left (WellFounded.prod_lex wellFounded_lt wellFounded_lt)

lemma Next.ahead {horizon now : ℕ} {p q : PoolPc I} (h : Next horizon now p q)
    (hp : p.underWay = true) : q.Ahead p := by
  have fewer {m n : ℕ} (h : m < n) : Prod.Lex (· < ·) (· < ·) (0, m) (0, n) := Prod.Lex.right 0 h
  cases h with
  | checkout | drop | read | shut | wake | made | fail => cases hp
  | leave =>
    cases p with
    | rest | blocked | factory => cases hp
    | shutting => exact Prod.Lex.left _ _ Nat.one_pos
    | _ => exact fewer (by simp)
  | grow hp =>
    rcases entering_cases hp with ⟨call, rfl⟩ | ⟨w, rfl⟩ <;> exact fewer (by simp)
  | wait hp =>
    have hne : p.entering horizon now ≠ none := by simp [hp]
    rcases entering_cases hne with ⟨call, rfl⟩ | ⟨w, rfl⟩ <;> exact fewer (by simp)
  | sleep | close | drained => exact fewer (by simp)
  | begin => exact Prod.Lex.left _ _ Nat.one_pos
  | drain => exact fewer (by simp only [List.length_cons]; omega)

lemma Next.prompt {horizon now : ℕ} {p q : PoolPc I} (h : Next horizon now p q)
    (hway : p.underWay = true) (hp : p.prompt = true) : q.prompt = true := by
  cases h with
  | checkout | drop | read | shut => cases hway
  | wake => cases hp
  | leave | grow | made | fail | close | begin | drain | drained => rfl
  | @wait _ w hw =>
    have hne : p.entering horizon now ≠ none := by simp [hw]
    rcases entering_cases hne with ⟨call, rfl⟩ | ⟨w', rfl⟩
    · obtain rfl : call = .tryCheckout := by simpa [PoolPc.prompt] using hp
      cases hw
      rfl
    · cases hw
      exact hp
  | sleep hw =>
    simp only [PoolPc.prompt, decide_eq_true_eq] at hp
    subst hp
    cases hw

/-- Whether the thread is out of its call, or has only a slot to give back. -/
def givesUp : PoolPc I → Bool
  | rest | failed _ => true
  | _ => false

lemma Next.givesUp {horizon now : ℕ} {p q : PoolPc I} (h : Next horizon now p q)
    (hway : p.underWay = true) (hp : p.givesUp = true) : q.givesUp = true := by
  cases h with
  | checkout | drop | read | shut => cases hway
  | leave | made | fail => rfl
  | grow hround =>
    rcases entering_cases hround with ⟨call, rfl⟩ | ⟨w, rfl⟩ <;> cases hp
  | wait hround =>
    have hne : p.entering horizon now ≠ none := by simp [hround]
    rcases entering_cases hne with ⟨call, rfl⟩ | ⟨w, rfl⟩ <;> cases hp
  | wake | sleep | close | begin | drain | drained => cases hp

lemma Next.of_factory {horizon now : ℕ} {q : PoolPc I} (h : Next horizon now factory q) :
    q.givesUp = true := by
  cases h with
  | leave | made | fail => rfl
  | grow h => exact absurd rfl h
  | wait h => cases h

lemma Next.of_blocked {horizon now : ℕ} {w : Patience} {q : PoolPc I}
    (h : Next horizon now (blocked w) q) : q = woken w := by
  cases h with
  | wake => rfl
  | leave h => cases h
  | grow h => exact absurd rfl h
  | wait h => cases h

lemma rest_of_givesUp {p : PoolPc I} (hp : p.givesUp = true) (hout : p.underWay = false) :
    p = rest := by
  cases p with
  | rest => rfl
  | failed => cases hout
  | _ => cases hp

/-- The deadline of a thread that has waited or may come to wait until then. -/
def deadline? : PoolPc I → Option ℕ
  | needWait w | blocked w | woken w => match w with
    | .deadline instant => some instant
    | _ => none
  | _ => none

lemma Next.of_timeout {horizon now timeout : ℕ} {q : PoolPc I}
    (h : Next horizon now (locking (.checkoutTimeout timeout)) q) :
    (∃ d, q.deadline? = some d) ∨ q = rest ∨ q = factory := by
  cases h with
  | leave => exact Or.inr (Or.inl rfl)
  | grow => exact Or.inr (Or.inr rfl)
  | wait hround =>
    simp only [entering, Checkout.patience, Option.some.injEq] at hround
    split at hround
    · cases hround
      exact Or.inl ⟨now + timeout, rfl⟩
    · cases hround

lemma Next.deadline {horizon now d : ℕ} {p q : PoolPc I} (h : Next horizon now p q)
    (hp : p.deadline? = some d) : q.deadline? = some d ∨ q = rest ∨ q = factory := by
  cases h with
  | checkout | drop | read | shut | made | fail => cases hp
  | leave => exact Or.inr (Or.inl rfl)
  | grow => exact Or.inr (Or.inr rfl)
  | wait hround =>
    have hne : p.entering horizon now ≠ none := by simp [hround]
    rcases entering_cases hne with ⟨call, rfl⟩ | ⟨w', rfl⟩
    · cases hp
    · cases hround
      exact Or.inl hp
  | sleep | wake => exact Or.inl hp
  | close | begin | drain | drained => cases hp

lemma Next.deadline_le {horizon now d : ℕ} {p q : PoolPc I} (h : Next horizon now p q)
    (hp : ∀ d, p.deadline? = some d → d ≤ horizon) (hq : q.deadline? = some d) : d ≤ horizon := by
  cases h with
  | @wait _ w hround =>
    have hne : p.entering horizon now ≠ none := by simp [hround]
    rcases entering_cases hne with ⟨call, rfl⟩ | ⟨w', rfl⟩
    · cases call with
      | checkout | tryCheckout =>
        cases hround
        cases hq
      | checkoutTimeout timeout =>
        simp only [entering, Checkout.patience, Option.some.injEq] at hround
        split at hround
        · next hle =>
          cases hround
          cases hq
          exact hle
        · cases hround
    · cases hround
      exact hp d hq
  | sleep | wake => exact hp d hq
  | checkout | drop | read | shut | leave | grow | made | fail | close | begin | drain | drained =>
    cases hq

lemma Next.late {horizon now d : ℕ} {p : PoolPc I} {w : Patience}
    (h : Next horizon now p (blocked w)) (hp : p.deadline? = some d) : now < d := by
  cases h with
  | sleep hrefusal =>
    cases w with
    | forever | never => cases hp
    | deadline instant =>
      cases hp
      by_contra hlate
      simp [Patience.refusal, Nat.le_of_not_lt hlate] at hrefusal

lemma rest_or_factory {p : PoolPc I} (hblocked : ∀ w, p ≠ blocked w) (hout : p.underWay = false) :
    p = rest ∨ p = factory := by
  cases p with
  | rest => exact Or.inl rfl
  | factory => exact Or.inr rfl
  | blocked w => exact absurd rfl (hblocked w)
  | _ => cases hout

lemma underWay_cases {p : PoolPc I} (h : p.underWay = true) :
    p.waitsForLock = true ∨ p.holdsLock = true ∧ p.shuttingDown? = none ∨
      ∃ i, p.shuttingDown? = some i := by
  cases p with
  | rest | blocked | factory => cases h
  | locking | woken | failed | returning | reading | shutting => exact Or.inl rfl
  | needWait | draining => exact Or.inr (Or.inl ⟨rfl, rfl⟩)
  | returnShutdown i | drainShutdown i => exact Or.inr (Or.inr ⟨i, rfl⟩)

end PoolPc

/-- The actions by which the thread goes through the pool's code. -/
def PoolLabel.goesOn {T I : Type} (t : T) : PoolLabel T I → Prop
  | lock u | decide u | decActive u | returnIsle u | read u | shutdown u | drain u
  | shutdownEnd u => u = t
  | _ => False

variable {T I : Type} [DecidableEq T] [DecidableEq I] {cfg : PoolConfig}

/-- What a step does to a thread: nothing, or it takes it to one of the next positions. -/
lemma next_step {s s' : PoolState T I} {l : PoolLabel T I} {t : T} (hs : PoolStep cfg s l s') :
    s'.pc t = s.pc t ∨ (s.pc t).Next cfg.horizon s.now (s'.pc t) := by
  have goes {p q : PoolPc I} (hpc : s.pc t = p) (hpc' : s'.pc t = q)
      (hnext : p.Next cfg.horizon s.now q) :
      s'.pc t = s.pc t ∨ (s.pc t).Next cfg.horizon s.now (s'.pc t) := by
    rw [hpc, hpc']
    exact Or.inr hnext
  by_cases hl : l.thread? = some t
  swap
  · rcases pc_step hs hl with heq | ⟨w, hblocked, hwoken⟩
    · exact Or.inl heq
    · exact goes hblocked hwoken .wake
  have leaves {p : PoolPc I} (hpc : s.pc t = p) (hp : p.underWay = true) (hpc' : s'.pc t = .rest) :
      s'.pc t = s.pc t ∨ (s.pc t).Next cfg.horizon s.now (s'.pc t) :=
    goes hpc hpc' (.leave hp)
  have ends (h : (s.pc t).entering cfg.horizon s.now ≠ none) (hpc' : s'.pc t = .rest) :
      s'.pc t = s.pc t ∨ (s.pc t).Next cfg.horizon s.now (s'.pc t) := by
    rcases PoolPc.entering_cases h with ⟨call, hpc⟩ | ⟨w, hpc⟩ <;> exact leaves hpc rfl hpc'
  cases hs with
  | callCheckout _ hpc =>
    cases hl
    exact goes hpc (Function.update_self _ _ _) .checkout
  | callRead _ hpc =>
    cases hl
    exact goes hpc (Function.update_self _ _ _) .read
  | callShutdown hpc =>
    cases hl
    exact goes hpc (Function.update_self _ _ _) .shut
  | dropGuard hpc =>
    cases hl
    exact goes hpc (Function.update_self _ _ _) .drop
  | spurious hpc | elapsed hpc =>
    cases hl
    exact goes hpc (Function.update_self _ _ _) .wake
  | factoryOk hpc | factoryPanic hpc =>
    cases hl
    exact goes hpc (Function.update_self _ _ _) .made
  | factoryErr hpc =>
    cases hl
    exact goes hpc (Function.update_self _ _ _) .fail
  | lockPoisoned _ _ hpc =>
    cases hl
    exact ends hpc (Function.update_self _ _ _)
  | lockOverflow _ _ hpc | lockClosed _ _ hpc | acquireIsle _ _ hpc =>
    cases hl
    exact ends (by simp [hpc]) (Function.update_self _ _ _)
  | refuse hpc =>
    cases hl
    exact leaves hpc rfl (Function.update_self _ _ _)
  | read _ hpc =>
    cases hl
    exact leaves hpc rfl (Function.update_self _ _ _)
  | decActive _ hpc hnotify | returnIdle _ hpc _ _ hnotify | returnDead _ hpc _ _ hnotify =>
    cases hl
    exact leaves hpc rfl hnotify.at_rest
  | returnEnd hpc _ hnotify =>
    cases hl
    exact leaves hpc rfl hnotify.at_rest
  | shutdownEnd hpc =>
    cases hl
    exact leaves hpc rfl (by simp [notifyAll])
  | acquireGrow _ _ hpc =>
    cases hl
    exact goes rfl (Function.update_self _ _ _) (.grow (by simp [hpc]))
  | acquireNeedWait _ _ hpc =>
    cases hl
    exact goes rfl (Function.update_self _ _ _) (.wait hpc)
  | sleep hpc hsleep =>
    cases hl
    exact goes hpc (Function.update_self _ _ _) (.sleep hsleep)
  | returnClosed _ hpc =>
    cases hl
    exact goes hpc (Function.update_self _ _ _) .close
  | shutdown _ hpc =>
    cases hl
    exact goes hpc (Function.update_self _ _ _) .begin
  | drain hpc =>
    cases hl
    exact goes hpc (Function.update_self _ _ _) .drain
  | drainEnd hpc =>
    cases hl
    exact goes hpc (Function.update_self _ _ _) .drained
  | tick | isleExit | isleFinish | guardShutdown | jobStart | jobEnd => cases hl

lemma now_step {s s' : PoolState T I} {l : PoolLabel T I} (hs : PoolStep cfg s l s') :
    s.now ≤ s'.now := by
  cases hs with
  | tick hlater => exact hlater
  | _ => exact le_rfl

lemma goesOn_leaves {s s' : PoolState T I} {l : PoolLabel T I} {t : T} (hs : PoolStep cfg s l s')
    (hl : l.goesOn t) : s'.pc t ≠ s.pc t := by
  have moved {p q : PoolPc I} (hpc : s.pc t = p) (hpc' : s'.pc t = q) (hne : q ≠ p) :
      s'.pc t ≠ s.pc t := by
    rwa [hpc, hpc']
  have entered {q : PoolPc I} (h : (s.pc t).entering cfg.horizon s.now ≠ none) (hpc' : s'.pc t = q)
      (hq : q.entering cfg.horizon s.now = none) : s'.pc t ≠ s.pc t := by
    intro heq
    rw [← heq, hpc'] at h
    exact h hq
  cases hs with
  | lockPoisoned _ _ hpc =>
    cases hl
    exact entered hpc (Function.update_self _ _ _) rfl
  | lockOverflow _ _ hpc | lockClosed _ _ hpc | acquireIsle _ _ hpc | acquireGrow _ _ hpc
  | acquireNeedWait _ _ hpc =>
    cases hl
    exact entered (by simp [hpc]) (Function.update_self _ _ _) rfl
  | sleep hpc | refuse hpc | drain hpc =>
    cases hl
    exact moved hpc (Function.update_self _ _ _) (by simp)
  | read _ hpc | returnClosed _ hpc | shutdown _ hpc =>
    cases hl
    exact moved hpc (Function.update_self _ _ _) (by simp)
  | decActive _ hpc hnotify | returnIdle _ hpc _ _ hnotify | returnDead _ hpc _ _ hnotify =>
    cases hl
    exact moved hpc hnotify.at_rest (by simp)
  | shutdownEnd hpc =>
    cases hl
    exact moved hpc (q := .rest) (by simp [notifyAll]) (by simp)
  | _ => exact hl.elim

lemma underWay_of_goesOn {s s' : PoolState T I} {l : PoolLabel T I} {t : T}
    (hs : PoolStep cfg s l s') (hl : l.goesOn t) : (s.pc t).underWay = true := by
  have entered (h : (s.pc t).entering cfg.horizon s.now ≠ none) : (s.pc t).underWay = true := by
    rcases PoolPc.entering_cases h with ⟨call, hpc⟩ | ⟨w, hpc⟩ <;> rw [hpc] <;> rfl
  cases hs with
  | lockPoisoned _ _ hpc =>
    cases hl
    exact entered hpc
  | lockOverflow _ _ hpc | lockClosed _ _ hpc | acquireIsle _ _ hpc | acquireGrow _ _ hpc
  | acquireNeedWait _ _ hpc =>
    cases hl
    exact entered (by simp [hpc])
  | sleep hpc | refuse hpc | drain hpc | shutdownEnd hpc =>
    cases hl
    rw [hpc]
    rfl
  | read _ hpc | returnClosed _ hpc | shutdown _ hpc | decActive _ hpc | returnIdle _ hpc
  | returnDead _ hpc =>
    cases hl
    rw [hpc]
    rfl
  | _ => exact hl.elim

lemma deadline_le_horizon {s : PoolState T I} (h : (pool cfg).Reachable s) {t : T} {d : ℕ}
    (hd : (s.pc t).deadline? = some d) : d ≤ cfg.horizon := by
  refine TransitionSystem.Reachable.invariant
    (I := fun s => ∀ d, (s.pc t).deadline? = some d → d ≤ cfg.horizon) (fun d h => by cases h) ?_ h d hd
  intro s l s' hi hs d hd
  rcases next_step (t := t) hs with heq | hnext
  · exact hi d (heq ▸ hd)
  · exact hnext.deadline_le hi hd

/-! ## When a thread can go on -/

lemma exists_notifyOne (pc : T → PoolPc I) : ∃ pc', NotifyOne pc pc' := by
  by_cases h : ∃ t w, pc t = .blocked w
  · obtain ⟨t, w, hblocked⟩ := h
    exact ⟨_, .wake hblocked⟩
  · exact ⟨pc, .none (by simpa using h)⟩

lemma goesOn_of_free {s : PoolState T I} {t : T} (hlock : s.lock = none)
    (ht : (s.pc t).waitsForLock = true) : ∃ l s', l.goesOn t ∧ PoolStep cfg s l s' := by
  -- a round of a checkout
  have enters (h : (s.pc t).entering cfg.horizon s.now ≠ none) :
      ∃ l s', l.goesOn t ∧ PoolStep cfg s l s' := by
    cases hpoison : s.poisoned with
    | true => exact ⟨.lock t, _, rfl, .lockPoisoned hlock hpoison h⟩
    | false =>
      obtain ⟨o, hpc⟩ := Option.ne_none_iff_exists'.mp h
      cases o with
      | none => exact ⟨.lock t, _, rfl, .lockOverflow hlock hpoison hpc⟩
      | some w =>
        cases hclosed : s.inner.closed with
        | true => exact ⟨.lock t, _, rfl, .lockClosed hlock hpoison hpc hclosed⟩
        | false =>
          obtain ⟨a, inner, hacquire⟩ :
              ∃ a inner, tryAcquire cfg.maxSize s.alive s.inner = (a, inner) := ⟨_, _, rfl⟩
          cases a with
          | isle i => exact ⟨.lock t, _, rfl, .acquireIsle hlock hpoison hpc hclosed hacquire⟩
          | grow => exact ⟨.lock t, _, rfl, .acquireGrow hlock hpoison hpc hclosed hacquire⟩
          | needWait => exact ⟨.lock t, _, rfl, .acquireNeedWait hlock hpoison hpc hclosed hacquire⟩
  cases hpc : s.pc t with
  | locking | woken => exact enters (by simp [hpc, PoolPc.entering])
  | failed e =>
    obtain ⟨pc', hnotify⟩ := exists_notifyOne (s.leave t (.error e)).pc
    exact ⟨.decActive t, _, rfl, .decActive hlock hpc hnotify⟩
  | returning i =>
    obtain ⟨pc', hnotify⟩ := exists_notifyOne (Function.update s.pc t .rest)
    cases hclosed : s.inner.closed with
    | true => exact ⟨.returnIsle t, _, rfl, .returnClosed hlock hpc hclosed⟩
    | false =>
      cases halive : s.alive i with
      | true => exact ⟨.returnIsle t, _, rfl, .returnIdle hlock hpc hclosed halive hnotify⟩
      | false => exact ⟨.returnIsle t, _, rfl, .returnDead hlock hpc hclosed halive hnotify⟩
  | reading q => exact ⟨.read t, _, rfl, .read hlock hpc⟩
  | shutting => exact ⟨.shutdown t, _, rfl, .shutdown hlock hpc⟩
  | _ =>
    rw [hpc] at ht
    cases ht

lemma goesOn_of_holds {s : PoolState T I} {t : T} (hholds : (s.pc t).holdsLock = true)
    (ht : (s.pc t).shuttingDown? = none) : ∃ l s', l.goesOn t ∧ PoolStep cfg s l s' := by
  cases hpc : s.pc t with
  | needWait w =>
    cases hrefusal : w.refusal (I := I) s.now with
    | none => exact ⟨.decide t, _, rfl, .sleep hpc hrefusal⟩
    | some o => exact ⟨.decide t, _, rfl, .refuse hpc hrefusal⟩
  | draining queue =>
    cases queue with
    | nil => exact ⟨.shutdownEnd t, _, rfl, .shutdownEnd hpc⟩
    | cons i queue => exact ⟨.drain t, _, rfl, .drain hpc⟩
  | returnShutdown | drainShutdown =>
    rw [hpc] at ht
    cases ht
  | _ =>
    rw [hpc] at hholds
    cases hholds

lemma ends_of_returns {s : PoolState T I} {t : T} {i : I} (ht : (s.pc t).shuttingDown? = some i)
    (hreturns : (s.isles i).shutdownReturns = true) :
    ∃ l s', (l = .returnEnd t ∨ l = .drainEnd t) ∧ PoolStep cfg s l s' := by
  cases hpc : s.pc t with
  | returnShutdown k =>
    obtain ⟨pc', hnotify⟩ := exists_notifyOne (Function.update s.pc t .rest)
    rw [hpc] at ht
    cases ht
    exact ⟨_, _, Or.inl rfl, .returnEnd hpc hreturns hnotify⟩
  | drainShutdown k queue =>
    rw [hpc] at ht
    cases ht
    exact ⟨_, _, Or.inr rfl, .drainEnd hpc hreturns⟩
  | _ =>
    rw [hpc] at ht
    cases ht

lemma holder_step {s s' : PoolState T I} {l : PoolLabel T I}
    (hi : ∀ t, s.lock = some t → (s.pc t).holdsLock = true) (hs : PoolStep cfg s l s') (t : T)
    (ht : s'.lock = some t) : (s'.pc t).holdsLock = true := by
  -- the holder stays where it is while others move
  have stays (hlock : s.lock = some t) (hl : l.thread? ≠ some t) : (s'.pc t).holdsLock = true := by
    rcases pc_step hs hl with heq | ⟨w, hblocked, -⟩
    · rw [heq]
      exact hi t hlock
    · have hholds := hi t hlock
      rw [hblocked] at hholds
      cases hholds
  have aside {u : T} (hlock : s.lock = some t) (hl : l.thread? = some u)
      (hu : (s.pc u).holdsLock = false) : (s'.pc t).holdsLock = true := by
    refine stays hlock (fun hut => ?_)
    obtain rfl : u = t := Option.some.inj (hl.symm.trans hut)
    rw [hi u hlock] at hu
    cases hu
  have free {p : Prop} (h : s.lock = none) (ht : s.lock = some t) : p := by
    rw [h] at ht
    cases ht
  cases hs with
  | acquireNeedWait | returnClosed | shutdown =>
    cases ht
    simp [PoolPc.holdsLock]
  | sleep | refuse | returnEnd | shutdownEnd => cases ht
  | @drain u _ _ hpc | @drainEnd u _ _ hpc =>
    by_cases hut : u = t
    · subst hut
      simp [PoolPc.holdsLock]
    · exact stays ht (fun h => hut (Option.some.inj h))
  | lockPoisoned hlock | lockOverflow hlock | lockClosed hlock | acquireIsle hlock
  | acquireGrow hlock | decActive hlock | returnIdle hlock | returnDead hlock | read hlock =>
    exact free hlock ht
  | callCheckout _ hpc | callRead _ hpc | callShutdown hpc | dropGuard hpc | spurious hpc
  | elapsed hpc | factoryOk hpc | factoryErr hpc | factoryPanic hpc =>
    exact aside ht rfl (by rw [hpc]; rfl)
  | tick | isleExit | isleFinish | guardShutdown | jobStart | jobEnd => exact hi t ht

lemma holder_of_taken {s : PoolState T I} (h : (pool cfg).Reachable s) {t : T}
    (hlock : s.lock = some t) : (s.pc t).holdsLock = true :=
  TransitionSystem.Reachable.invariant (I := fun s => ∀ t, s.lock = some t → (s.pc t).holdsLock = true)
    (fun _ h => by cases h) (fun _ _ _ hi hs => holder_step hi hs) h t hlock

end RusqliteIsle
