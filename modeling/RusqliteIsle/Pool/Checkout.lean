import RusqliteIsle.Pool.Lock

/-!
# How a checkout comes back

A call of `checkout`, `try_checkout` or `checkout_timeout` comes back from one of six places of
the code: the lock, the decision to wait, the factory's three ends, and `dec_active`. `Departure`
lists them with what the call has found there.
-/

namespace RusqliteIsle

set_option linter.unusedSectionVars false

variable {T I : Type} [DecidableEq T] [DecidableEq I] {cfg : PoolConfig}

/-- Whether the thread is inside a call of a checkout. -/
def PoolPc.inCheckout : PoolPc I → Bool
  | locking _ | needWait _ | blocked _ | woken _ | factory | failed _ => true
  | _ => false

/-- The call of `t` comes back with `o` between `s` and `s'`. -/
structure Departs (s s' : PoolState T I) (t : T) (o : Outcome I) : Prop where
  inside : (s.pc t).inCheckout = true
  back : s'.pc t = .rest
  outcome : s'.outcome t = some o

/-- Where a call comes back, and what it has found. -/
inductive Departure (cfg : PoolConfig) (s : PoolState T I) (t : T) :
    PoolLabel T I → Outcome I → Prop
  | poisoned (hpoison : s.poisoned = true) :
      Departure cfg s t (.lock t) (.error (.panicked poisonMessage))
  | overflow (hpoison : s.poisoned = false)
      (hpc : (s.pc t).entering cfg.horizon s.now = some none) :
      Departure cfg s t (.lock t) .unwound
  | closed (hclosed : s.inner.closed = true) : Departure cfg s t (.lock t) (.error .closed)
  | reused {i : I} (hopen : s.inner.closed = false) (hidle : i ∈ s.inner.idle)
      (halive : s.alive i = true) : Departure cfg s t (.lock t) (.isle i)
  | refused {w : Patience} {o : Outcome I} (hpc : s.pc t = .needWait w)
      (hrefusal : w.refusal s.now = some o) : Departure cfg s t (.decide t) o
  | created {i : I} (hpc : s.pc t = .factory) (hfresh : s.created i = false) :
      Departure cfg s t (.factoryOk t i) (.isle i)
  | unwound (hpc : s.pc t = .factory) : Departure cfg s t (.factoryPanic t) .unwound
  | failed {e : IsleError} (hpc : s.pc t = .failed e) :
      Departure cfg s t (.decActive t) (.error e)

/-- Every call that comes back does so in one of these ways. -/
theorem departure_of_step {s s' : PoolState T I} {l : PoolLabel T I} {t : T} {o : Outcome I}
    (hs : PoolStep cfg s l s') (h : Departs s s' t o) : Departure cfg s t l o := by
  have hin := h.inside
  have hback := h.back
  have hout := h.outcome
  by_cases hl : l.thread? = some t
  swap
  · rcases pc_step hs hl with heq | ⟨w, -, heq⟩
    · rw [← heq, hback] at hin
      cases hin
    · rw [heq] at hback
      cases hback
  have outside {p : PoolPc I} (hpc : s.pc t = p) (hp : p.inCheckout = false) : False := by
    rw [hpc, hp] at hin
    cases hin
  have gone {p : PoolPc I} (hp : p ≠ .rest) (hpc : Function.update s.pc t p t = .rest) : False :=
    hp (by rwa [Function.update_self] at hpc)
  have result {o' : Outcome I} (h : Function.update s.outcome t (some o') t = some o) : o' = o := by
    rw [Function.update_self] at h
    exact Option.some.inj h
  cases hs with
  | lockPoisoned _ hpoison =>
    cases hl
    exact result hout ▸ .poisoned hpoison
  | lockOverflow _ hpoison hpc =>
    cases hl
    exact result hout ▸ .overflow hpoison hpc
  | lockClosed _ _ _ hclosed =>
    cases hl
    exact result hout ▸ .closed hclosed
  | acquireIsle _ _ _ hopen hacquire =>
    cases hl
    obtain ⟨hidle, -, -, halive⟩ := tryAcquire_isle hacquire
    exact result hout ▸ .reused hopen (by rw [hidle]; simp) halive
  | refuse hpc hrefusal =>
    cases hl
    exact result hout ▸ .refused hpc hrefusal
  | factoryOk hpc hfresh =>
    cases hl
    exact result hout ▸ .created hpc hfresh
  | factoryPanic hpc =>
    cases hl
    exact result hout ▸ .unwound hpc
  | decActive _ hpc =>
    cases hl
    exact result hout ▸ .failed hpc
  | acquireGrow | acquireNeedWait | sleep | spurious | elapsed | factoryErr =>
    cases hl
    exact (gone (by simp) hback).elim
  | callCheckout _ hpc | callRead _ hpc | callShutdown hpc | dropGuard hpc | returnEnd hpc
  | drain hpc | drainEnd hpc | shutdownEnd hpc =>
    cases hl
    exact (outside hpc rfl).elim
  | returnIdle _ hpc | returnDead _ hpc | returnClosed _ hpc | read _ hpc | shutdown _ hpc =>
    cases hl
    exact (outside hpc rfl).elim
  | tick | isleExit | isleFinish | guardShutdown | jobStart | jobEnd => cases hl

end RusqliteIsle
