import RusqliteIsle.Error
import RusqliteIsle.Isle.View
import RusqliteIsle.Lib.TransitionSystem
import Mathlib.Data.List.TakeWhile
import Mathlib.Data.Multiset.Count
import Mathlib.Logic.Function.Basic

/-!
# The pool as a transition system

The type `T` indexes the threads that use the pool and `I` the isles that its factory ever
returns. A critical section of the pool's lock that waits for nothing is one step. A section that
waits holds the lock over several steps: `IslePool::shutdown` and `return_isle` call
`Isle::shutdown` under the lock, and a checkout that found no isle looks at the clock before it
sleeps. The factory runs outside the lock, and the isles move by themselves.

An idle isle that is at the head of the list is the last one of the `Vec`. Instants are numbers
up to the last one that `Instant` can represent. A closure that a pooled isle runs may itself use
the pool: `host` says which thread runs a closure of the isle. The fields `outcome`, `leaked` and
`record` only record what happened; no step reads them.
-/

namespace RusqliteIsle

set_option linter.unusedSectionVars false

/-- The largest number of isles, and the last representable instant. -/
structure PoolConfig where
  maxSize : ℕ
  horizon : ℕ

/-- `PoolInner`, the state under the lock. -/
structure PoolInner (I : Type) where
  idle : List I
  active : ℕ
  closed : Bool

/-- The operations that check an isle out. -/
inductive Checkout where
  | checkout
  | tryCheckout
  | checkoutTimeout (timeout : ℕ)
  deriving DecidableEq, Repr

/-- How long a checkout waits when no isle is available. -/
inductive Patience where
  | forever
  | never
  | deadline (instant : ℕ)
  deriving DecidableEq, Repr

/-- What a call returned: an isle, `Ok(None)`, an error, a count, or it unwound. -/
inductive Outcome (I : Type) where
  | isle (i : I)
  | unavailable
  | error (e : IsleError)
  | count (n : ℕ)
  | unwound

/-- `Instant::now() + timeout` panics when the sum is not representable. -/
def Checkout.patience (horizon now : ℕ) : Checkout → Option Patience
  | checkout => some .forever
  | tryCheckout => some .never
  | checkoutTimeout timeout =>
    if now + timeout ≤ horizon then some (.deadline (now + timeout)) else none

/-- What a checkout without an isle returns, or `none` if it sleeps. -/
def Patience.refusal {I : Type} (now : ℕ) : Patience → Option (Outcome I)
  | forever => none
  | never => some .unavailable
  | deadline instant => if instant ≤ now then some (.error .timeout) else none

/-- The methods that read a counter. -/
inductive Query where
  | active
  | idle
  deriving DecidableEq, Repr

/-- `IslePool::active` and `IslePool::idle`. -/
def Query.answer {I : Type} (poisoned : Bool) (inner : PoolInner I) : Query → ℕ
  | active => if poisoned then 0 else inner.active
  | idle => if poisoned then 0 else inner.idle.length

/-- The text of a `PoisonError`. -/
def poisonMessage : String := "poisoned lock: another task failed inside"

/-- `take_alive_isle`: the isle and the list that remains. -/
def takeAliveIsle {I : Type} (alive : I → Bool) : List I → Option I × List I
  | [] => (none, [])
  | i :: idle => if alive i then (some i, idle) else takeAliveIsle alive idle

/-- The dead isles that `take_alive_isle` drops. -/
def skippedIsles {I : Type} (alive : I → Bool) (idle : List I) : List I :=
  idle.takeWhile (fun i => !alive i)

/-- `Acquired`; `grow` is a slot that was reserved for the factory. -/
inductive Acquired (I : Type) where
  | isle (i : I)
  | grow
  | needWait

/-- The critical section of `try_acquire`. -/
def tryAcquire {I : Type} (maxSize : ℕ) (alive : I → Bool) (inner : PoolInner I) :
    Acquired I × PoolInner I :=
  match takeAliveIsle alive inner.idle with
  | (some i, idle) => (.isle i, { inner with idle := idle, active := inner.active + 1 })
  | (none, idle) =>
    if inner.active + idle.length < maxSize then
      (.grow, { inner with idle := idle, active := inner.active + 1 })
    else (.needWait, { inner with idle := idle })

section

variable {I : Type} {alive : I → Bool} {idle rest : List I} {i : I} {maxSize : ℕ}
  {inner inner' : PoolInner I}

lemma takeAliveIsle_some (h : takeAliveIsle alive idle = (some i, rest)) :
    idle = skippedIsles alive idle ++ i :: rest ∧ alive i = true := by
  induction idle with
  | nil => cases h
  | cons k idle ih =>
    cases hk : alive k with
    | true =>
      simp only [takeAliveIsle, hk, if_true] at h
      cases h
      simp [skippedIsles, hk]
    | false =>
      simp only [takeAliveIsle, hk] at h
      obtain ⟨heq, halive⟩ := ih h
      refine ⟨?_, halive⟩
      rw [skippedIsles] at heq ⊢
      simp only [hk, Bool.not_false, List.takeWhile_cons_of_pos, List.cons_append]
      rw [← heq]

lemma takeAliveIsle_none (h : takeAliveIsle alive idle = (none, rest)) :
    skippedIsles alive idle = idle ∧ rest = [] := by
  induction idle with
  | nil =>
    cases h
    exact ⟨rfl, rfl⟩
  | cons k idle ih =>
    cases hk : alive k with
    | true =>
      simp only [takeAliveIsle, hk, if_true] at h
      cases h
    | false =>
      simp only [takeAliveIsle, hk] at h
      obtain ⟨heq, hrest⟩ := ih h
      refine ⟨?_, hrest⟩
      rw [skippedIsles] at heq ⊢
      simp only [hk, Bool.not_false, List.takeWhile_cons_of_pos, heq]

lemma dead_of_skipped (h : i ∈ skippedIsles alive idle) : alive i = false := by
  simpa using List.mem_takeWhile_imp h

lemma tryAcquire_isle (h : tryAcquire maxSize alive inner = (.isle i, inner')) :
    inner.idle = skippedIsles alive inner.idle ++ i :: inner'.idle ∧
      inner'.active = inner.active + 1 ∧ inner'.closed = inner.closed ∧ alive i = true := by
  unfold tryAcquire at h
  split at h
  · next htake =>
    cases h
    obtain ⟨hidle, halive⟩ := takeAliveIsle_some htake
    exact ⟨hidle, rfl, rfl, halive⟩
  · split at h <;> cases h

lemma tryAcquire_grow (h : tryAcquire maxSize alive inner = (.grow, inner')) :
    skippedIsles alive inner.idle = inner.idle ∧ inner'.idle = [] ∧ inner.active < maxSize ∧
      inner'.active = inner.active + 1 ∧ inner'.closed = inner.closed := by
  unfold tryAcquire at h
  split at h
  · cases h
  · next htake =>
    obtain ⟨hskipped, rfl⟩ := takeAliveIsle_none htake
    split at h
    · next hroom =>
      cases h
      exact ⟨hskipped, rfl, hroom, rfl, rfl⟩
    · cases h

lemma tryAcquire_needWait (h : tryAcquire maxSize alive inner = (.needWait, inner')) :
    skippedIsles alive inner.idle = inner.idle ∧ inner'.idle = [] ∧ maxSize ≤ inner.active ∧
      inner'.active = inner.active ∧ inner'.closed = inner.closed := by
  unfold tryAcquire at h
  split at h
  · cases h
  · next htake =>
    obtain ⟨hskipped, rfl⟩ := takeAliveIsle_none htake
    split at h
    · cases h
    · next hroom =>
      cases h
      exact ⟨hskipped, rfl, Nat.le_of_not_lt hroom, rfl, rfl⟩

end

/-- Where a thread is in the code of the pool. From `needWait`, `returnShutdown`, `draining` and
`drainShutdown` on it holds the lock. -/
inductive PoolPc (I : Type) where
  | rest
  | locking (call : Checkout)
  | needWait (w : Patience)
  | blocked (w : Patience)
  | woken (w : Patience)
  | factory
  | failed (e : IsleError)
  | returning (i : I)
  | returnShutdown (i : I)
  | reading (q : Query)
  | shutting
  | draining (queue : List I)
  | drainShutdown (i : I) (queue : List I)

namespace PoolPc

variable {I : Type}

def holdsLock : PoolPc I → Bool
  | needWait _ => true
  | returnShutdown _ => true
  | draining _ => true
  | drainShutdown _ _ => true
  | _ => false

/-- The patience of a thread that is about to lock for a round of `checkout`'s loop: `none` if it
is elsewhere, `some none` if it panics. -/
def entering (horizon now : ℕ) : PoolPc I → Option (Option Patience)
  | locking call => some (call.patience horizon now)
  | woken w => some (some w)
  | _ => none

lemma entering_cases {p : PoolPc I} {horizon now : ℕ} (h : p.entering horizon now ≠ none) :
    (∃ call, p = locking call) ∨ ∃ w, p = woken w := by
  cases p with
  | locking call => exact Or.inl ⟨call, rfl⟩
  | woken w => exact Or.inr ⟨w, rfl⟩
  | _ => exact absurd rfl h

end PoolPc

/-- What happened to an isle: it was found dead, `Isle::shutdown` was called on it by the pool,
and the call returned. -/
structure Record where
  dead : ℕ
  calls : ℕ
  returned : ℕ

structure PoolState (T I : Type) where
  inner : PoolInner I
  poisoned : Bool
  lock : Option T
  now : ℕ
  pc : T → PoolPc I
  guards : Multiset I
  created : I → Bool
  isles : I → IsleView
  host : I → Option T
  outcome : T → Option (Outcome I)
  leaked : ℕ
  record : I → Record

/-- The actions of the threads, of the clock and of the isles. -/
inductive PoolLabel (T I : Type) where
  | call (t : T)
  | lock (t : T)
  | decide (t : T)
  | wake (t : T)
  | factoryOk (t : T) (i : I)
  | factoryErr (t : T)
  | factoryPanic (t : T)
  | decActive (t : T)
  | dropGuard (t : T) (i : I)
  | returnIsle (t : T)
  | returnEnd (t : T)
  | read (t : T)
  | shutdown (t : T)
  | drain (t : T)
  | drainEnd (t : T)
  | shutdownEnd (t : T)
  | tick
  | isleMove (i : I)
  | guardShutdown (i : I)
  | jobStart (i : I) (t : T)
  | jobEnd (i : I) (t : T)

section

variable {T I : Type} [DecidableEq T] [DecidableEq I]

/-- `notify_one` wakes one of the threads that are blocked. -/
inductive NotifyOne (pc : T → PoolPc I) : (T → PoolPc I) → Prop
  | wake {t : T} {w : Patience} (hblocked : pc t = .blocked w) :
      NotifyOne pc (Function.update pc t (.woken w))
  | none (hnone : ∀ t w, pc t ≠ .blocked w) : NotifyOne pc pc

/-- `notify_all` wakes all of them. -/
def notifyAll (pc : T → PoolPc I) : T → PoolPc I := fun t =>
  match pc t with
  | .blocked w => .woken w
  | p => p

namespace PoolState

def init (T I : Type) : PoolState T I where
  inner := ⟨[], 0, false⟩
  poisoned := false
  lock := none
  now := 0
  pc := fun _ => .rest
  guards := 0
  created := fun _ => false
  isles := fun _ => .spawned
  host := fun _ => none
  outcome := fun _ => none
  leaked := 0
  record := fun _ => ⟨0, 0, 0⟩

def alive (s : PoolState T I) (i : I) : Bool := (s.isles i).isAlive

/-- The thread is back from its call. -/
def leave (s : PoolState T I) (t : T) (o : Outcome I) : PoolState T I :=
  { s with
    pc := Function.update s.pc t .rest
    outcome := Function.update s.outcome t (some o) }

/-- `take_alive_isle` found these isles dead and dropped them. -/
def dropDead (s : PoolState T I) (dead : List I) : I → Record := fun i =>
  { s.record i with dead := (s.record i).dead + dead.count i }

/-- The pool calls `Isle::shutdown` on `k`. -/
def callShutdown (s : PoolState T I) (k : I) : I → Record := fun i =>
  { s.record i with calls := (s.record i).calls + [k].count i }

/-- The call of `Isle::shutdown` on `k` returns, its handle joined. -/
def endShutdown (s : PoolState T I) (k : I) : PoolState T I :=
  { s with
    isles := Function.update s.isles k (s.isles k).takeJoin
    record := fun i => { s.record i with returned := (s.record i).returned + [k].count i } }

end PoolState

/-- `IslePool::new`: a pool without room is refused. The panic of `Vec::with_capacity` on a `max_size`
that it cannot reserve is left out. -/
def IslePool.new (T I : Type) (cfg : PoolConfig) : Except IsleError (PoolState T I) :=
  if cfg.maxSize = 0 then .error .closed else .ok (PoolState.init T I)

/-- The steps of the pool. -/
inductive PoolStep (cfg : PoolConfig) : PoolState T I → PoolLabel T I → PoolState T I → Prop
  -- calls
  | callCheckout {s : PoolState T I} {t : T} (call : Checkout) (hpc : s.pc t = .rest) :
      PoolStep cfg s (.call t) { s with pc := Function.update s.pc t (.locking call) }
  | callRead {s : PoolState T I} {t : T} (q : Query) (hpc : s.pc t = .rest) :
      PoolStep cfg s (.call t) { s with pc := Function.update s.pc t (.reading q) }
  | callShutdown {s : PoolState T I} {t : T} (hpc : s.pc t = .rest) :
      PoolStep cfg s (.call t) { s with pc := Function.update s.pc t .shutting }
  -- `checkout`, `try_checkout`, `checkout_timeout`: a round of the loop
  | lockPoisoned {s : PoolState T I} {t : T} (hlock : s.lock = none) (hpoison : s.poisoned = true)
      (hpc : (s.pc t).entering cfg.horizon s.now ≠ none) :
      PoolStep cfg s (.lock t) (s.leave t (.error (.panicked poisonMessage)))
  | lockOverflow {s : PoolState T I} {t : T} (hlock : s.lock = none) (hpoison : s.poisoned = false)
      (hpc : (s.pc t).entering cfg.horizon s.now = some none) :
      PoolStep cfg s (.lock t) { s.leave t .unwound with poisoned := true }
  | lockClosed {s : PoolState T I} {t : T} {w : Patience} (hlock : s.lock = none)
      (hpoison : s.poisoned = false) (hpc : (s.pc t).entering cfg.horizon s.now = some (some w))
      (hclosed : s.inner.closed = true) :
      PoolStep cfg s (.lock t) (s.leave t (.error .closed))
  | acquireIsle {s : PoolState T I} {t : T} {w : Patience} {i : I} {inner : PoolInner I}
      (hlock : s.lock = none) (hpoison : s.poisoned = false)
      (hpc : (s.pc t).entering cfg.horizon s.now = some (some w))
      (hopen : s.inner.closed = false)
      (hacquire : tryAcquire cfg.maxSize s.alive s.inner = (.isle i, inner)) :
      PoolStep cfg s (.lock t)
        { s.leave t (.isle i) with
          inner := inner
          guards := i ::ₘ s.guards
          record := s.dropDead (skippedIsles s.alive s.inner.idle) }
  | acquireGrow {s : PoolState T I} {t : T} {w : Patience} {inner : PoolInner I}
      (hlock : s.lock = none) (hpoison : s.poisoned = false)
      (hpc : (s.pc t).entering cfg.horizon s.now = some (some w))
      (hopen : s.inner.closed = false)
      (hacquire : tryAcquire cfg.maxSize s.alive s.inner = (.grow, inner)) :
      PoolStep cfg s (.lock t)
        { s with
          inner := inner
          pc := Function.update s.pc t .factory
          record := s.dropDead (skippedIsles s.alive s.inner.idle) }
  | acquireNeedWait {s : PoolState T I} {t : T} {w : Patience} {inner : PoolInner I}
      (hlock : s.lock = none) (hpoison : s.poisoned = false)
      (hpc : (s.pc t).entering cfg.horizon s.now = some (some w))
      (hopen : s.inner.closed = false)
      (hacquire : tryAcquire cfg.maxSize s.alive s.inner = (.needWait, inner)) :
      PoolStep cfg s (.lock t)
        { s with
          inner := inner
          lock := some t
          pc := Function.update s.pc t (.needWait w)
          record := s.dropDead (skippedIsles s.alive s.inner.idle) }
  | sleep {s : PoolState T I} {t : T} {w : Patience} (hpc : s.pc t = .needWait w)
      (hsleep : w.refusal (I := I) s.now = none) :
      PoolStep cfg s (.decide t)
        { s with lock := none, pc := Function.update s.pc t (.blocked w) }
  | refuse {s : PoolState T I} {t : T} {w : Patience} {o : Outcome I}
      (hpc : s.pc t = .needWait w) (hrefusal : w.refusal s.now = some o) :
      PoolStep cfg s (.decide t) { s.leave t o with lock := none }
  -- a blocked thread wakes up without a notification
  | spurious {s : PoolState T I} {t : T} {w : Patience} (hpc : s.pc t = .blocked w) :
      PoolStep cfg s (.wake t) { s with pc := Function.update s.pc t (.woken w) }
  | elapsed {s : PoolState T I} {t : T} {instant : ℕ}
      (hpc : s.pc t = .blocked (.deadline instant)) (htime : instant ≤ s.now) :
      PoolStep cfg s (.wake t) { s with pc := Function.update s.pc t (.woken (.deadline instant)) }
  -- the factory, outside the lock
  | factoryOk {s : PoolState T I} {t : T} {i : I} (hpc : s.pc t = .factory)
      (hfresh : s.created i = false) :
      PoolStep cfg s (.factoryOk t i)
        { s.leave t (.isle i) with
          guards := i ::ₘ s.guards
          created := Function.update s.created i true }
  | factoryErr {s : PoolState T I} {t : T} {e : IsleError} (hpc : s.pc t = .factory) :
      PoolStep cfg s (.factoryErr t) { s with pc := Function.update s.pc t (.failed e) }
  | factoryPanic {s : PoolState T I} {t : T} (hpc : s.pc t = .factory) :
      PoolStep cfg s (.factoryPanic t) { s.leave t .unwound with leaked := s.leaked + 1 }
  -- `dec_active`
  | decActive {s : PoolState T I} {t : T} {e : IsleError} {pc : T → PoolPc I}
      (hlock : s.lock = none) (hpc : s.pc t = .failed e)
      (hnotify : NotifyOne (s.leave t (.error e)).pc pc) :
      PoolStep cfg s (.decActive t)
        { s.leave t (.error e) with
          inner := { s.inner with active := s.inner.active - 1 }
          pc := pc }
  -- the drop of a guard; a guard is not dropped while a call through it is running
  | dropGuard {s : PoolState T I} {t : T} {i : I} (hpc : s.pc t = .rest) (hguard : i ∈ s.guards)
      (hunused : (s.isles i).joinTaken = true → (s.isles i).finished = true) :
      PoolStep cfg s (.dropGuard t i)
        { s with
          guards := s.guards.erase i
          pc := Function.update s.pc t (.returning i) }
  -- `return_isle`
  | returnIdle {s : PoolState T I} {t : T} {i : I} {pc : T → PoolPc I} (hlock : s.lock = none)
      (hpc : s.pc t = .returning i) (hopen : s.inner.closed = false) (halive : s.alive i = true)
      (hnotify : NotifyOne (Function.update s.pc t .rest) pc) :
      PoolStep cfg s (.returnIsle t)
        { s with
          inner := { s.inner with idle := i :: s.inner.idle, active := s.inner.active - 1 }
          pc := pc }
  | returnDead {s : PoolState T I} {t : T} {i : I} {pc : T → PoolPc I} (hlock : s.lock = none)
      (hpc : s.pc t = .returning i) (hopen : s.inner.closed = false) (hdead : s.alive i = false)
      (hnotify : NotifyOne (Function.update s.pc t .rest) pc) :
      PoolStep cfg s (.returnIsle t)
        { s with
          inner := { s.inner with active := s.inner.active - 1 }
          pc := pc
          record := s.dropDead [i] }
  | returnClosed {s : PoolState T I} {t : T} {i : I} (hlock : s.lock = none)
      (hpc : s.pc t = .returning i) (hclosed : s.inner.closed = true) :
      PoolStep cfg s (.returnIsle t)
        { s with
          inner := { s.inner with active := s.inner.active - 1 }
          lock := some t
          pc := Function.update s.pc t (.returnShutdown i)
          record := s.callShutdown i }
  | returnEnd {s : PoolState T I} {t : T} {i : I} {pc : T → PoolPc I}
      (hpc : s.pc t = .returnShutdown i) (hreturns : (s.isles i).shutdownReturns = true)
      (hnotify : NotifyOne (Function.update s.pc t .rest) pc) :
      PoolStep cfg s (.returnEnd t) { s.endShutdown i with lock := none, pc := pc }
  -- `active` and `idle`
  | read {s : PoolState T I} {t : T} {q : Query} (hlock : s.lock = none)
      (hpc : s.pc t = .reading q) :
      PoolStep cfg s (.read t) (s.leave t (.count (q.answer s.poisoned s.inner)))
  -- `IslePool::shutdown`; the drained list is read from its other end
  | shutdown {s : PoolState T I} {t : T} (hlock : s.lock = none) (hpc : s.pc t = .shutting) :
      PoolStep cfg s (.shutdown t)
        { s with
          inner := { s.inner with idle := [], closed := true }
          lock := some t
          pc := Function.update s.pc t (.draining s.inner.idle.reverse) }
  | drain {s : PoolState T I} {t : T} {i : I} {queue : List I}
      (hpc : s.pc t = .draining (i :: queue)) :
      PoolStep cfg s (.drain t)
        { s with
          pc := Function.update s.pc t (.drainShutdown i queue)
          record := s.callShutdown i }
  | drainEnd {s : PoolState T I} {t : T} {i : I} {queue : List I}
      (hpc : s.pc t = .drainShutdown i queue)
      (hreturns : (s.isles i).shutdownReturns = true) :
      PoolStep cfg s (.drainEnd t)
        { s.endShutdown i with pc := Function.update s.pc t (.draining queue) }
  | shutdownEnd {s : PoolState T I} {t : T} (hpc : s.pc t = .draining []) :
      PoolStep cfg s (.shutdownEnd t)
        { s with lock := none, pc := notifyAll (Function.update s.pc t .rest) }
  -- the clock and the isles
  | tick {s : PoolState T I} {now : ℕ} (hlater : s.now ≤ now) (hnow : now ≤ cfg.horizon) :
      PoolStep cfg s .tick { s with now := now }
  | isleExit {s : PoolState T I} {i : I} (hcreated : s.created i = true)
      (hhost : s.host i = none) :
      PoolStep cfg s (.isleMove i)
        { s with isles := Function.update s.isles i (s.isles i).exit }
  | isleFinish {s : PoolState T I} {i : I} (hcreated : s.created i = true)
      (hexited : (s.isles i).exited = true) :
      PoolStep cfg s (.isleMove i)
        { s with isles := Function.update s.isles i (s.isles i).finish }
  | guardShutdown {s : PoolState T I} {i : I} (hguard : i ∈ s.guards) :
      PoolStep cfg s (.guardShutdown i)
        { s with isles := Function.update s.isles i (s.isles i).takeJoin }
  | jobStart {s : PoolState T I} {i : I} {t : T} (hcreated : s.created i = true)
      (hexited : (s.isles i).exited = false) (hhost : s.host i = none) (hpc : s.pc t = .rest)
      (hfree : ∀ k, s.host k ≠ some t) :
      PoolStep cfg s (.jobStart i t) { s with host := Function.update s.host i (some t) }
  | jobEnd {s : PoolState T I} {i : I} {t : T} (hhost : s.host i = some t)
      (hpc : s.pc t = .rest) :
      PoolStep cfg s (.jobEnd i t) { s with host := Function.update s.host i none }

/-- The pool of a configuration. -/
def pool (cfg : PoolConfig) : TransitionSystem (PoolState T I) (PoolLabel T I) where
  init := PoolState.init T I
  step := PoolStep cfg

end

end RusqliteIsle
