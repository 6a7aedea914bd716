import RusqliteIsle.Isle.Progress
import RusqliteIsle.Pool.Deadlock

/-!
# A pool and its isles

The pool of `Pool.System` knows its isles by their views. Here every isle is a whole one: the pool
and the isles take their steps side by side, a closure that an isle runs can use the pool, the
holder of a guard can use the isle, and the pool's own calls of `Isle::shutdown` are calls of the
isle. Each isle of such a fleet does what an isle does, and the pool, which sees no more of the
isles than their views, does what a pool does.
-/

namespace RusqliteIsle

set_option linter.unusedSectionVars false

/-- A pool, the isles that its factory returns, and the thread of each of them. -/
structure FleetConfig (T I J V : Type) where
  pool : PoolConfig
  isle : I → Config J V
  worker : I → T
  sync : ∀ i, (isle i).front = .sync
  apart : Function.Injective worker

/-- The calls of `Isle::shutdown` are those of the holders of guards, and one of the pool. -/
structure Fleet (T I J K V : Type) where
  pool : PoolState T I
  isle : I → State J (Option K) V

inductive FleetLabel (T I J K V : Type) where
  | pool (l : PoolLabel T I)
  | close (t : T) (i : I) (l : Label J (Option K) V)
  | isle (i : I) (l : Label J (Option K) V)

/-- Whether the thread runs a closure. -/
def Pc.inClosure {J V : Type} : Pc J V → Bool
  | closure _ _ => true
  | _ => false

namespace Label

variable {J K V : Type}

/-- The actions of the pool inside `Isle::shutdown`. -/
def ofPool : Label J (Option K) V → Prop
  | shutCall k | shutSend k | shutLock k | shutJoin k => k = none
  | _ => False

/-- The actions of a closure. -/
def ofClosure : Label J K V → Bool
  | stmtStart _ | stmtFinish _ _ | closureEnd _ => true
  | _ => false

/-- The actions that take the isle by reference: they begin a call. -/
def begins : Label J (Option K) V → Prop
  | submit _ => True
  | shutCall k => k ≠ none
  | _ => False

/-- The drop of the isle. -/
def drops : Label J K V → Prop
  | dropIsle | dropIsleTx => True
  | _ => False

end Label

section

variable {T I J K V : Type} [DecidableEq T] [DecidableEq I] [DecidableEq J] [DecidableEq K]

/-- What a pool sees of an isle. It does not see that the join handle is gone when the call that has
taken it is its own. -/
def State.sight (s : State J (Option K) V) : IsleView :=
  { s.view with joinTaken := !s.join && s.calls none ≠ .joining }

namespace Fleet

variable (fc : FleetConfig T I J V)

/-- What the pool sees. -/
def view (s : Fleet T I J K V) : PoolState T I :=
  { s.pool with
    isles := fun i => (s.isle i).sight
    host := fun i => if (s.isle i).pc.inClosure then some (fc.worker i) else none }

/-- The thread of an isle uses the pool in closures only. -/
def MayUse (s : Fleet T I J K V) (t : T) : Prop :=
  ∀ i, fc.worker i = t → (s.isle i).pc.inClosure = true

/-- The pool has let go of the isle, and nobody else has it. -/
def Released (s : Fleet T I J K V) (i : I) : Prop :=
  i ∉ s.pool.inner.idle ∧ i ∉ s.pool.guards ∧
    ∀ t, i ∉ (s.pool.pc t).dropped ∧ i ∉ (s.pool.pc t).disposing

/-- What the pool does without the help of an isle. A guard is not dropped while a call through it
is running. -/
def Proceeds (s : Fleet T I J K V) : PoolLabel T I → Prop
  | .call t => s.MayUse fc t
  | .dropGuard t i => s.MayUse fc t ∧ (s.isle i).borrowers = ∅
  | .returnEnd _ | .drainEnd _ | .isleMove _ | .guardShutdown _ | .jobStart _ _ | .jobEnd _ _ =>
    False
  | _ => True

/-- What the thread of an isle, and those who have the isle or its jobs, can do. -/
structure Allows (s : Fleet T I J K V) (i : I) (l : Label J (Option K) V) : Prop where
  created : s.pool.created i = true
  closure : l.ofClosure = true → s.pool.pc (fc.worker i) = .rest
  guarded : l.begins → i ∈ s.pool.guards
  released : l.drops → s.Released i
  own : ¬ l.ofPool

/-- The closures of an isle that the pool is shutting down keep away from the pool. -/
def Quiet (s : Fleet T I J K V) : Prop :=
  ∀ t i, (s.pool.pc t).shuttingDown? = some i → s.pool.pc (fc.worker i) = .rest

variable {fc}

lemma allows_thread {s : Fleet T I J K V} {i : I} {l : Label J (Option K) V}
    (hl : l.onThread = true) (hcreated : s.pool.created i = true)
    (hrest : s.pool.pc (fc.worker i) = .rest) : s.Allows fc i l := by
  refine ⟨hcreated, fun _ => hrest, ?_, ?_, ?_⟩ <;>
  · intro h
    cases l <;> first | exact h.elim | cases hl

end Fleet

/-- The steps of a pool and its isles. -/
inductive FleetStep (fc : FleetConfig T I J V) :
    Fleet T I J K V → FleetLabel T I J K V → Fleet T I J K V → Prop
  | pool {s : Fleet T I J K V} {l : PoolLabel T I} {p : PoolState T I} (hl : s.Proceeds fc l)
      (hs : PoolStep fc.pool (s.view fc) l p) : FleetStep fc s (.pool l) { s with pool := p }
  -- `Isle::shutdown`, called by the pool
  | close {s : Fleet T I J K V} {t : T} {i : I} {l : Label J (Option K) V}
      {u : State J (Option K) V} (hpc : (s.pool.pc t).shuttingDown? = some i) (hl : l.ofPool)
      (hs : Step (fc.isle i) (s.isle i) l u) (hcall : u.calls none ≠ .returned) :
      FleetStep fc s (.close t i l) { s with isle := Function.update s.isle i u }
  | closed {s : Fleet T I J K V} {t : T} {i : I} {l : Label J (Option K) V}
      {u : State J (Option K) V} {pl : PoolLabel T I} {p : PoolState T I}
      (hpc : (s.pool.pc t).shuttingDown? = some i) (hl : l.ofPool)
      (hs : Step (fc.isle i) (s.isle i) l u) (hcall : u.calls none = .returned)
      (hend : pl = .returnEnd t ∨ pl = .drainEnd t) (hp : PoolStep fc.pool (s.view fc) pl p) :
      FleetStep fc s (.close t i l) ⟨p, Function.update s.isle i u⟩
  -- the thread of an isle, the holders of its guard and the owners of its jobs
  | isle {s : Fleet T I J K V} {i : I} {l : Label J (Option K) V} {u : State J (Option K) V}
      (hl : s.Allows fc i l) (hs : Step (fc.isle i) (s.isle i) l u) :
      FleetStep fc s (.isle i l) { s with isle := Function.update s.isle i u }

/-- The pool and the isles of a configuration. -/
def fleet (fc : FleetConfig T I J V) :
    TransitionSystem (Fleet T I J K V) (FleetLabel T I J K V) where
  init := ⟨PoolState.init T I, fun i => State.init (fc.isle i)⟩
  step := FleetStep fc

end

/-! ## What the pool sees of a step of an isle -/

section

variable {J K V : Type} [DecidableEq J] [DecidableEq K] {cfg : Config J V}

/-- The join handle of an isle is gone once a call is joining, and remains gone; when no call is
joining any more, the thread has ended. -/
structure Joined (s : State J K V) : Prop where
  taken : ∀ k, s.calls k = .joining → s.join = false
  finished : s.join = false → s.pc.isFinished = true ∨ ∃ k, s.calls k = .joining

lemma joined_step {s t : State J K V} {l : Label J K V} (hi : Joined s) (hs : Step cfg s l t) :
    Joined t := by
  have hkeep := finished_step hs
  -- a call that is not joining goes on, and does not join
  have goes {k : K} {c c' : ShutdownCall} (hk : s.calls k = c) (hc : c ≠ .joining)
      (hc' : c' ≠ .joining) (hcalls : t.calls = Function.update s.calls k c')
      (hjoin : t.join = s.join) : Joined t := by
    rw [← hk] at hc
    refine ⟨fun i h => ?_, fun h => (hi.finished (hjoin ▸ h)).imp hkeep ?_⟩
    · by_cases hik : i = k
      · rw [hcalls, hik, Function.update_self] at h
        exact absurd h hc'
      · rw [hcalls, Function.update_of_ne hik] at h
        exact hjoin.trans (hi.taken i h)
    · rintro ⟨i, hjoining⟩
      have hik : i ≠ k := by
        rintro rfl
        exact hc hjoining
      exact ⟨i, by rw [hcalls, Function.update_of_ne hik, hjoining]⟩
  have keep (hcalls : t.calls = s.calls) (hjoin : t.join = s.join) : Joined t := by
    refine ⟨fun k => ?_, fun h => ?_⟩
    · rw [hcalls, hjoin]
      exact hi.taken k
    · rw [hcalls]
      exact (hi.finished (hjoin ▸ h)).imp_left hkeep
  cases hs with
  | shutCall _ hcall | shutSend hcall | shutSendClosed hcall | shutSkip hcall =>
    exact goes hcall (by simp) (by simp) rfl rfl
  | @shutTake k =>
    exact ⟨fun _ _ => rfl, fun _ => Or.inr ⟨k, Function.update_self _ _ _⟩⟩
  | @shutJoin k hcall hfin =>
    exact ⟨fun _ _ => hi.taken k hcall, fun _ => Or.inl hfin⟩
  | _ => exact keep rfl rfl

lemma joined_reachable {s : State J K V} (h : (isle cfg).Reachable s) : Joined s := by
  refine TransitionSystem.Reachable.invariant (I := Joined) ?_ (fun _ _ _ => joined_step) h
  exact ⟨fun _ h => (by cases h), fun h => by cases h⟩

/-- What a step of an isle that is not the pool's own looks like from the pool. -/
inductive Sighting (s u : State J (Option K) V) (l : Label J (Option K) V) : Prop
  | same (hsight : u.sight = s.sight) (hclosure : u.pc.inClosure = s.pc.inClosure)
  | exit (hsight : u.sight = s.sight.exit) (hout : s.pc.inClosure = false)
      (hout' : u.pc.inClosure = false)
  | finish (hexited : s.sight.exited = true) (hsight : u.sight = s.sight.finish)
      (hclosure : u.pc.inClosure = s.pc.inClosure)
  | take {k : K} (hcall : s.calls (some k) = .locking) (hsight : u.sight = s.sight.takeJoin)
      (hclosure : u.pc.inClosure = s.pc.inClosure)
  | enter (hsight : u.sight = s.sight) (hexited : s.sight.exited = false)
      (hout : s.pc.inClosure = false) (hin : u.pc.inClosure = true)
  | leave (hl : l.ofClosure = true) (hsight : u.sight = s.sight) (hin : s.pc.inClosure = true)
      (hout : u.pc.inClosure = false)

lemma afterDetach_inClosure (j : J) (result : Caught V) :
    (Pc.afterDetach j result).inClosure = false := by
  obtain ⟨e, h⟩ | ⟨r, outcome, h⟩ := Pc.afterDetach_cases j result <;> rw [h] <;> rfl

lemma sighting {cfg : Config J V} {s u : State J (Option K) V} {l : Label J (Option K) V}
    (hjoined : Joined s) (hown : ¬ l.ofPool) (hs : Step cfg s l u) : Sighting s u l := by
  -- the thread is at `pc`, and goes on to where the pool sees no difference
  have moves {pc : Pc J V} (hpc : s.pc = pc) (hexit : u.pc.exit? = pc.exit?)
      (hfin : u.pc.isFinished = pc.isFinished) (hclosure : u.pc.inClosure = pc.inClosure)
      (hjoin : u.join = s.join) (hcalls : u.calls = s.calls) : Sighting s u l := by
    refine .same ?_ (hclosure.trans (by rw [hpc]))
    simp only [State.sight, State.view, hexit, hfin, hjoin, hcalls, hpc]
  -- the call of a guard's holder goes on
  have called {k : Option K} {c : ShutdownCall} (hk : k ≠ none)
      (hcalls : u.calls = Function.update s.calls k c) (hpc : u.pc = s.pc)
      (hjoin : u.join = s.join) : Sighting s u l := by
    refine .same ?_ (by rw [hpc])
    simp only [State.sight, State.view, hcalls, hpc, hjoin, Function.update_of_ne hk.symm]
  cases hs with
  | recvShutdown hpc | recvDisconnected hpc | healthFail hpc =>
    refine .exit ?_ (by rw [hpc]; rfl) rfl
    simp only [State.sight, State.view, IsleView.exit, hpc]
    rfl
  | threadFinish hpc =>
    rcases hpc with ⟨-, hpc⟩ | hpc <;>
    · refine .finish (by simp only [State.sight, State.view, hpc]; rfl) ?_ (by rw [hpc]; rfl)
      simp only [State.sight, State.view, IsleView.finish, hpc]
      rfl
  | attachCheckNone hpc | attachInterrupt hpc =>
    refine .enter ?_ ?_ (by rw [hpc]; rfl) rfl
    · simp only [State.sight, State.view, State.invoke, hpc]
      rfl
    · simp only [State.sight, State.view, hpc]
      rfl
  | closureRet hpc | closurePanic hpc =>
    refine .leave rfl ?_ (by rw [hpc]; rfl) rfl
    simp only [State.sight, State.view, hpc]
    rfl
  | loadAbort hpc | queuedCheck hpc | normalizeToken hpc =>
    refine moves hpc ?_ ?_ ?_ rfl rfl <;> dsimp only <;> split <;> rfl
  | detach hpc =>
    exact moves hpc (Pc.afterDetach_exit? _ _) (Pc.afterDetach_isFinished _ _)
      (afterDetach_inClosure _ _) rfl rfl
  | @respond _ _ outcome hpc =>
    refine moves hpc ?_ ?_ ?_ rfl rfl <;> cases outcome <;> rfl
  | recvJob hpc | discard hpc | attachStore hpc | attachCheckFired hpc | stmtStart hpc
  | stmtComplete hpc | stmtFail hpc | stmtAbort hpc | normalizeAbort hpc | healthStart hpc
  | healthPass hpc | signalDone _ hpc => exact moves hpc rfl rfl rfl rfl rfl
  | shutCall | shutSend | shutSendClosed | shutSkip | shutJoin => exact called hown rfl rfl rfl
  | @shutTake k hcall hjoin =>
    obtain ⟨k, rfl⟩ := Option.ne_none_iff_exists'.mp hown
    refine .take hcall ?_ rfl
    have hnone : s.calls none ≠ .joining := by
      intro h
      rw [hjoined.taken none h] at hjoin
      cases hjoin
    simp [State.sight, State.view, IsleView.takeJoin, hnone]
  | _ => exact .same rfl rfl

/-- What a step of the pool's own call looks like from the pool: nothing, until it returns. -/
structure OwnCall (s u : State J (Option K) V) : Prop where
  pc : u.pc = s.pc
  others : ∀ k, u.calls (some k) = s.calls (some k)
  running : u.calls none ≠ .returned → u.sight = s.sight
  returns : u.calls none = .returned →
    s.sight.shutdownReturns = true ∧ u.sight = s.sight.takeJoin

lemma ownCall {cfg : Config J V} {s u : State J (Option K) V} {l : Label J (Option K) V}
    (hjoined : Joined s) (hown : l.ofPool) (hs : Step cfg s l u) : OwnCall s u := by
  -- the call goes on, and does not join
  have goes {c c' : ShutdownCall} (hcall : s.calls none = c) (hc : c ≠ .joining)
      (hc' : c' ≠ .joining ∧ c' ≠ .returned) (hcalls : u.calls = Function.update s.calls none c')
      (hpc : u.pc = s.pc) (hjoin : u.join = s.join) : OwnCall s u := by
    refine ⟨hpc, fun k => by simp [hcalls], fun _ => ?_, fun h => ?_⟩
    · simp [State.sight, State.view, hcalls, hpc, hjoin, hcall, hc, hc'.1]
    · rw [hcalls, Function.update_self] at h
      exact absurd h hc'.2
  cases hs with
  | shutCall _ hcall | shutSend hcall | shutSendClosed hcall =>
    cases hown
    exact goes hcall (by simp) (by simp) rfl rfl rfl
  | shutTake _ hjoin =>
    cases hown
    refine ⟨rfl, fun k => by simp, fun _ => ?_, fun h => ?_⟩
    · simp [State.sight, State.view, hjoin]
    · simp at h
  | shutSkip hcall hjoin =>
    cases hown
    refine ⟨rfl, fun k => by simp, fun h => absurd (by simp) h, fun _ => ⟨?_, ?_⟩⟩
    · simp [State.sight, State.view, IsleView.shutdownReturns, hjoin, hcall]
    · simp [State.sight, State.view, IsleView.takeJoin, hjoin]
  | shutJoin hcall hfin =>
    cases hown
    refine ⟨rfl, fun k => by simp, fun h => absurd (by simp) h, fun _ => ⟨?_, ?_⟩⟩
    · simp [State.sight, State.view, IsleView.shutdownReturns, hfin]
    · simp [State.sight, State.view, IsleView.takeJoin, hjoined.taken none hcall]
  | _ => exact hown.elim

end

/-! ## The fleet, seen from the pool and from an isle -/

section

variable {T I J K V : Type} [DecidableEq T] [DecidableEq I] [DecidableEq J] [DecidableEq K]
  {fc : FleetConfig T I J V}

lemma call_of_rest {cfg : PoolConfig} {s s' : PoolState T I} {l : PoolLabel T I} {t : T}
    (hs : PoolStep cfg s l s') (hpc : s.pc t = .rest) (hpc' : s'.pc t ≠ .rest) :
    l = .call t ∨ ∃ i, l = .dropGuard t i := by
  by_cases hl : l.thread? = some t
  swap
  · rcases pc_step hs hl with heq | ⟨w, hblocked, -⟩
    · rw [heq] at hpc'
      exact absurd hpc hpc'
    · rw [hpc] at hblocked
      cases hblocked
  have elsewhere {p : PoolPc I} (h : s.pc t = p) (hp : p ≠ .rest) :
      l = .call t ∨ ∃ i, l = .dropGuard t i := absurd (h.symm.trans hpc) hp
  have entered {o : Option (Option Patience)} (h : (s.pc t).entering cfg.horizon s.now = o)
      (ho : o ≠ none) : l = .call t ∨ ∃ i, l = .dropGuard t i := by
    rw [hpc] at h
    exact absurd h.symm ho
  cases hs with
  | callCheckout | callRead | callShutdown =>
    cases hl
    exact Or.inl rfl
  | dropGuard =>
    cases hl
    exact Or.inr ⟨_, rfl⟩
  | lockPoisoned _ _ h =>
    cases hl
    exact entered rfl h
  | lockOverflow _ _ h | lockClosed _ _ h | acquireIsle _ _ h | acquireGrow _ _ h
  | acquireNeedWait _ _ h =>
    cases hl
    exact entered h (by simp)
  | sleep h | refuse h | spurious h | elapsed h | factoryOk h | factoryErr h | factoryPanic h
  | returnEnd h | drain h | drainEnd h | shutdownEnd h =>
    cases hl
    exact elsewhere h (by simp)
  | decActive _ h | returnIdle _ h | returnDead _ h | returnClosed _ h | read _ h | shutdown _ h =>
    cases hl
    exact elsewhere h (by simp)
  | tick | isleExit | isleFinish | guardShutdown | jobStart | jobEnd => cases hl

lemma guard_step {cfg : PoolConfig} {s s' : PoolState T I} {l : PoolLabel T I} {i : I}
    (hs : PoolStep cfg s l s') (hi : i ∈ s.guards) :
    i ∈ s'.guards ∨ ∃ t, l = .dropGuard t i := by
  cases hs with
  | acquireIsle | factoryOk => exact Or.inl (Multiset.mem_cons_of_mem hi)
  | @dropGuard t k =>
    by_cases hik : i = k
    · exact Or.inr ⟨t, by rw [hik]⟩
    · exact Or.inl ((Multiset.mem_erase_of_ne hik).mpr hi)
  | _ => exact Or.inl hi

lemma isles_of_proceeds {s : Fleet T I J K V} {v p : PoolState T I} {l : PoolLabel T I}
    (hl : s.Proceeds fc l) (hs : PoolStep fc.pool v l p) : p.isles = v.isles ∧ p.host = v.host := by
  cases hs with
  | returnEnd | drainEnd | isleExit | isleFinish | guardShutdown | jobStart | jobEnd => exact hl.elim
  | _ => exact ⟨rfl, rfl⟩

lemma calls_step {cfg : Config J V} {s u : State J K V} {l : Label J K V} (hs : Step cfg s l u)
    (k : K) : u.calls k = s.calls k ∨ l = .shutCall k ∨ s.calls k ≠ .idle ∧ s.calls k ≠ .returned := by
  have other {i : K} {c c' : ShutdownCall} (hi : s.calls i = c) (hc : c ≠ .idle ∧ c ≠ .returned) :
      Function.update s.calls i c' k = s.calls k ∨ l = .shutCall k ∨
        s.calls k ≠ .idle ∧ s.calls k ≠ .returned := by
    by_cases hik : k = i
    · subst hik
      exact Or.inr (Or.inr (by rwa [hi]))
    · exact Or.inl (Function.update_of_ne hik _ _)
  cases hs with
  | @shutCall i =>
    by_cases hik : k = i
    · exact Or.inr (Or.inl (by rw [hik]))
    · exact Or.inl (Function.update_of_ne hik _ _)
  | shutSend hcall | shutSendClosed hcall | shutTake hcall | shutSkip hcall | shutJoin hcall =>
    exact other hcall (by simp)
  | _ => exact Or.inl rfl

/-- Each isle is an isle; its thread is in the pool's code only inside a closure; and a call through
a guard keeps the guard. -/
structure FleetInv (fc : FleetConfig T I J V) (s : Fleet T I J K V) : Prop where
  isles : ∀ i, (isle (fc.isle i)).Reachable (s.isle i)
  inside : ∀ i, s.pool.pc (fc.worker i) ≠ .rest → (s.isle i).pc.inClosure = true
  guarded : ∀ i k, (s.isle i).calls (some k) ≠ .idle → (s.isle i).calls (some k) ≠ .returned →
    i ∈ s.pool.guards

lemma FleetInv.pool_step {s : Fleet T I J K V} {l : PoolLabel T I} {p : PoolState T I} {i : I}
    {u : State J (Option K) V} (hi : FleetInv fc s) (hs : PoolStep fc.pool (s.view fc) l p)
    (hcall : ∀ t, l = .call t ∨ (∃ i, l = .dropGuard t i) → s.MayUse fc t)
    (hdrop : ∀ t i, l = .dropGuard t i → (s.isle i).borrowers = ∅)
    (hu : (isle (fc.isle i)).Reachable u) (hpc : u.pc = (s.isle i).pc)
    (hcalls : ∀ k, u.calls (some k) = (s.isle i).calls (some k)) :
    FleetInv fc ⟨p, Function.update s.isle i u⟩ := by
  refine ⟨fun k => ?_, fun k hk => ?_, fun k c hidle hret => ?_⟩
  · by_cases hki : k = i
    · subst hki
      simpa using hu
    · simpa [hki] using hi.isles k
  · have hin : (s.isle k).pc.inClosure = true := by
      by_cases hrest : s.pool.pc (fc.worker k) = .rest
      · exact hcall _ (call_of_rest hs hrest hk) k rfl
      · exact hi.inside k hrest
    by_cases hki : k = i
    · subst hki
      simpa [hpc] using hin
    · simpa [hki] using hin
  · have hsame : (Function.update s.isle i u k).calls (some c) = (s.isle k).calls (some c) := by
      by_cases hki : k = i
      · subst hki
        simpa using hcalls c
      · simp [hki]
    dsimp only at hidle hret
    rw [hsame] at hidle hret
    rcases guard_step hs (hi.guarded k c hidle hret) with hkept | ⟨t, hl⟩
    · exact hkept
    · have hmem := (link_reachable (hi.isles k)).calling (some c) hidle hret
      rw [hdrop t k hl] at hmem
      simp at hmem

lemma FleetInv.isle_step {s : Fleet T I J K V} {i : I} {u : State J (Option K) V}
    (hi : FleetInv fc s) (hu : (isle (fc.isle i)).Reachable u)
    (hin : s.pool.pc (fc.worker i) ≠ .rest → u.pc.inClosure = true)
    (hguard : ∀ k, u.calls (some k) ≠ .idle → u.calls (some k) ≠ .returned → i ∈ s.pool.guards) :
    FleetInv fc { s with isle := Function.update s.isle i u } := by
  refine ⟨fun k => ?_, fun k hk => ?_, fun k c hidle hret => ?_⟩ <;>
  by_cases hki : k = i
  · subst hki
    simpa using hu
  · simpa [hki] using hi.isles k
  · subst hki
    simpa using hin hk
  · simpa [hki] using hi.inside k hk
  · subst hki
    dsimp only at hidle hret
    rw [Function.update_self] at hidle hret
    exact hguard c hidle hret
  · dsimp only at hidle hret
    rw [Function.update_of_ne hki] at hidle hret
    exact hi.guarded k c hidle hret

lemma fleetInv_step {s t : Fleet T I J K V} {l : FleetLabel T I J K V} (hi : FleetInv fc s)
    (hs : FleetStep fc s l t) : FleetInv fc t := by
  cases hs with
  | @pool l p hl hs =>
    refine ⟨hi.isles, fun k hk => ?_, fun k c hidle hret => ?_⟩
    · by_cases hrest : s.pool.pc (fc.worker k) = .rest
      · rcases call_of_rest hs hrest hk with rfl | ⟨i, rfl⟩
        · exact hl k rfl
        · exact hl.1 k rfl
      · exact hi.inside k hrest
    · rcases guard_step hs (hi.guarded k c hidle hret) with hkept | ⟨t, rfl⟩
      · exact hkept
      · have hmem := (link_reachable (hi.isles k)).calling (some c) hidle hret
        rw [hl.2] at hmem
        simp at hmem
  | @close t i l u hpc hl hs hcall =>
    have hown := ownCall (joined_reachable (hi.isles i)) hl hs
    refine hi.isle_step ((hi.isles i).tail hs) (fun hk => ?_) (fun c hidle hret => ?_)
    · rw [hown.pc]
      exact hi.inside i hk
    · rw [hown.others] at hidle hret
      exact hi.guarded i c hidle hret
  | @closed t i l u pl p hpc hl hs hcall hend hp =>
    have hown := ownCall (joined_reachable (hi.isles i)) hl hs
    refine hi.pool_step hp ?_ ?_ ((hi.isles i).tail hs) hown.pc hown.others
    · rintro v (rfl | ⟨k, rfl⟩) <;> rcases hend with h | h <;> cases h
    · rintro v k rfl
      rcases hend with h | h <;> cases h
  | @isle i l u hl hs =>
    refine hi.isle_step ((hi.isles i).tail hs) (fun hk => ?_) (fun c hidle hret => ?_)
    · have hin := hi.inside i hk
      cases sighting (joined_reachable (hi.isles i)) hl.own hs with
      | same _ hclosure | finish _ _ hclosure | take _ _ hclosure => rw [hclosure, hin]
      | exit _ hout =>
        rw [hin] at hout
        cases hout
      | enter _ _ _ hin' => exact hin'
      | leave hclosure => exact absurd (hl.closure hclosure) hk
    · rcases calls_step hs (some c) with hsame | rfl | ⟨hidle', hret'⟩
      · rw [hsame] at hidle hret
        exact hi.guarded i c hidle hret
      · exact hl.guarded (Option.some_ne_none c)
      · exact hi.guarded i c hidle' hret'

lemma fleetInv_reachable {s : Fleet T I J K V} (h : (fleet fc).Reachable s) : FleetInv fc s := by
  refine TransitionSystem.Reachable.invariant (I := FleetInv fc) ?_ (fun _ _ _ => fleetInv_step) h
  exact ⟨fun _ => TransitionSystem.Reachable.refl, fun _ h => absurd rfl h,
    fun _ _ h => absurd rfl h⟩

end

end RusqliteIsle
