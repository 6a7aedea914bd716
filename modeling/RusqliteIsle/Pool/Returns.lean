import RusqliteIsle.Isle.Returns
import RusqliteIsle.Pool.Composition
import RusqliteIsle.Pool.Progress

/-!
# The methods of the pool return

A thread in the pool's code waits for the lock, for an isle, for the factory, or for the end of an
isle that it shuts down under the lock. The last wait is one of the isle's own calls: it ends when
the isle's thread is left to run, which is so when the closures of an isle that is being shut down
keep away from the pool. Then the lock is free again and again, and what waits for it goes on.
-/

namespace RusqliteIsle

set_option linter.unusedSectionVars false

namespace FleetLabel

variable {T I J K V : Type}

/-- The actions by which a thread goes through the pool's code. -/
def ofThread (t : T) : FleetLabel T I J K V → Prop
  | pool l => l.goesOn t
  | close u _ _ => u = t
  | isle _ _ => False

/-- The actions of the thread of an isle. -/
def ofWorker (i : I) : FleetLabel T I J K V → Prop
  | isle k l => k = i ∧ l.onThread = true
  | _ => False

/-- What an isle sees of an action. -/
def at? [DecidableEq I] (i : I) : FleetLabel T I J K V → Option (Label J (Option K) V)
  | pool _ => none
  | close _ k l | isle k l => if k = i then some l else none

end FleetLabel

section

variable {T I J K V : Type} [DecidableEq T] [DecidableEq I] [DecidableEq J] [DecidableEq K]
  {fc : FleetConfig T I J V}

/-! ## An isle as a part of the fleet -/

/-- An isle of a fleet. -/
def isleIn (fc : FleetConfig T I J V) (i : I) :
    (fleet (K := K) fc).Component (isle (K := Option K) (fc.isle i)) where
  state s := s.isle i
  label := FleetLabel.at? i
  reachable _ h := (fleetInv_reachable h).isles i
  idle s l t _ hs h := by
    have other {k : I} {l : Label J (Option K) V} {u : State J (Option K) V}
        (h : (if k = i then some l else none) = none) :
        Function.update s.isle k u i = s.isle i := by
      refine Function.update_of_ne (fun hik => ?_) _ _
      rw [if_pos hik.symm] at h
      cases h
    cases hs with
    | pool => rfl
    | close | closed | isle => exact other h
  move s l t l' _ hs h := by
    have own {k : I} {l l' : Label J (Option K) V} {u : State J (Option K) V}
        (h : (if k = i then some l else none) = some l') (hs : Step (fc.isle k) (s.isle k) l u) :
        Step (fc.isle i) (s.isle i) l' (Function.update s.isle k u i) := by
      split at h
      · next hki =>
        obtain rfl := Option.some.inj h
        subst hki
        rwa [Function.update_self]
      · cases h
    cases hs with
    | pool => cases h
    | close _ _ hs | closed _ _ hs | isle _ hs => exact own h hs

/-! ## The isle that a thread is shutting down -/

lemma record_mono {cfg : PoolConfig} {s s' : PoolState T I} {l : PoolLabel T I}
    (hs : PoolStep cfg s l s') (i : I) :
    (s.record i).dead ≤ (s'.record i).dead ∧ (s.record i).returned ≤ (s'.record i).returned := by
  cases hs with
  | acquireIsle | acquireGrow | acquireNeedWait | returnDead => simp [PoolState.dropDead]
  | returnEnd | drainEnd => simp [PoolState.endShutdown]
  | _ => exact ⟨le_rfl, le_rfl⟩

lemma handles_step {cfg : Config J V} {s u : State J K V} {l : Label J K V}
    (hfront : cfg.front = .sync) (hs : Step cfg s l u) (hl : ¬ l.drops) :
    u.handles = s.handles ∧ u.dropping = s.dropping := by
  cases hs with
  | cloneHandle hasync | dropHandle hasync =>
    rw [hfront] at hasync
    cases hasync
  | dropIsleSent | dropIsleFull | dropIsleTx => exact absurd trivial hl
  | _ => exact ⟨rfl, rfl⟩

lemma ownCall_keeps {cfg : Config J V} {s u : State J (Option K) V} {l : Label J (Option K) V}
    (hown : ¬ l.ofPool) (hs : Step cfg s l u) : u.calls none = s.calls none := by
  have other {k : Option K} {c : ShutdownCall} (hk : k ≠ none) :
      Function.update s.calls k c none = s.calls none := Function.update_of_ne hk.symm _ _
  cases hs with
  | shutCall | shutSend | shutSendClosed | shutTake | shutSkip | shutJoin => exact other hown
  | _ => rfl

/-- The isle is dropped, and the pool's own call of `Isle::shutdown` on it has returned, only when the
pool has found it dead or shut it down. -/
structure Retained (s : Fleet T I J K V) (i : I) : Prop where
  handle : 0 < (s.isle i).handles ∧ (s.isle i).dropping = false ∨
    0 < (s.pool.record i).dead + (s.pool.record i).returned
  returned : (s.isle i).calls none = .returned → 0 < (s.pool.record i).returned

variable [Fintype T]

lemma retained_step {s t : Fleet T I J K V} {l : FleetLabel T I J K V} {i : I}
    (h : (fleet fc).Reachable s) (hi : Retained s i) (hs : FleetStep fc s l t) : Retained t i := by
  -- the pool's books are kept, and the isle `k` goes on to `u`
  have moved {p : PoolState T I} {k : I} {u : State J (Option K) V}
      (hmono : (s.pool.record i).dead ≤ (p.record i).dead ∧
        (s.pool.record i).returned ≤ (p.record i).returned)
      (hhandle : k = i → (u.handles = (s.isle i).handles ∧ u.dropping = (s.isle i).dropping) ∨
        0 < (p.record i).dead + (p.record i).returned)
      (hreturned : k = i → u.calls none = .returned →
        (s.isle i).calls none = .returned ∨ 0 < (p.record i).returned) :
      Retained (⟨p, Function.update s.isle k u⟩ : Fleet T I J K V) i := by
    have hmore := hi.handle.imp_right (fun h => lt_of_lt_of_le h (Nat.add_le_add hmono.1 hmono.2))
    have hdone (h : (s.isle i).calls none = .returned) := lt_of_lt_of_le (hi.returned h) hmono.2
    by_cases hki : k = i
    · refine ⟨?_, fun hret => ?_⟩ <;> dsimp only at * <;> subst hki
      · rw [Function.update_self]
        rcases hhandle rfl with ⟨h1, h2⟩ | h
        · rwa [h1, h2]
        · exact Or.inr h
      · rw [Function.update_self] at hret
        exact (hreturned rfl hret).elim hdone id
    · refine ⟨?_, fun hret => ?_⟩ <;> dsimp only at *
      · rwa [Function.update_of_ne (Ne.symm hki)]
      · rw [Function.update_of_ne (Ne.symm hki)] at hret
        exact hdone hret
  cases hs with
  | @pool l p hl hs =>
    obtain ⟨hdead, hreturned⟩ := record_mono hs i
    refine ⟨hi.handle.imp_right (fun h => ?_), fun h => lt_of_lt_of_le (hi.returned h) hreturned⟩
    exact lt_of_lt_of_le h (Nat.add_le_add hdead hreturned)
  | @close v k l u hpc hl hs hcall =>
    refine moved ⟨le_rfl, le_rfl⟩ (fun hki => ?_) (fun _ hret => absurd hret hcall)
    subst hki
    refine Or.inl (handles_step (fc.sync k) hs ?_)
    cases l <;> first | exact hl.elim | exact id
  | @closed v k l u pl p hpc hl hs hcall hend hp =>
    obtain ⟨-, -, hreturned⟩ := isles_of_end (v := s.view fc) hend hpc hp
    refine moved (record_mono hp i) (fun hki => ?_) (fun hki _ => Or.inr (hki ▸ hreturned))
    subst hki
    exact Or.inr (by omega)
  | @isle k l u hl hs =>
    refine moved ⟨le_rfl, le_rfl⟩ (fun hki => ?_) (fun hki hret => ?_) <;> subst hki
    · by_cases hdrop : l.drops
      · refine Or.inr ?_
        have hrecord := record_of_released h hl.created (hl.released hdrop)
        omega
      · exact Or.inl (handles_step (fc.sync k) hs hdrop)
    · exact Or.inl (ownCall_keeps hl.own hs ▸ hret)

lemma retained_reachable {s : Fleet T I J K V} (h : (fleet fc).Reachable s) (i : I) : Retained s i := by
  refine TransitionSystem.ReachableVia.invariant_of (J := fun s => (fleet fc).Reachable s)
    (I := fun s => Retained s i) (fun _ h => h) ?_ (fun _ _ _ hr hi _ hs => retained_step hr hi hs) h
  exact ⟨Or.inl ⟨Nat.one_pos, rfl⟩, fun h => by cases h⟩

lemma record_of_shuttingDown {s : PoolState T I} {cfg : PoolConfig} (h : (pool cfg).Reachable s)
    {t : T} {i : I} (ht : (s.pc t).shuttingDown? = some i) :
    s.created i = true ∧ (s.record i).dead = 0 ∧ (s.record i).returned = 0 := by
  have hplace := (custody_reachable h i).place
  have hdisposing : 0 < carried PoolPc.disposing s.pc i := by
    refine lt_of_lt_of_le ?_ (le_tally (fun p => (PoolPc.disposing p).count i) s.pc t)
    cases hpc : s.pc t with
    | returnShutdown | drainShutdown =>
      rw [hpc] at ht
      cases ht
      simp [PoolPc.disposing]
    | _ =>
      rw [hpc] at ht
      cases ht
  cases hcreated : s.created i with
  | true =>
    rw [hcreated, if_pos rfl] at hplace
    exact ⟨rfl, by omega, by omega⟩
  | false =>
    rw [hcreated] at hplace
    simp only [Bool.false_eq_true, if_false] at hplace
    omega

/-! ## `Isle::shutdown`, called under the lock, returns -/

lemma ownCall_acts {cfg : Config J V} {s u : State J (Option K) V} {l : Label J (Option K) V}
    (hown : l.ofPool) (hs : Step cfg s l u) :
    l.ofCall none ∧ s.calls none ≠ .idle ∨ s.calls none = .idle ∧ u.calls none ≠ .idle := by
  cases hs with
  | shutCall _ hcall =>
    cases hown
    exact Or.inr ⟨hcall, by simp⟩
  | shutSend hcall | shutSendClosed hcall | shutTake hcall | shutSkip hcall | shutJoin hcall =>
    cases hown
    exact Or.inl ⟨rfl, by simp [hcall]⟩
  | _ => exact hown.elim

lemma enabled_of_ownCall {s : Fleet T I J K V} (hinv : FleetInv fc s) {t : T} {i : I}
    (ht : (s.pool.pc t).shuttingDown? = some i) {l : Label J (Option K) V} {u : State J (Option K) V}
    (hl : l.ofPool) (hs : Step (fc.isle i) (s.isle i) l u) :
    (fleet fc).Enabled (FleetLabel.ofThread t) s := by
  by_cases hret : u.calls none = .returned
  · have hreturns := ((ownCall (joined_reachable (hinv.isles i)) hl hs).returns hret).1
    obtain ⟨pl, p, hend, hp⟩ : ∃ pl p, (pl = .returnEnd t ∨ pl = .drainEnd t) ∧
        PoolStep fc.pool (s.view fc) pl p := ends_of_returns (s := s.view fc) ht hreturns
    exact ⟨.close t i l, _, rfl, .closed ht hl hs hret hend hp⟩
  · exact ⟨.close t i l, _, rfl, .close ht hl hs hret⟩

lemma ownCall_of_thread {s s' : Fleet T I J K V} {l : FleetLabel T I J K V} {t : T} {i : I}
    (hs : FleetStep fc s l s') (hl : l.ofThread t) (ht : (s.pool.pc t).shuttingDown? = some i)
    (hstay : s'.pool.pc t = s.pool.pc t) :
    ∃ l', l.at? i = some l' ∧ l'.ofPool ∧ Step (fc.isle i) (s.isle i) l' (s'.isle i) := by
  cases hs with
  | pool _ hs => exact absurd hstay (goesOn_leaves (s := s.view fc) hs hl)
  | @close u k l v hpc hpool hs | @closed u k l v _ _ hpc hpool hs =>
    cases hl
    obtain rfl : k = i := by
      rw [ht] at hpc
      exact (Option.some.inj hpc).symm
    exact ⟨l, by simp [FleetLabel.at?], hpool, by simpa using hs⟩
  | isle => exact hl.elim

variable {e : (fleet (K := K) fc).Execution}

lemma shutdown_begins {t : T} {i : I} {p : PoolPc I} (hp : p.shuttingDown? = some i)
    (hthread : e.StronglyFair (FleetLabel.ofThread t)) {n : ℕ}
    (hpc : ∀ m, n ≤ m → (e.state m).pool.pc t = p) :
    ∃ m, n ≤ m ∧ ((e.state m).isle i).calls none ≠ .idle := by
  by_contra hnone
  have hidle (m : ℕ) (hm : n ≤ m) : ((e.state m).isle i).calls none = .idle := by
    by_contra h
    exact hnone ⟨m, hm, h⟩
  obtain ⟨m, hm, l, hl, hlm⟩ := hthread n (fun m hm => by
    have hpool := pool_reachable (e.reachable m)
    have hrecord := record_of_shuttingDown hpool (t := t) (i := i) (by rw [← hp, ← hpc m hm]; rfl)
    have hhandle := (retained_reachable (e.reachable m) i).handle.resolve_right (by
      rw [show (e.state m).pool.record = ((e.state m).view fc).record from rfl, hrecord.2.1,
        hrecord.2.2]
      exact lt_irrefl 0)
    exact ⟨m, le_rfl, enabled_of_ownCall (fleetInv_reachable (e.reachable m))
      (by rw [hpc m hm, hp]) (l := .shutCall none) rfl
      (.shutCall (fc.sync i) (hidle m hm) hhandle.1 hhandle.2)⟩)
  obtain ⟨l', -, hl', hs⟩ := ownCall_of_thread (e.move m l hlm) hl (by rw [hpc m hm, hp])
    (by rw [hpc m hm, hpc (m + 1) (by omega)])
  rcases ownCall_acts hl' hs with ⟨-, h⟩ | ⟨-, h⟩
  · exact h (hidle m hm)
  · exact h (hidle (m + 1) (by omega))

lemma shutdown_lets_go (hworkers : ∀ i, e.WeaklyFair (FleetLabel.ofWorker i))
    (hquiet : ∀ n, Fleet.Quiet fc (e.state n)) {t : T}
    (hthread : e.StronglyFair (FleetLabel.ofThread t)) {i : I} {p : PoolPc I}
    (hp : p.shuttingDown? = some i) :
    e.LeadsTo (fun s => s.pool.pc t = p) (fun s => s.pool.pc t ≠ p) := by
  intro n hn
  by_contra hstuck
  have hpc (m : ℕ) (hm : n ≤ m) : (e.state m).pool.pc t = p := by
    by_contra h
    exact hstuck ⟨m, hm, h⟩
  have hat (m : ℕ) (hm : n ≤ m) : ((e.state m).pool.pc t).shuttingDown? = some i := by
    rw [hpc m hm, hp]
  have hrecord (m : ℕ) (hm : n ≤ m) :=
    record_of_shuttingDown (pool_reachable (e.reachable m)) (t := t) (i := i) (hat m hm)
  obtain ⟨b, hb, hbegun⟩ := shutdown_begins hp hthread hpc
  -- the isle's own execution, once the call has begun
  have hrunning (m : ℕ) (hm : b ≤ m) : ((e.state m).isle i).calls none ≠ .idle :=
    (e.project (isleIn fc i)).stays (I := fun s => s.calls none ≠ .idle)
      (fun _ _ _ _ h hs => call_begun hs h) hm hbegun
  have hisle : ((e.after b).project (isleIn fc i)).WeaklyFair (fun l => l.onThread = true) := by
    refine ((hworkers i).after b).project (fun m => ?_) (fun m l _ hl => ?_)
    · rintro ⟨l, u, hl, hs⟩
      exact ⟨.isle i l, _, ⟨rfl, hl⟩, .isle (Fleet.allows_thread hl (hrecord (b + m) (by omega)).1
        (hquiet (b + m) t i (hat (b + m) (by omega)))) hs⟩
    · cases l with
      | isle k l => exact ⟨l, by simp [isleIn, FleetLabel.at?, hl.1], hl.2⟩
      | pool | close => exact hl.elim
  have hcall : ((e.after b).project (isleIn fc i)).StronglyFair (fun l => l.ofCall none) := by
    refine (hthread.after b).project (fun m => ?_) (fun m l hlm hl => ?_)
    · rintro ⟨l, u, hl, hs⟩
      refine enabled_of_ownCall (fleetInv_reachable (e.reachable (b + m))) (hat (b + m) (by omega))
        (l := l) ?_ hs
      cases l <;> first | exact hl | exact hl.elim
    · obtain ⟨l', hsee, hpool, hs⟩ := ownCall_of_thread (e.move (b + m) l hlm) hl
        (hat (b + m) (by omega)) (by rw [hpc (b + m) (by omega), hpc (b + m + 1) (by omega)])
      refine ⟨l', hsee, ?_⟩
      rcases ownCall_acts hpool hs with ⟨h, -⟩ | ⟨h, -⟩
      · exact h
      · exact absurd h (hrunning (b + m) (by omega))
  obtain ⟨m, -, hret⟩ := call_ends hisle hcall 0 hbegun
  have hreturned := (retained_reachable (e.reachable (b + m)) i).returned hret
  rw [show (e.state (b + m)).pool.record = ((e.state (b + m)).view fc).record from rfl,
    (hrecord (b + m) (by omega)).2.2] at hreturned
  exact lt_irrefl 0 hreturned

/-! ## The lock is let go -/

lemma fleet_next {s s' : Fleet T I J K V} {l : FleetLabel T I J K V} {t : T}
    (h : (fleet fc).Reachable s) (hs : FleetStep fc s l s') :
    s'.pool.pc t = s.pool.pc t ∨
      (s.pool.pc t).Next fc.pool.horizon s.pool.now (s'.pool.pc t) := by
  rcases fleet_step (fleetInv_reachable h) hs with heq | ⟨pl, hp⟩
  · exact Or.inl (congrArg (fun v => v.pc t) heq)
  · have hnext := next_step hp (t := t)
    exact hnext

lemma lock_taken {cfg : PoolConfig} {s s' : PoolState T I} {l : PoolLabel T I} {t : T}
    (hs : PoolStep cfg s l s') (ht : s'.lock = some t) : s.lock = some t ∨ s.lock = none := by
  cases hs with
  | acquireNeedWait hlock | returnClosed hlock | shutdown hlock => exact Or.inr hlock
  | sleep | refuse | returnEnd | shutdownEnd => cases ht
  | _ => exact Or.inl ht

lemma lock_of_leaving {s s' : Fleet T I J K V} {l : FleetLabel T I J K V} {t : T}
    (h : (fleet fc).Reachable s) (hs : FleetStep fc s l s') (ht : (s.pool.pc t).holdsLock = true)
    (ht' : (s'.pool.pc t).holdsLock = false) : s'.pool.lock = none := by
  by_contra hlock
  obtain ⟨u, hu⟩ := Option.ne_none_iff_exists'.mp hlock
  have howner : (s.view fc).lock = some t := (held_reachable (pool_reachable h) t).owner ht
  have hholds : (s'.pool.pc u).holdsLock = true := holder_of_taken (pool_reachable (h.tail hs)) hu
  have hut : (s.view fc).lock = some u ∨ (s.view fc).lock = none := by
    rcases fleet_step (fleetInv_reachable h) hs with heq | ⟨pl, hp⟩
    · exact Or.inl (heq ▸ hu)
    · exact lock_taken hp hu
  rw [howner] at hut
  obtain rfl : t = u := by simpa using hut
  rw [ht'] at hholds
  cases hholds

lemma position_left {t : T} (hthread : e.StronglyFair (FleetLabel.ofThread t)) {p : PoolPc I}
    (hp : p.shuttingDown? = none)
    (hrecurs : ∀ n, (∀ m, n ≤ m → (e.state m).pool.pc t = p) →
      ∃ m, n ≤ m ∧ ∃ l s', l.goesOn t ∧ PoolStep fc.pool ((e.state m).view fc) l s') :
    e.LeadsTo (fun s => s.pool.pc t = p) (fun s => s.pool.pc t ≠ p) := by
  refine hthread.leaves (fun n hn => ?_) ?_ (fun _ _ _ _ _ h => h)
  · obtain ⟨m, hm, l, s', hl, hs⟩ := hrecurs n hn
    refine ⟨m, hm, .pool l, _, hl, .pool ?_ hs⟩
    cases l <;> first | exact trivial | exact hl.elim
  · intro s l s' hpc hl hs
    cases hs with
    | pool _ hs => exact hpc ▸ goesOn_leaves (s := s.view fc) hs hl
    | close ht | closed ht =>
      cases hl
      rw [hpc, hp] at ht
      cases ht
    | isle => exact hl.elim

lemma lock_let_go (hworkers : ∀ i, e.WeaklyFair (FleetLabel.ofWorker i))
    (hquiet : ∀ n, Fleet.Quiet fc (e.state n)) {t : T}
    (hthread : e.StronglyFair (FleetLabel.ofThread t)) :
    e.LeadsTo (fun s => (s.pool.pc t).holdsLock = true) (fun s => s.pool.lock = none) := by
  refine .of_rank PoolPc.ahead_wf (fun s => s.pool.pc t) (fun p => ?_)
  intro n hn
  have hp : p.holdsLock = true := hn.2 ▸ hn.1
  have hleft : e.LeadsTo (fun s => s.pool.pc t = p) (fun s => s.pool.pc t ≠ p) := by
    cases hshut : p.shuttingDown? with
    | none =>
      refine position_left hthread hshut (fun n hn => ⟨n, le_rfl, ?_⟩)
      exact goesOn_of_holds (s := (e.state n).view fc) (t := t) (hn n le_rfl ▸ hp)
        (by rw [← hshut, ← hn n le_rfl]; rfl)
    | some i => exact shutdown_lets_go hworkers hquiet hthread hshut
  refine hleft.change (P := fun s => (s.pool.pc t).holdsLock = true)
    (Q := fun s => s.pool.lock = none ∨ (s.pool.pc t).holdsLock = true ∧ (s.pool.pc t).Ahead p)
    ?_ n hn
  intro s l s' h hholds hpc hs
  by_cases hpc' : s'.pool.pc t = p
  · exact Or.inl ⟨hpc', hpc' ▸ hp⟩
  refine Or.inr ?_
  cases hholds' : (s'.pool.pc t).holdsLock with
  | false => exact Or.inl (lock_of_leaving h hs hholds hholds')
  | true =>
    have hunder : (s.pool.pc t).underWay = true := by
      rw [hpc]
      cases p <;> first | rfl | cases hp
    refine Or.inr ⟨rfl, ?_⟩
    rw [← hpc] at hpc' ⊢
    exact ((fleet_next h hs).resolve_left hpc').ahead hunder

/-- The lock is free again and again. -/
lemma lock_recurs (hworkers : ∀ i, e.WeaklyFair (FleetLabel.ofWorker i))
    (hquiet : ∀ n, Fleet.Quiet fc (e.state n))
    (hthreads : ∀ t, e.StronglyFair (FleetLabel.ofThread t)) (n : ℕ) :
    ∃ m, n ≤ m ∧ (e.state m).pool.lock = none := by
  cases hlock : (e.state n).pool.lock with
  | none => exact ⟨n, le_rfl, hlock⟩
  | some u =>
    exact lock_let_go hworkers hquiet (hthreads u) n
      (holder_of_taken (pool_reachable (e.reachable n)) hlock)

/-! ## What is on its way arrives -/

lemma underWay_left (hworkers : ∀ i, e.WeaklyFair (FleetLabel.ofWorker i))
    (hquiet : ∀ n, Fleet.Quiet fc (e.state n))
    (hthreads : ∀ t, e.StronglyFair (FleetLabel.ofThread t)) (t : T) {p : PoolPc I}
    (hp : p.underWay = true) :
    e.LeadsTo (fun s => s.pool.pc t = p) (fun s => s.pool.pc t ≠ p) := by
  rcases PoolPc.underWay_cases hp with hwaits | ⟨hholds, hshut⟩ | ⟨i, hi⟩
  · refine position_left (hthreads t) ?_ (fun n hn => ?_)
    · cases p <;> first | rfl | cases hwaits
    · obtain ⟨m, hm, hlock⟩ := lock_recurs hworkers hquiet hthreads n
      exact ⟨m, hm, goesOn_of_free (s := (e.state m).view fc) hlock (hn m hm ▸ hwaits)⟩
  · refine position_left (hthreads t) hshut (fun n hn => ⟨n, le_rfl, ?_⟩)
    exact goesOn_of_holds (s := (e.state n).view fc) (t := t) (hn n le_rfl ▸ hholds)
      (by rw [← hshut, ← hn n le_rfl]; rfl)
  · exact shutdown_lets_go hworkers hquiet (hthreads t) hi

/-- What a thread on its way keeps, it has when it arrives. -/
lemma arrives (hworkers : ∀ i, e.WeaklyFair (FleetLabel.ofWorker i))
    (hquiet : ∀ n, Fleet.Quiet fc (e.state n))
    (hthreads : ∀ t, e.StronglyFair (FleetLabel.ofThread t)) (t : T)
    {P : Fleet T I J K V → Prop}
    (hkeep : ∀ s l s', (fleet fc).Reachable s → P s → (s.pool.pc t).underWay = true →
      FleetStep fc s l s' → P s') :
    e.LeadsTo P (fun s => P s ∧ (s.pool.pc t).underWay = false) := by
  have hway : e.LeadsTo (fun s => P s ∧ (s.pool.pc t).underWay = true)
      (fun s => P s ∧ (s.pool.pc t).underWay = false) := by
    refine .of_rank PoolPc.ahead_wf (fun s => s.pool.pc t) (fun p => ?_)
    intro n hn
    have hp : p.underWay = true := hn.2 ▸ hn.1.2
    refine (underWay_left hworkers hquiet hthreads t hp).change (P := P)
      (Q := fun s => P s ∧ (s.pool.pc t).underWay = false ∨
        (P s ∧ (s.pool.pc t).underWay = true) ∧ (s.pool.pc t).Ahead p) ?_ n ⟨hn.1.1, hn.2⟩
    intro s l s' h hP hpc hs
    have hP' := hkeep s l s' h hP (hpc ▸ hp) hs
    by_cases hpc' : s'.pool.pc t = p
    · exact Or.inl ⟨hpc', hP'⟩
    refine Or.inr ?_
    cases hway : (s'.pool.pc t).underWay with
    | false => exact Or.inl ⟨hP', rfl⟩
    | true =>
      refine Or.inr ⟨⟨hP', rfl⟩, ?_⟩
      rw [← hpc] at hp hpc' ⊢
      exact ((fleet_next h hs).resolve_left hpc').ahead hp
  intro n hn
  cases hway' : ((e.state n).pool.pc t).underWay with
  | false => exact ⟨n, le_rfl, hn, hway'⟩
  | true => exact hway n ⟨hn, hway'⟩

/-! ## Calls return -/

lemma factory_returns (hworkers : ∀ i, e.WeaklyFair (FleetLabel.ofWorker i))
    (hquiet : ∀ n, Fleet.Quiet fc (e.state n))
    (hthreads : ∀ t, e.StronglyFair (FleetLabel.ofThread t)) {t : T}
    (hfactory : e.LeadsTo (fun s => s.pool.pc t = .factory) (fun s => s.pool.pc t ≠ .factory)) :
    e.LeadsTo (fun s => s.pool.pc t = .factory) (fun s => s.pool.pc t = .rest) := by
  have hback : e.LeadsTo (fun s => True ∧ s.pool.pc t = .factory)
      (fun s => (s.pool.pc t).givesUp = true) := by
    refine hfactory.change (fun s l s' h _ hpc hs => ?_)
    by_cases hpc' : s'.pool.pc t = .factory
    · exact Or.inl ⟨hpc', trivial⟩
    refine Or.inr ?_
    have hnext := (fleet_next (t := t) h hs).resolve_left (fun heq => hpc' (heq.trans hpc))
    rw [hpc] at hnext
    exact hnext.of_factory
  have harrives := arrives hworkers hquiet hthreads t (P := fun s => (s.pool.pc t).givesUp = true)
    (fun s l s' h hgives hway hs => by
      rcases fleet_next (t := t) h hs with heq | hnext
      · rwa [heq]
      · exact hnext.givesUp hway hgives)
  intro n hn
  obtain ⟨m, hm, hgives⟩ := hback n ⟨trivial, hn⟩
  obtain ⟨k, hk, hgives', hout⟩ := harrives m hgives
  exact ⟨k, hm.trans hk, PoolPc.rest_of_givesUp hgives' hout⟩

lemma returns_of_awake (hworkers : ∀ i, e.WeaklyFair (FleetLabel.ofWorker i))
    (hquiet : ∀ n, Fleet.Quiet fc (e.state n))
    (hthreads : ∀ t, e.StronglyFair (FleetLabel.ofThread t)) {t : T}
    (hfactory : e.LeadsTo (fun s => s.pool.pc t = .factory) (fun s => s.pool.pc t ≠ .factory))
    {P : Fleet T I J K V → Prop} (hawake : ∀ s, P s → ∀ w, s.pool.pc t ≠ .blocked w)
    (hkeep : ∀ s l s', (fleet fc).Reachable s → P s → (s.pool.pc t).underWay = true →
      FleetStep fc s l s' → P s') :
    e.LeadsTo P (fun s => s.pool.pc t = .rest) := by
  have hout := (arrives hworkers hquiet hthreads t hkeep).mono
    (fun s _ h => PoolPc.rest_or_factory (hawake s h.1) h.2)
  exact hout.trans (.or (.of_imp fun _ _ h => h)
    (factory_returns hworkers hquiet hthreads hfactory))

lemma closed_keeps {s s' : Fleet T I J K V} {l : FleetLabel T I J K V}
    (h : (fleet fc).Reachable s) (hs : FleetStep fc s l s') (hclosed : s.pool.inner.closed = true) :
    s'.pool.inner.closed = true := by
  rcases fleet_step (fleetInv_reachable h) hs with heq | ⟨pl, hp⟩
  · exact (congrArg (fun v => v.inner.closed) heq).trans hclosed
  · have hstill := closed_of_step hp hclosed
    exact hstill

lemma awake_of_closed {s : Fleet T I J K V} (h : (fleet fc).Reachable s)
    (hclosed : s.pool.inner.closed = true) (hlock : s.pool.lock = none) (t : T) (w : Patience) :
    s.pool.pc t ≠ .blocked w := by
  have hpool := pool_reachable h
  rcases roused_reachable hpool hclosed with ⟨u, hu⟩ | hnone
  · have hholds : (s.pool.pc u).holdsLock = true := by
      cases hpc : s.pool.pc u with
      | draining | drainShutdown => rfl
      | _ =>
        rw [show ((s.view fc).pc u) = s.pool.pc u from rfl, hpc] at hu
        cases hu
    have howner : s.pool.lock = some u := (held_reachable hpool u).owner hholds
    rw [hlock] at howner
    cases howner
  · exact hnone t w

lemma prompt_returns (hworkers : ∀ i, e.WeaklyFair (FleetLabel.ofWorker i))
    (hquiet : ∀ n, Fleet.Quiet fc (e.state n))
    (hthreads : ∀ t, e.StronglyFair (FleetLabel.ofThread t)) {t : T}
    (hfactory : e.LeadsTo (fun s => s.pool.pc t = .factory) (fun s => s.pool.pc t ≠ .factory)) :
    e.LeadsTo (fun s => (s.pool.pc t).prompt = true) (fun s => s.pool.pc t = .rest) := by
  refine returns_of_awake hworkers hquiet hthreads hfactory (fun s hprompt w hpc => ?_) ?_
  · rw [hpc] at hprompt
    cases hprompt
  · intro s l s' h hprompt hway hs
    rcases fleet_next (t := t) h hs with heq | hnext
    · rwa [heq]
    · exact hnext.prompt hway hprompt

lemma closed_returns (hworkers : ∀ i, e.WeaklyFair (FleetLabel.ofWorker i))
    (hquiet : ∀ n, Fleet.Quiet fc (e.state n))
    (hthreads : ∀ t, e.StronglyFair (FleetLabel.ofThread t)) {t : T}
    (hfactory : e.LeadsTo (fun s => s.pool.pc t = .factory) (fun s => s.pool.pc t ≠ .factory)) :
    e.LeadsTo (fun s => s.pool.inner.closed = true) (fun s => s.pool.pc t = .rest) := by
  intro n hclosed
  obtain ⟨m, hm, hlock⟩ := lock_recurs hworkers hquiet hthreads n
  have hclosed' : (e.state m).pool.inner.closed = true :=
    e.stays (I := fun s => s.pool.inner.closed = true) (fun _ _ _ h hc hs => closed_keeps h hs hc)
      hm hclosed
  have hends := returns_of_awake hworkers hquiet hthreads hfactory
    (P := fun s => s.pool.inner.closed = true ∧ ∀ w, s.pool.pc t ≠ .blocked w)
    (fun _ h => h.2) (fun s l s' h hP _ hs => by
      refine ⟨closed_keeps h hs hP.1, fun w hw => ?_⟩
      rcases fleet_step (fleetInv_reachable h) hs with heq | ⟨pl, hp⟩
      · exact hP.2 w ((congrArg (fun v => v.pc t) heq).symm.trans hw)
      · obtain ⟨w', hw'⟩ := blocked_step (held_reachable (pool_reachable h) t) hP.1 hp hw
        exact hP.2 w' hw')
  obtain ⟨k, hk, hrest⟩ := hends m
    ⟨hclosed', awake_of_closed (e.reachable m) hclosed' hlock t⟩
  exact ⟨k, hm.trans hk, hrest⟩

/-- Every call of the pool returns that does not wait for an isle: `try_checkout`, `active`, `idle`,
`shutdown`, and the drop of a guard. Once the pool is closed, every call returns. This is so whatever
the callers and the closures do, if the threads act when they can, the factory comes back, and the
closures of an isle that is being shut down keep away from the pool. -/
theorem pool_call_returns (hworkers : ∀ i, e.WeaklyFair (FleetLabel.ofWorker i))
    (hquiet : ∀ n, Fleet.Quiet fc (e.state n))
    (hthreads : ∀ t, e.StronglyFair (FleetLabel.ofThread t)) {t : T}
    (hfactory : e.LeadsTo (fun s => s.pool.pc t = .factory) (fun s => s.pool.pc t ≠ .factory)) :
    e.LeadsTo (fun s => (s.pool.pc t).prompt = true ∨ s.pool.inner.closed = true)
      (fun s => s.pool.pc t = .rest) :=
  .or (prompt_returns hworkers hquiet hthreads hfactory)
    (closed_returns hworkers hquiet hthreads hfactory)

lemma not_thread_of_rest {s : Fleet T I J K V} {t : T} (ht : s.pool.pc t = .rest) :
    ¬ (fleet fc).Enabled (FleetLabel.ofThread t) s := by
  rintro ⟨l, s', hl, hs⟩
  cases hs with
  | pool _ hs =>
    have hway := underWay_of_goesOn (s := s.view fc) hs hl
    rw [show (s.view fc).pc t = .rest from ht] at hway
    cases hway
  | close hpc | closed hpc =>
    cases hl
    rw [ht] at hpc
    cases hpc
  | isle => exact hl.elim

lemma not_worker_enabled {s : Fleet T I J K V} {i : I}
    (h : (s.isle i).pc.isFinished = true ∨
      (s.isle i).pc = .next ∧ (s.isle i).chan.buffer = [] ∧ (s.isle i).sendersGone = false) :
    ¬ (fleet fc).Enabled (FleetLabel.ofWorker i) s := by
  rintro ⟨l, s', hl, hs⟩
  cases hs with
  | isle _ hs =>
    obtain ⟨rfl, hthread⟩ := hl
    exact not_thread_enabled h ⟨_, _, hthread, hs⟩
  | pool | close | closed => exact hl.elim

end

/-- The pool is shut down while the job of its only isle is still queued. -/
theorem pool_call_returns_shut : ∃ e : (fleet (K := Unit) soloFleet).Execution,
    (e.state 0).pool.pc (some true) = .shutting ∧ ∃ n, (e.state n).pool.pc (some true) = .rest := by
  obtain ⟨s, t, hs, hshut, hrun, hrest, -, -, -, -, -, hfin⟩ := soloFleet_shutting
  obtain ⟨e, h0, hstops, hquiet⟩ := TransitionSystem.Execution.exists_stops_within hs hrun
    (fun _ _ _ => hrest _)
  have hshut0 : (e.state 0).pool.pc (some true) = .shutting := by rw [h0, hshut]
  obtain ⟨n, -, hn⟩ := pool_call_returns
    (fun i => (hstops.stronglyFair (not_worker_enabled (Or.inl hfin))).weaklyFair) hquiet
    (fun u => hstops.stronglyFair (not_thread_of_rest (hrest u)))
    (hstops.leadsTo (by simp [hrest])) 0 (Or.inl (by rw [hshut0]; rfl))
  exact ⟨e, hshut0, n, hn⟩

/-! ## Timeouts -/

section

variable {T I J K V : Type} [DecidableEq T] [DecidableEq I] [DecidableEq J] [DecidableEq K]
  {fc : FleetConfig T I J V} [Fintype T] {e : (fleet (K := K) fc).Execution}

lemma fleet_now {s s' : Fleet T I J K V} {l : FleetLabel T I J K V} (h : (fleet fc).Reachable s)
    (hs : FleetStep fc s l s') : s.pool.now ≤ s'.pool.now := by
  rcases fleet_step (fleetInv_reachable h) hs with heq | ⟨pl, hp⟩
  · exact (congrArg PoolState.now heq).ge
  · have hlater := now_step hp
    exact hlater

lemma late_returns (hworkers : ∀ i, e.WeaklyFair (FleetLabel.ofWorker i))
    (hquiet : ∀ n, Fleet.Quiet fc (e.state n))
    (hthreads : ∀ t, e.StronglyFair (FleetLabel.ofThread t)) {t : T}
    (hfactory : e.LeadsTo (fun s => s.pool.pc t = .factory) (fun s => s.pool.pc t ≠ .factory))
    {d : ℕ} (htimer : e.LeadsTo (fun s => s.pool.pc t = .blocked (.deadline d))
      (fun s => s.pool.pc t ≠ .blocked (.deadline d))) :
    e.LeadsTo (fun s => d ≤ s.pool.now ∧ (s.pool.pc t).deadline? = some d)
      (fun s => s.pool.pc t = .rest) := by
  -- once it is awake
  have hawake : e.LeadsTo (fun s => (d ≤ s.pool.now ∧ (s.pool.pc t).deadline? = some d ∨
        s.pool.pc t = .rest ∨ s.pool.pc t = .factory) ∧ ∀ w, s.pool.pc t ≠ .blocked w)
      (fun s => s.pool.pc t = .rest) := by
    refine returns_of_awake hworkers hquiet hthreads hfactory (fun _ h => h.2) ?_
    rintro s l s' h ⟨hlate, hnot⟩ hway hs
    rcases fleet_next (t := t) h hs with heq | hnext
    · rw [heq]
      exact ⟨hlate.imp_left (fun hl => ⟨hl.1.trans (fleet_now h hs), hl.2⟩), hnot⟩
    · rcases hlate with ⟨hnow, hd⟩ | hpc | hpc
      · refine ⟨(hnext.deadline hd).imp_left (fun hd' => ⟨hnow.trans (fleet_now h hs), hd'⟩), ?_⟩
        intro w hw
        rw [hw] at hnext
        exact absurd (hnext.late hd) (Nat.not_lt.mpr hnow)
      · rw [hpc] at hway
        cases hway
      · rw [hpc] at hway
        cases hway
  have hwoken : e.LeadsTo (fun s => d ≤ s.pool.now ∧ s.pool.pc t = .blocked (.deadline d))
      (fun s => d ≤ s.pool.now ∧ s.pool.pc t = .woken (.deadline d)) := by
    refine htimer.change (fun s l s' h hnow hpc hs => ?_)
    have hnow' := hnow.trans (fleet_now h hs)
    rcases fleet_next (t := t) h hs with heq | hnext
    · exact Or.inl ⟨heq.trans hpc, hnow'⟩
    · rw [hpc] at hnext
      exact Or.inr ⟨hnow', hnext.of_blocked⟩
  intro n hn
  by_cases hpc : (e.state n).pool.pc t = .blocked (.deadline d)
  · obtain ⟨m, hm, hnow, hpcm⟩ := hwoken n ⟨hn.1, hpc⟩
    obtain ⟨k, hk, hrest⟩ := hawake m ⟨Or.inl ⟨hnow, by rw [hpcm]; rfl⟩, by simp [hpcm]⟩
    exact ⟨k, hm.trans hk, hrest⟩
  · refine hawake n ⟨Or.inl hn, fun w hw => hpc ?_⟩
    have hd := hn.2
    rw [hw] at hd ⊢
    cases w <;> cases hd
    rfl

/-- `checkout_timeout` returns, also if it never gets an isle, if in addition the clock goes past its
deadline and the wait on the condition variable ends after that. -/
theorem checkout_timeout_returns (hworkers : ∀ i, e.WeaklyFair (FleetLabel.ofWorker i))
    (hquiet : ∀ n, Fleet.Quiet fc (e.state n))
    (hthreads : ∀ t, e.StronglyFair (FleetLabel.ofThread t)) {t : T}
    (hfactory : e.LeadsTo (fun s => s.pool.pc t = .factory) (fun s => s.pool.pc t ≠ .factory))
    (hclock : ∀ d, e.LeadsTo (fun s => (s.pool.pc t).deadline? = some d) (fun s => d ≤ s.pool.now))
    (htimer : ∀ d, e.LeadsTo (fun s => s.pool.pc t = .blocked (.deadline d))
      (fun s => s.pool.pc t ≠ .blocked (.deadline d))) (timeout : ℕ) :
    e.LeadsTo (fun s => s.pool.pc t = .locking (.checkoutTimeout timeout))
      (fun s => s.pool.pc t = .rest) := by
  have hout : e.LeadsTo (fun s => s.pool.pc t = .rest ∨ s.pool.pc t = .factory)
      (fun s => s.pool.pc t = .rest) :=
    .or (.of_imp fun _ _ h => h) (factory_returns hworkers hquiet hthreads hfactory)
  have hfirst : e.LeadsTo (fun s => True ∧ s.pool.pc t = .locking (.checkoutTimeout timeout))
      (fun s => (∃ d, (s.pool.pc t).deadline? = some d) ∨ s.pool.pc t = .rest ∨
        s.pool.pc t = .factory) := by
    refine (underWay_left hworkers hquiet hthreads t rfl).change (fun s l s' h _ hpc hs => ?_)
    rcases fleet_next (t := t) h hs with heq | hnext
    · exact Or.inl ⟨heq.trans hpc, trivial⟩
    · rw [hpc] at hnext
      exact Or.inr hnext.of_timeout
  have hwait (d : ℕ) : e.LeadsTo (fun s => (s.pool.pc t).deadline? = some d)
      (fun s => s.pool.pc t = .rest) := by
    intro n hd
    obtain ⟨m, hm, hnow⟩ := hclock d n hd
    have hmeanwhile := e.keeps_or_reaches (P := fun s => (s.pool.pc t).deadline? = some d)
      (Q := fun s => s.pool.pc t = .rest ∨ s.pool.pc t = .factory) (fun s l s' h hd hs => by
        rcases fleet_next (t := t) h hs with heq | hnext
        · exact Or.inl (heq ▸ hd)
        · exact hnext.deadline hd) hm hd
    rcases hmeanwhile with hdm | ⟨k, hk, hkout⟩
    · obtain ⟨k, hk, hrest⟩ :=
        late_returns hworkers hquiet hthreads hfactory (htimer d) m ⟨hnow, hdm⟩
      exact ⟨k, hm.trans hk, hrest⟩
    · obtain ⟨i, hi, hrest⟩ := hout k hkout
      exact ⟨i, hk.trans hi, hrest⟩
  intro n hn
  obtain ⟨m, hm, ⟨d, hd⟩ | hmout⟩ := hfirst n ⟨trivial, hn⟩
  · obtain ⟨k, hk, hrest⟩ := hwait d m hd
    exact ⟨k, hm.trans hk, hrest⟩
  · obtain ⟨k, hk, hrest⟩ := hout m hmout
    exact ⟨k, hm.trans hk, hrest⟩

end

lemma soloFleet_timeout : ∃ s t : Fleet (Option Bool) Unit Bool Unit ℕ,
    (fleet soloFleet).Reachable s ∧ s.pool.pc (some false) = .locking (.checkoutTimeout 5) ∧
      (fleet soloFleet).RunVia (fun s _ => s.Quiet soloFleet) s t ∧ (∀ v, t.pool.pc v = .rest) ∧
      t.pool.now = 100 ∧ (t.isle ()).pc = .next ∧ (t.isle ()).chan.buffer = [] ∧
      (t.isle ()).sendersGone = false := by
  have q {s : Fleet (Option Bool) Unit Bool Unit ℕ} (h : s.pool.pc none = .rest) :
      s.Quiet soloFleet := fun _ _ _ => h
  have h0 := TransitionSystem.Reachable.refl (T := fleet (K := Unit) soloFleet)
  have h1 := h0.tail (.pool (l := .call (some true)) (soloFleet_mayUse (by decide))
    (.callCheckout (t := some true) .checkout rfl))
  have h2 := h1.tail (.pool (l := .lock (some true)) trivial
    (.acquireGrow (t := some true) rfl rfl rfl rfl rfl))
  have h3 := h2.tail (.pool (l := .factoryOk (some true) ()) trivial
    (.factoryOk (t := some true) (i := ()) rfl rfl))
  have h4 := h3.tail (.pool (l := .call (some false)) (soloFleet_mayUse (by decide))
    (.callCheckout (t := some false) (.checkoutTimeout 5) rfl))
  have r5 := (h4.here_via (fun s _ => s.Quiet soloFleet)).tail (.pool (l := .lock (some false)) trivial
    (.acquireNeedWait (t := some false) rfl rfl rfl rfl rfl)) (q rfl)
  have r6 := r5.tail (.pool (l := .decide (some false)) trivial (.sleep (t := some false) rfl rfl))
    (q rfl)
  have r7 := r6.tail (.pool (l := .tick) trivial
    (.tick (by decide) (show 100 ≤ soloFleet.pool.horizon by decide))) (q rfl)
  have r8 := r7.tail (.pool (l := .wake (some false)) trivial
    (.elapsed (t := some false) rfl (by decide))) (q rfl)
  have r9 := r8.tail (.pool (l := .lock (some false)) trivial
    (.acquireNeedWait (t := some false) rfl rfl rfl rfl rfl)) (q rfl)
  have r10 := r9.tail (.pool (l := .decide (some false)) trivial
    (.refuse (t := some false) rfl rfl)) (q rfl)
  refine ⟨_, _, h4, rfl, r10, ?_, rfl, rfl, rfl, rfl⟩
  intro v
  rcases v with _ | _ | _ <;> rfl

theorem checkout_timeout_returns_refused : ∃ e : (fleet (K := Unit) soloFleet).Execution,
    (e.state 0).pool.pc (some false) = .locking (.checkoutTimeout 5) ∧
      ∃ n, (e.state n).pool.pc (some false) = .rest := by
  obtain ⟨s, t, hs, hcall, hrun, hrest, hnow, hidle⟩ := soloFleet_timeout
  obtain ⟨e, h0, hstops, hquiet⟩ := TransitionSystem.Execution.exists_stops_within hs hrun
    (fun _ _ _ => hrest _)
  have hcall0 : (e.state 0).pool.pc (some false) = .locking (.checkoutTimeout 5) := by
    rw [h0, hcall]
  have hclock (d : ℕ) : e.LeadsTo (fun s => (s.pool.pc (some false)).deadline? = some d)
      (fun s => d ≤ s.pool.now) := by
    intro n hd
    have hle : d ≤ 100 := deadline_le_horizon (pool_reachable (e.reachable n)) (t := some false) hd
    exact hstops.leadsTo (P := fun _ => True) (Q := fun s => d ≤ s.pool.now) (hnow ▸ hle) n trivial
  obtain ⟨n, -, hn⟩ := checkout_timeout_returns
    (fun _ => (hstops.stronglyFair (not_worker_enabled (Or.inr hidle))).weaklyFair) hquiet
    (fun u => hstops.stronglyFair (not_thread_of_rest (hrest u)))
    (hstops.leadsTo (by simp [hrest])) hclock (fun _ => hstops.leadsTo (by simp [hrest])) 5 0 hcall0
  exact ⟨e, hcall0, n, hn⟩

end RusqliteIsle
