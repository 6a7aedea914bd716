import RusqliteIsle.Pool.Lock
import RusqliteIsle.Pool.Slots

/-!
# Where the isles are

An isle that the factory has returned is idle, in a guard, or disposed of: found dead and dropped,
or shut down by the pool. `Custody` counts an isle at all these places. The count is one from the
moment the isle is created, so the pool neither loses nor duplicates it.
-/

namespace RusqliteIsle

set_option linter.unusedSectionVars false

namespace PoolPc

variable {I : Type}

/-- The isle of a guard that is being dropped. -/
def dropped : PoolPc I → List I
  | returning i => [i]
  | _ => []

/-- The isles that a thread is about to shut down or is shutting down. -/
def disposing : PoolPc I → List I
  | returnShutdown i => [i]
  | draining queue => queue
  | drainShutdown i queue => i :: queue
  | _ => []

/-- The isle whose `Isle::shutdown` a thread is in. -/
def closing : PoolPc I → List I
  | returnShutdown i => [i]
  | drainShutdown i _ => [i]
  | _ => []

/-- All the isles in the hands of a thread. -/
def hands (p : PoolPc I) : List I × List I × List I := (p.dropped, p.disposing, p.closing)

lemma hands_of_entering {p : PoolPc I} {horizon now : ℕ} (h : p.entering horizon now ≠ none) :
    p.hands = ([], [], []) := by
  rcases entering_cases h with ⟨call, rfl⟩ | ⟨w, rfl⟩ <;> rfl

end PoolPc

variable {T I : Type} [DecidableEq T] [DecidableEq I] [Fintype T] {cfg : PoolConfig}

/-- How often the threads have the isle `i` in one of their lists. -/
def carried (list : PoolPc I → List I) (pc : T → PoolPc I) (i : I) : ℕ :=
  tally (fun p => (list p).count i) pc

section

variable {pc pc' pc'' : T → PoolPc I} {t : T} {p q : PoolPc I} {i k : I}

/-- A thread moves from `p` to `q`; others may be woken. -/
structure Handed (pc pc' : T → PoolPc I) (p q : PoolPc I) (i : I) : Prop where
  dropped : carried PoolPc.dropped pc' i + p.dropped.count i =
    carried PoolPc.dropped pc i + q.dropped.count i
  disposing : carried PoolPc.disposing pc' i + p.disposing.count i =
    carried PoolPc.disposing pc i + q.disposing.count i
  closing : carried PoolPc.closing pc' i + p.closing.count i =
    carried PoolPc.closing pc i + q.closing.count i

lemma handed_update (hpc : pc t = p) (q : PoolPc I) (i : I) :
    Handed pc (Function.update pc t q) p q i :=
  ⟨hpc ▸ tally_update q, hpc ▸ tally_update q, hpc ▸ tally_update q⟩

lemma Handed.notify (h : Handed pc pc' p q i) (hnotify : NotifyOne pc' pc'') :
    Handed pc pc'' p q i := by
  obtain ⟨h1, h2, h3⟩ := h
  refine ⟨?_, ?_, ?_⟩
  · rw [← h1]
    exact congrArg (· + _) (hnotify.tally_eq (fun _ => rfl))
  · rw [← h2]
    exact congrArg (· + _) (hnotify.tally_eq (fun _ => rfl))
  · rw [← h3]
    exact congrArg (· + _) (hnotify.tally_eq (fun _ => rfl))

lemma Handed.notifyAll (h : Handed pc pc' p q i) : Handed pc (notifyAll pc') p q i := by
  obtain ⟨h1, h2, h3⟩ := h
  refine ⟨?_, ?_, ?_⟩
  · rw [← h1]
    exact congrArg (· + _) (tally_notifyAll (fun _ => rfl))
  · rw [← h2]
    exact congrArg (· + _) (tally_notifyAll (fun _ => rfl))
  · rw [← h3]
    exact congrArg (· + _) (tally_notifyAll (fun _ => rfl))

lemma Handed.same (h : Handed pc pc' p q i) (hhands : q.hands = p.hands) :
    carried PoolPc.dropped pc' i = carried PoolPc.dropped pc i ∧
      carried PoolPc.disposing pc' i = carried PoolPc.disposing pc i ∧
      carried PoolPc.closing pc' i = carried PoolPc.closing pc i := by
  simp only [PoolPc.hands, Prod.mk.injEq] at hhands
  obtain ⟨e1, e2, e3⟩ := hhands
  obtain ⟨h1, h2, h3⟩ := h
  rw [e1] at h1
  rw [e2] at h2
  rw [e3] at h3
  exact ⟨by omega, by omega, by omega⟩

lemma count_cons_eq (i k : I) (l : List I) : (k :: l).count i = l.count i + [k].count i := by
  rw [← List.singleton_append, List.count_append, Nat.add_comm]

lemma count_guard_cons (i k : I) (m : Multiset I) :
    (k ::ₘ m).count i = m.count i + [k].count i := by
  rw [← Multiset.singleton_add, Multiset.count_add, Nat.add_comm, ← Multiset.coe_singleton,
    Multiset.coe_count]

lemma count_guard_erase {m : Multiset I} (h : k ∈ m) (i : I) :
    (m.erase k).count i + [k].count i = m.count i := by
  rw [← count_guard_cons, Multiset.cons_erase h]

end

/-- The isle `i` is counted once at all its places, the calls of `Isle::shutdown` on it have
returned or are running, and it is dead if it was found dead. -/
structure Custody (s : PoolState T I) (i : I) : Prop where
  place : s.inner.idle.count i + (s.guards.count i + carried PoolPc.dropped s.pc i) +
    (carried PoolPc.disposing s.pc i + (s.record i).dead + (s.record i).returned) =
      if s.created i then 1 else 0
  calls : (s.record i).calls = (s.record i).returned + carried PoolPc.closing s.pc i
  found : 0 < (s.record i).dead → s.alive i = false

lemma isle_step {s s' : PoolState T I} {l : PoolLabel T I} (hs : PoolStep cfg s l s') (i : I) :
    s'.isles i = s.isles i ∨ (s.isles i).Move (s'.isles i) := by
  have move {k : I} {v : IsleView} (hv : (s.isles k).Move v) :
      Function.update s.isles k v i = s.isles i ∨
        (s.isles i).Move (Function.update s.isles k v i) := by
    by_cases hk : i = k
    · subst hk
      exact Or.inr (by rwa [Function.update_self])
    · exact Or.inl (Function.update_of_ne hk _ _)
  cases hs with
  | isleExit => exact move .exit
  | isleFinish _ hexited => exact move (.finish hexited)
  | guardShutdown | returnEnd | drainEnd => exact move .takeJoin
  | _ => exact Or.inl rfl

lemma dead_step {s s' : PoolState T I} {l : PoolLabel T I} {i : I} (hs : PoolStep cfg s l s')
    (h : s.alive i = false) : s'.alive i = false := by
  rcases isle_step hs i with heq | hmove
  · rw [PoolState.alive, heq]
    exact h
  · exact hmove.dead h

namespace Custody

variable {s s' : PoolState T I} {l : PoolLabel T I} {i : I}

/-- A step that hands isles from place to place. -/
lemma pass (hi : Custody s i) (hs : PoolStep cfg s l s')
    (hplace : s'.inner.idle.count i + (s'.guards.count i + carried PoolPc.dropped s'.pc i) +
        (carried PoolPc.disposing s'.pc i + (s'.record i).dead + (s'.record i).returned) =
      s.inner.idle.count i + (s.guards.count i + carried PoolPc.dropped s.pc i) +
        (carried PoolPc.disposing s.pc i + (s.record i).dead + (s.record i).returned))
    (hcreated : s'.created = s.created)
    (hcalls : (s'.record i).calls + ((s.record i).returned + carried PoolPc.closing s.pc i) =
      (s.record i).calls + ((s'.record i).returned + carried PoolPc.closing s'.pc i))
    (hfound : (s.record i).dead < (s'.record i).dead → s.alive i = false) : Custody s' i := by
  have hsame := hi.calls
  refine ⟨?_, by omega, fun h => dead_step hs ?_⟩
  · rw [hplace, hcreated]
    exact hi.place
  · by_cases hmore : (s.record i).dead < (s'.record i).dead
    · exact hfound hmore
    · exact hi.found (by omega)

/-- A thread moves from `p` to `q`. What it hands over it has had, or takes from the pool. -/
lemma hand (hi : Custody s i) (hs : PoolStep cfg s l s') {p q : PoolPc I}
    (hpc : Handed s.pc s'.pc p q i) (hcreated : s'.created = s.created)
    (hplace : s'.inner.idle.count i + s'.guards.count i +
        (q.dropped.count i + q.disposing.count i + (s'.record i).dead + (s'.record i).returned) =
      s.inner.idle.count i + s.guards.count i +
        (p.dropped.count i + p.disposing.count i + (s.record i).dead + (s.record i).returned))
    (hcalls : (s'.record i).calls + ((s.record i).returned + p.closing.count i) =
      (s.record i).calls + ((s'.record i).returned + q.closing.count i))
    (hfound : (s.record i).dead < (s'.record i).dead → s.alive i = false) : Custody s' i := by
  obtain ⟨h1, h2, h3⟩ := hpc
  exact hi.pass hs (by omega) hcreated (by omega) hfound

lemma keep (hi : Custody s i) (hs : PoolStep cfg s l s') {p q : PoolPc I}
    (hpc : Handed s.pc s'.pc p q i) (hhands : q.hands = p.hands)
    (hinner : s'.inner.idle = s.inner.idle) (hguards : s'.guards = s.guards)
    (hcreated : s'.created = s.created) (hrecord : s'.record = s.record) : Custody s' i := by
  obtain ⟨h1, h2, h3⟩ := hpc.same hhands
  refine hi.pass hs ?_ hcreated ?_ (fun h => by rw [hrecord] at h; exact absurd h (lt_irrefl _))
  · rw [hinner, hguards, hrecord, h1, h2]
  · rw [hrecord, h3]

lemma emptied (hi : Custody s i) (hs : PoolStep cfg s l s') {p q : PoolPc I}
    (hpc : Handed s.pc s'.pc p q i) (hhands : q.hands = p.hands)
    (hskipped : skippedIsles s.alive s.inner.idle = s.inner.idle) (hidle : s'.inner.idle = [])
    (hguards : s'.guards = s.guards) (hcreated : s'.created = s.created)
    (hrecord : s'.record = s.dropDead s.inner.idle) : Custody s' i := by
  obtain ⟨h1, h2, h3⟩ := hpc.same hhands
  refine hi.pass hs ?_ hcreated ?_ (fun h => ?_)
  · simp only [hidle, hguards, hrecord, h1, h2, List.count_nil, PoolState.dropDead]
    omega
  · rw [hrecord, h3, PoolState.dropDead]
  · rw [hrecord] at h
    have hmem : i ∈ skippedIsles s.alive s.inner.idle := by
      rw [hskipped]
      exact List.count_pos_iff.mp (Nat.lt_add_right_iff_pos.mp h)
    exact dead_of_skipped hmem

end Custody

lemma custody_lock {s s' : PoolState T I} {t : T} {i : I} (hi : Custody s i)
    (hs : PoolStep cfg s (.lock t) s') : Custody s' i := by
  have hstep := hs
  have moved (q : PoolPc I) : Handed s.pc (Function.update s.pc t q) (s.pc t) q i :=
    handed_update rfl q i
  have hands {o : Option Patience} (h : (s.pc t).entering cfg.horizon s.now = some o) :
      (s.pc t).hands = ([], [], []) :=
    PoolPc.hands_of_entering (by rw [h]; exact Option.some_ne_none o)
  cases hs with
  | lockPoisoned _ _ hpc =>
    exact hi.keep hstep (moved _) (PoolPc.hands_of_entering hpc).symm rfl rfl rfl rfl
  | lockOverflow _ _ hpc | lockClosed _ _ hpc =>
    exact hi.keep hstep (moved _) (hands hpc).symm rfl rfl rfl rfl
  | @acquireIsle _ _ k _ _ _ hpc _ hacquire =>
    obtain ⟨h1, h2, h3⟩ := (moved .rest).same (hands hpc).symm
    obtain ⟨hidle, -⟩ := tryAcquire_isle hacquire
    have hcount := congrArg (List.count i) hidle
    rw [List.count_append, count_cons_eq] at hcount
    refine hi.pass hstep ?_ rfl ?_ (fun h => ?_)
    · simp only [PoolState.leave, PoolState.dropDead, count_guard_cons, h1, h2]
      omega
    · simp only [PoolState.leave, PoolState.dropDead, h3]
    · exact dead_of_skipped (List.count_pos_iff.mp (Nat.lt_add_right_iff_pos.mp h))
  | acquireGrow _ _ hpc _ hacquire =>
    obtain ⟨hskipped, hidle, -⟩ := tryAcquire_grow hacquire
    exact hi.emptied hstep (moved _) (hands hpc).symm hskipped hidle rfl rfl (by rw [hskipped])
  | acquireNeedWait _ _ hpc _ hacquire =>
    obtain ⟨hskipped, hidle, -⟩ := tryAcquire_needWait hacquire
    exact hi.emptied hstep (moved _) (hands hpc).symm hskipped hidle rfl rfl (by rw [hskipped])

lemma custody_created {s s' : PoolState T I} {t : T} {i k : I} (hi : Custody s i)
    (hs : PoolStep cfg s (.factoryOk t k) s') : Custody s' i := by
  have hstep := hs
  cases hs with
  | factoryOk hpc hfresh =>
    obtain ⟨h1, h2, h3⟩ := (handed_update hpc .rest i).same rfl
    have hcreated : (if Function.update s.created k true i then 1 else 0) =
        (if s.created i then 1 else 0) + [k].count i := by
      by_cases hk : i = k
      · subst hk
        simp [hfresh]
      · simp [hk, Ne.symm hk]
    refine ⟨?_, ?_, fun h => dead_step hstep (hi.found h)⟩
    · simp only [PoolState.leave, count_guard_cons, h1, h2, hcreated, ← hi.place]
      omega
    · simp only [PoolState.leave, h3]
      exact hi.calls

lemma custody_returnIsle {s s' : PoolState T I} {t : T} {i : I} (hi : Custody s i)
    (hs : PoolStep cfg s (.returnIsle t) s') : Custody s' i := by
  have hstep := hs
  cases hs with
  | @returnIdle _ k _ _ hpc _ _ hnotify =>
    have hcount := count_cons_eq i k s.inner.idle
    refine hi.hand hstep ((handed_update hpc .rest i).notify hnotify) rfl ?_ rfl
      (fun h => absurd h (lt_irrefl _))
    simp only [PoolPc.dropped, PoolPc.disposing, List.count_nil]
    omega
  | @returnDead _ k _ _ hpc _ hdead hnotify =>
    refine hi.hand hstep ((handed_update hpc .rest i).notify hnotify) rfl ?_ rfl (fun h => ?_)
    · simp only [PoolPc.dropped, PoolPc.disposing, List.count_nil, PoolState.dropDead]
      omega
    · have hmem := List.count_pos_iff.mp (Nat.lt_add_right_iff_pos.mp h)
      rwa [List.mem_singleton.mp hmem]
  | @returnClosed _ k _ hpc =>
    refine hi.hand hstep (handed_update hpc (.returnShutdown k) i) rfl ?_ ?_
      (fun h => absurd h (lt_irrefl _)) <;>
    simp only [PoolPc.dropped, PoolPc.disposing, PoolPc.closing, List.count_nil,
      PoolState.callShutdown] <;>
    omega

lemma custody_step {s s' : PoolState T I} {l : PoolLabel T I} {i : I} (hi : Custody s i)
    (hs : PoolStep cfg s l s') : Custody s' i := by
  have hstep := hs
  have moved {t : T} {p : PoolPc I} (hpc : s.pc t = p) (q : PoolPc I) :=
    handed_update hpc q i
  have same (h : (s.record i).dead < (s.record i).dead) : s.alive i = false :=
    absurd h (lt_irrefl _)
  cases hs with
  | lockPoisoned | lockOverflow | lockClosed | acquireIsle | acquireGrow | acquireNeedWait =>
    exact custody_lock hi hstep
  | factoryOk => exact custody_created hi hstep
  | returnIdle | returnDead | returnClosed => exact custody_returnIsle hi hstep
  | @dropGuard t k hpc hguard =>
    have herase := count_guard_erase hguard i
    refine hi.hand hstep (moved hpc (.returning k)) rfl ?_ rfl same
    simp only [PoolPc.dropped, PoolPc.disposing, List.count_nil]
    omega
  | returnEnd hpc _ hnotify =>
    refine hi.hand hstep ((moved hpc .rest).notify hnotify) rfl ?_ ?_ same <;>
    simp only [PoolPc.dropped, PoolPc.disposing, PoolPc.closing, List.count_nil,
      PoolState.endShutdown] <;>
    omega
  | shutdown _ hpc =>
    refine hi.hand hstep (moved hpc (.draining s.inner.idle.reverse)) rfl ?_ rfl same
    simp only [PoolPc.dropped, PoolPc.disposing, List.count_nil, List.count_reverse]
    omega
  | @drain t k queue hpc =>
    refine hi.hand hstep (moved hpc (.drainShutdown k queue)) rfl rfl ?_ same
    simp only [PoolPc.closing, List.count_nil, PoolState.callShutdown]
    omega
  | @drainEnd t k queue hpc =>
    have hcount := count_cons_eq i k queue
    refine hi.hand hstep (moved hpc (.draining queue)) rfl ?_ ?_ same <;>
    simp only [PoolPc.dropped, PoolPc.disposing, PoolPc.closing, List.count_nil,
      PoolState.endShutdown] <;>
    omega
  | shutdownEnd hpc => exact hi.keep hstep (moved hpc .rest).notifyAll rfl rfl rfl rfl rfl
  | decActive _ hpc hnotify =>
    exact hi.keep hstep ((moved hpc .rest).notify hnotify) rfl rfl rfl rfl rfl
  | callCheckout _ hpc | callRead _ hpc | callShutdown hpc | sleep hpc | refuse hpc | spurious hpc
  | elapsed hpc | factoryErr hpc | factoryPanic hpc =>
    exact hi.keep hstep (moved hpc _) rfl rfl rfl rfl rfl
  | read _ hpc => exact hi.keep hstep (moved hpc _) rfl rfl rfl rfl rfl
  | tick | isleExit | isleFinish | guardShutdown | jobStart | jobEnd =>
    exact hi.pass hstep rfl rfl rfl same

theorem custody_reachable {s : PoolState T I} (h : (pool cfg).Reachable s) (i : I) :
    Custody s i := by
  refine TransitionSystem.Reachable.invariant (I := fun s => Custody s i) ?_ ?_ h
  · have hzero (list : PoolPc I → List I) (h : list .rest = []) :
        carried list (PoolState.init T I).pc i = 0 :=
      tally_eq_zero.mpr (fun t => by simp [PoolState.init, h])
    refine ⟨?_, ?_, fun h => absurd h (lt_irrefl 0)⟩
    · simp only [pool, hzero PoolPc.dropped rfl, hzero PoolPc.disposing rfl]
      simp [PoolState.init]
    · simp only [pool, hzero PoolPc.closing rfl]
      rfl
  · exact fun s l s' hi hs => custody_step hi hs

/-! ## The open and the closed pool -/

/-- A closed pool has no idle isle, and an open one has shut none down. -/
structure Parted (s : PoolState T I) : Prop where
  emptied : s.inner.closed = true → s.inner.idle = []
  untouched : s.inner.closed = false → ∀ i, (s.record i).returned = 0

lemma parted_step {s s' : PoolState T I} {l : PoolLabel T I} (hheld : ∀ t, Held cfg s t)
    (hi : Parted s) (hs : PoolStep cfg s l s') : Parted s' := by
  cases hs with
  | acquireIsle _ _ _ hopen hacquire =>
    obtain ⟨-, -, hclosed, -⟩ := tryAcquire_isle hacquire
    have hopen' := hclosed.trans hopen
    refine ⟨fun h => ?_, fun _ => hi.untouched hopen⟩
    rw [show _ = false from hopen'] at h
    cases h
  | acquireGrow _ _ _ hopen hacquire =>
    obtain ⟨-, hidle, -⟩ := tryAcquire_grow hacquire
    exact ⟨fun _ => hidle, fun _ => hi.untouched hopen⟩
  | acquireNeedWait _ _ _ hopen hacquire =>
    obtain ⟨-, hidle, -⟩ := tryAcquire_needWait hacquire
    exact ⟨fun _ => hidle, fun _ => hi.untouched hopen⟩
  | returnIdle _ _ hopen =>
    refine ⟨fun h => ?_, fun _ => hi.untouched hopen⟩
    rw [show s.inner.closed = true from h] at hopen
    cases hopen
  | shutdown => exact ⟨fun _ => rfl, fun h => by cases h⟩
  | @returnEnd t _ _ hpc | @drainEnd t _ _ hpc =>
    have hclosed : s.inner.closed = true := ((hheld t).at_pc hpc rfl).2
    refine ⟨hi.emptied, fun h => ?_⟩
    rw [show s.inner.closed = false from h] at hclosed
    cases hclosed
  | _ => exact ⟨hi.emptied, hi.untouched⟩

theorem parted_reachable {s : PoolState T I} (h : (pool cfg).Reachable s) : Parted s := by
  refine TransitionSystem.ReachableVia.invariant_of (J := fun s => ∀ t, Held cfg s t)
    (I := Parted) (fun s hs => held_reachable hs) ?_ ?_ h
  · exact ⟨fun h => (by cases h), fun _ _ => rfl⟩
  · exact fun s l s' hJ hi _ hs => parted_step hJ hi hs

lemma carried_eq_zero {s : PoolState T I} (hheld : ∀ t, Held cfg s t)
    (h : s.inner.closed = false ∨ s.lock = none) (i : I) :
    carried PoolPc.disposing s.pc i = 0 ∧ carried PoolPc.closing s.pc i = 0 := by
  have away {p : PoolPc I} {t : T} (hpc : s.pc t = p) (hp : p.holdsLock = true)
      (hfound : Found cfg s.inner p → s.inner.closed = true) : False := by
    obtain ⟨hlock, hf⟩ := (hheld t).at_pc hpc hp
    rcases h with h | h
    · rw [hfound hf] at h
      cases h
    · rw [hlock] at h
      cases h
  refine ⟨tally_eq_zero.mpr (fun t => ?_), tally_eq_zero.mpr (fun t => ?_)⟩ <;>
  cases hpc : s.pc t with
  | returnShutdown | draining | drainShutdown => exact (away hpc rfl id).elim
  | _ => rfl

/-- Every isle ever created is at one place: idle, in a guard, or disposed of. While the pool is
open it is disposed of only if it was found dead. Once a shutdown has let go of the lock no isle is
ever idle again, and once no guard is left, live or being dropped, every isle that was not found
dead has been shut down, exactly once. -/
theorem isles_in_custody {s : PoolState T I} (hs : (pool cfg).Reachable s) :
    (∀ i, s.inner.idle.count i + (s.guards.count i + carried PoolPc.dropped s.pc i) +
      (carried PoolPc.disposing s.pc i + (s.record i).dead + (s.record i).returned) =
        if s.created i then 1 else 0) ∧
    (s.inner.closed = false → ∀ i, carried PoolPc.disposing s.pc i = 0 ∧
      (s.record i).calls = 0 ∧ (s.record i).returned = 0 ∧
      (0 < (s.record i).dead → s.alive i = false)) ∧
    (s.inner.closed = true → s.lock = none →
      (∀ s', (pool cfg).Run s s' → s'.inner.idle = []) ∧
      (s.guards = 0 → (∀ t i, s.pc t ≠ .returning i) → ∀ i, s.created i = true →
        ((s.record i).dead = 1 ∧ s.alive i = false ∧ (s.record i).calls = 0) ∨
        ((s.record i).dead = 0 ∧ (s.record i).calls = 1 ∧ (s.record i).returned = 1))) := by
  have hheld := held_reachable hs
  have hparted := parted_reachable hs
  refine ⟨fun i => (custody_reachable hs i).place, fun hopen i => ?_, fun hclosed hlock => ⟨?_, ?_⟩⟩
  · obtain ⟨hdisposing, hclosing⟩ := carried_eq_zero hheld (Or.inl hopen) i
    have hcustody := custody_reachable hs i
    have hreturned := hparted.untouched hopen i
    exact ⟨hdisposing, by rw [hcustody.calls, hreturned, hclosing], hreturned, hcustody.found⟩
  · intro s' hrun
    have hstill : s'.inner.closed = true :=
      TransitionSystem.Run.invariant (I := fun s => s.inner.closed = true)
        (fun s l s' hcl hst => closed_of_step hst hcl) hrun hclosed
    exact (parted_reachable (hs.run hrun)).emptied hstill
  · intro hguards hbusy i hcreated
    obtain ⟨hdisposing, hclosing⟩ := carried_eq_zero hheld (Or.inr hlock) i
    have hcustody := custody_reachable hs i
    have hdropped : carried PoolPc.dropped s.pc i = 0 := by
      refine tally_eq_zero.mpr (fun t => ?_)
      cases hpc : s.pc t with
      | returning k => exact absurd hpc (hbusy t k)
      | _ => rfl
    have hplace := hcustody.place
    have hcalls := hcustody.calls
    simp only [hparted.emptied hclosed, hguards, hdropped, hdisposing, hcreated, List.count_nil,
      Multiset.count_zero, if_true] at hplace
    rw [hclosing] at hcalls
    rcases Nat.eq_zero_or_pos (s.record i).dead with hdead | hdead
    · exact Or.inr ⟨hdead, by omega, by omega⟩
    · exact Or.inl ⟨by omega, hcustody.found hdead, by omega⟩

/-- The pool is shut down while the factory runs. The guard that comes out of it shuts its isle
down when it is dropped. -/
theorem isles_in_custody_late : ∃ s : PoolState Bool Bool, (pool twoIsles).Reachable s ∧
    s.created true = true ∧ (s.record true).calls = 1 ∧ (s.record true).returned = 1 := by
  have h0 := TransitionSystem.Reachable.refl (T := pool (T := Bool) (I := Bool) twoIsles)
  have h1 := h0.tail (.callCheckout (t := true) .checkout rfl)
  have h2 := h1.tail (.acquireGrow (t := true) rfl rfl rfl rfl rfl)
  have h3 := h2.tail (.callShutdown (t := false) rfl)
  have h4 := h3.tail (.shutdown (t := false) rfl rfl)
  have h5 := h4.tail (.shutdownEnd (t := false) rfl)
  have h6 := h5.tail (.factoryOk (t := true) (i := true) rfl rfl)
  have h7 := h6.tail (.dropGuard (t := true) (i := true) rfl (by decide) (by decide))
  have h8 := h7.tail (.returnClosed (t := true) rfl rfl rfl)
  have h9 := h8.tail (.isleExit (i := true) rfl rfl)
  have h10 := h9.tail (.isleFinish (i := true) rfl rfl)
  have h11 := h10.tail (.returnEnd (t := true) rfl rfl (.none (fun t w h => by cases t <;> cases h)))
  obtain ⟨-, hcalls, hreturned⟩ := (((isles_in_custody h11).2.2 rfl rfl).2 rfl
    (fun t i h => by cases t <;> cases h) true rfl).resolve_left (by decide)
  exact ⟨_, h11, rfl, hcalls, hreturned⟩

end RusqliteIsle
