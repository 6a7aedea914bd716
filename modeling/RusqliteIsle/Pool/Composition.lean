import RusqliteIsle.Isle.Drain
import RusqliteIsle.Pool.Fleet
import RusqliteIsle.Pool.Wakeup
import Mathlib.Data.Fintype.Option

/-!
# What holds of a pool together with its isles

A fleet, seen through the views of its isles, takes the steps of a pool, and each of its isles
takes the steps of an isle. So what was shown of a pool and of an isle holds side by side in a
fleet, and together they say what becomes of the threads that the pool lets go of, and of the jobs
that these threads were to run.
-/

namespace RusqliteIsle

set_option linter.unusedSectionVars false

section

variable {T I J K V : Type} [DecidableEq T] [DecidableEq I] [DecidableEq J] [DecidableEq K]
  {fc : FleetConfig T I J V}

/-! ## The fleet refines the pool -/

lemma view_update (p : PoolState T I) (s : Fleet T I J K V) (i : I) (u : State J (Option K) V) :
    Fleet.view fc ⟨p, Function.update s.isle i u⟩ =
      { p with
        isles := Function.update (s.view fc).isles i u.sight
        host := Function.update (s.view fc).host i
          (if u.pc.inClosure then some (fc.worker i) else none) } := by
  simp only [Fleet.view, PoolState.mk.injEq, true_and, and_true]
  refine ⟨funext fun k => ?_, funext fun k => ?_⟩ <;>
  · by_cases hki : k = i
    · subst hki
      simp
    · simp [hki]

lemma host_of_worker {s : Fleet T I J K V} {i k : I} (hk : (s.view fc).host k = some (fc.worker i)) :
    k = i ∧ (s.isle i).pc.inClosure = true := by
  simp only [Fleet.view] at hk
  split at hk
  · next hin =>
    cases fc.apart (Option.some.inj hk)
    exact ⟨rfl, hin⟩
  · cases hk

lemma isles_of_end {cfg : PoolConfig} {v p : PoolState T I} {l : PoolLabel T I} {t : T} {i : I}
    (hend : l = .returnEnd t ∨ l = .drainEnd t) (hpc : (v.pc t).shuttingDown? = some i)
    (hs : PoolStep cfg v l p) :
    p.isles = Function.update v.isles i (v.isles i).takeJoin ∧ p.host = v.host ∧
      0 < (p.record i).returned := by
  have ended {k : I} (hk : (v.pc t).shuttingDown? = some k) : k = i := by
    rw [hk] at hpc
    exact Option.some.inj hpc
  rcases hend with rfl | rfl
  · cases hs with
    | returnEnd hpc' =>
      obtain rfl := ended (by rw [hpc']; rfl)
      exact ⟨rfl, rfl, by simp [PoolState.endShutdown]⟩
  · cases hs with
    | drainEnd hpc' =>
      obtain rfl := ended (by rw [hpc']; rfl)
      exact ⟨rfl, rfl, by simp [PoolState.endShutdown]⟩

/-- Every step of a fleet is a step of the pool or leaves what the pool sees as it was. -/
lemma fleet_step {s t : Fleet T I J K V} {l : FleetLabel T I J K V} (hi : FleetInv fc s)
    (hs : FleetStep fc s l t) :
    t.view fc = s.view fc ∨ ∃ pl, PoolStep fc.pool (s.view fc) pl (t.view fc) := by
  -- the thread of the isle is where it was: in a closure, or not
  have hosted {i : I} {u : State J (Option K) V} (h : u.pc.inClosure = (s.isle i).pc.inClosure) :
      Function.update (s.view fc).host i (if u.pc.inClosure then some (fc.worker i) else none) =
        (s.view fc).host := by
    rw [h]
    exact Function.update_eq_self i _
  have idle {i : I} (h : (s.isle i).pc.inClosure = false) : (s.view fc).host i = none := by
    simp [Fleet.view, h]
  cases hs with
  | @pool l p hl hs =>
    obtain ⟨hisles, hhost⟩ := isles_of_proceeds hl hs
    refine Or.inr ⟨l, ?_⟩
    convert hs using 1
    rw [Fleet.view]
    dsimp only
    rw [show (fun i => (s.isle i).sight) = p.isles from hisles.symm,
      show (fun i => if (s.isle i).pc.inClosure then some (fc.worker i) else none) = p.host from
        hhost.symm]
  | @close t i l u hpc hl hs hcall =>
    have hown := ownCall (joined_reachable (hi.isles i)) hl hs
    refine Or.inl ?_
    rw [view_update, hosted (by rw [hown.pc]), hown.running hcall]
    simp [Fleet.view]
  | @closed t i l u pl p hpc hl hs hcall hend hp =>
    have hown := ownCall (joined_reachable (hi.isles i)) hl hs
    obtain ⟨hisles, hhost, -⟩ := isles_of_end (v := s.view fc) hend hpc hp
    refine Or.inr ⟨pl, ?_⟩
    rw [view_update, hosted (by rw [hown.pc]), (hown.returns hcall).2]
    convert hp using 1
    rw [show Function.update (s.view fc).isles i (s.isle i).sight.takeJoin = p.isles from
      hisles.symm, ← hhost]
  | @isle i l u hl hs =>
    rw [view_update]
    cases sighting (joined_reachable (hi.isles i)) hl.own hs with
    | same hsight hclosure =>
      refine Or.inl ?_
      rw [hosted hclosure, hsight]
      simp [Fleet.view]
    | exit hsight hout hout' =>
      refine Or.inr ⟨.isleMove i, ?_⟩
      rw [hosted (hout'.trans hout.symm), hsight]
      exact .isleExit hl.created (idle hout)
    | finish hexited hsight hclosure =>
      refine Or.inr ⟨.isleMove i, ?_⟩
      rw [hosted hclosure, hsight]
      exact .isleFinish hl.created hexited
    | @take k hcall hsight hclosure =>
      refine Or.inr ⟨.guardShutdown i, ?_⟩
      rw [hosted hclosure, hsight]
      exact .guardShutdown (hi.guarded i k (by simp [hcall]) (by simp [hcall]))
    | enter hsight hexited hout hin =>
      refine Or.inr ⟨.jobStart i (fc.worker i), ?_⟩
      have hrest : s.pool.pc (fc.worker i) = .rest := by
        by_contra h
        rw [hi.inside i h] at hout
        cases hout
      have hfree (k : I) : (s.view fc).host k ≠ some (fc.worker i) := by
        intro h
        rw [(host_of_worker h).2] at hout
        cases hout
      rw [hsight, hin]
      convert PoolStep.jobStart (s := s.view fc) hl.created hexited (idle hout) hrest hfree using 1
      simp [Fleet.view]
    | leave hclosure hsight hin hout =>
      refine Or.inr ⟨.jobEnd i (fc.worker i), ?_⟩
      rw [hsight, hout]
      convert PoolStep.jobEnd (s := s.view fc) (i := i) (t := fc.worker i) (by simp [Fleet.view, hin])
        (hl.closure hclosure) using 1
      simp [Fleet.view]

lemma fleet_simulation : TransitionSystem.Simulation (fleet (K := K) fc) (pool fc.pool)
    (Fleet.view fc) (FleetInv fc) (fun _ => True) where
  init := by simp [fleet, pool, Fleet.view, PoolState.init, State.sight, State.view, State.init,
    IsleView.spawned, Pc.exit?, Pc.isFinished, Pc.inClosure]
  back _ _ _ _ _ := trivial
  step _ _ _ hi _ hs := fleet_step hi hs

lemma pool_reachable {s : Fleet T I J K V} (h : (fleet fc).Reachable s) :
    (pool fc.pool).Reachable (s.view fc) :=
  fleet_simulation.reachable (fun _ => fleetInv_reachable) h trivial

end

/-- A pool of one isle, and two threads beside that of the isle. -/
def soloFleet : FleetConfig (Option Bool) Unit Bool ℕ where
  pool := oneIsle
  isle := fun _ => twoJobs
  worker := fun _ => none
  sync := fun _ => rfl
  apart := fun _ _ _ => rfl

lemma soloFleet_mayUse {s : Fleet (Option Bool) Unit Bool Unit ℕ} {t : Option Bool} (ht : t ≠ none) :
    s.MayUse soloFleet t := fun _ h => absurd h.symm ht

lemma soloFleet_shutting : ∃ s t : Fleet (Option Bool) Unit Bool Unit ℕ,
    (fleet soloFleet).Reachable s ∧ s.pool.pc (some true) = .shutting ∧
      (fleet soloFleet).RunVia (fun s _ => s.Quiet soloFleet) s t ∧ (∀ v, t.pool.pc v = .rest) ∧
      t.pool.created () = true ∧ t.pool.inner.closed = true ∧ t.pool.lock = none ∧
      t.pool.guards = 0 ∧ ((t.isle ()).jobs true).submission = .accepted ∧
      (t.isle ()).pc.isFinished = true := by
  have h0 := TransitionSystem.Reachable.refl (T := fleet (K := Unit) soloFleet)
  have h1 := h0.tail (.pool (l := .call (some true)) (soloFleet_mayUse (by decide))
    (.callCheckout (t := some true) .checkout rfl))
  have h2 := h1.tail (.pool (l := .lock (some true)) trivial
    (.acquireGrow (t := some true) rfl rfl rfl rfl rfl))
  have h3 := h2.tail (.pool (l := .factoryOk (some true) ()) trivial
    (.factoryOk (t := some true) (i := ()) rfl rfl))
  have h4 := h3.tail (.isle (i := ()) (l := .submit true)
    ⟨rfl, fun _ => rfl, fun _ => by decide, False.elim, False.elim⟩
    (.submit (j := true) rfl (by decide) rfl))
  have h5 := h4.tail (.isle (i := ()) (l := .enqueue true)
    ⟨rfl, fun _ => rfl, False.elim, False.elim, False.elim⟩ (.enqueue (j := true) rfl rfl))
  have h6 := h5.tail (.pool (l := .dropGuard (some true) ()) ⟨soloFleet_mayUse (by decide), rfl⟩
    (.dropGuard (t := some true) (i := ()) rfl (by decide) (by decide)))
  have h7 := h6.tail (.pool (l := .returnIsle (some true)) trivial
    (.returnIdle (t := some true) rfl rfl rfl rfl
      (.none (fun t w h => by rcases t with _ | _ | _ <;> cases h))))
  have h8 := h7.tail (.pool (l := .call (some true)) (soloFleet_mayUse (by decide))
    (.callShutdown (t := some true) rfl))
  have q {s : Fleet (Option Bool) Unit Bool Unit ℕ} (h : s.pool.pc none = .rest) :
      s.Quiet soloFleet := fun _ _ _ => h
  have r9 := (h8.here_via (fun s _ => s.Quiet soloFleet)).tail
    (.pool (l := .shutdown (some true)) trivial (.shutdown (t := some true) rfl rfl)) (q rfl)
  have r10 := r9.tail (.pool (l := .drain (some true)) trivial (.drain (t := some true) rfl)) (q rfl)
  have r11 := r10.tail (.close (t := some true) (i := ()) (l := .shutCall none) rfl rfl
    (.shutCall (k := none) rfl rfl (by decide) rfl) (by decide)) (q rfl)
  have r12 := r11.tail (.close (t := some true) (i := ()) (l := .shutSend none) rfl rfl
    (.shutSend (k := none) rfl rfl) (by decide)) (q rfl)
  have r13 := r12.tail
    (.isle (i := ()) (Fleet.allows_thread rfl rfl rfl) (.recvJob (j := true) rfl rfl)) (q rfl)
  have r14 := r13.tail
    (.isle (i := ()) (Fleet.allows_thread rfl rfl rfl) (.loadAbort (j := true) rfl)) (q rfl)
  have r15 := r14.tail
    (.isle (i := ()) (Fleet.allows_thread rfl rfl rfl) (.queuedCheck (j := true) rfl)) (q rfl)
  have r16 := r15.tail
    (.isle (i := ()) (Fleet.allows_thread rfl rfl rfl) (.attachStore (j := true) rfl)) (q rfl)
  have r17 := r16.tail
    (.isle (i := ()) (Fleet.allows_thread rfl rfl rfl) (.attachCheckNone (j := true) rfl rfl)) (q rfl)
  have r18 := r17.tail
    (.isle (i := ()) (Fleet.allows_thread rfl rfl rfl) (.closureRet (j := true) rfl)) (q rfl)
  have r19 := r18.tail
    (.isle (i := ()) (Fleet.allows_thread rfl rfl rfl) (.detach (j := true) rfl)) (q rfl)
  have r20 := r19.tail
    (.isle (i := ()) (Fleet.allows_thread rfl rfl rfl) (.respond (j := true) rfl)) (q rfl)
  have r21 := r20.tail
    (.isle (i := ()) (Fleet.allows_thread rfl rfl rfl) (.recvShutdown rfl rfl)) (q rfl)
  have r22 := r21.tail
    (.isle (i := ()) (Fleet.allows_thread rfl rfl rfl) (.threadFinish (.inl ⟨rfl, rfl⟩))) (q rfl)
  have r23 := r22.tail (.close (t := some true) (i := ()) (l := .shutLock none) rfl rfl
    (.shutTake (k := none) rfl rfl) (by decide)) (q rfl)
  have r24 := r23.tail (.closed (t := some true) (i := ()) (l := .shutJoin none) rfl rfl
    (.shutJoin (k := none) rfl rfl) rfl (.inr rfl) (.drainEnd (t := some true) rfl rfl)) (q rfl)
  have r25 := r24.tail (.pool (l := .shutdownEnd (some true)) trivial
    (.shutdownEnd (t := some true) rfl)) (q rfl)
  refine ⟨_, _, h8, rfl, r25, ?_, rfl, rfl, rfl, rfl, rfl, rfl⟩
  intro v
  rcases v with _ | _ | _ <;> rfl

section

variable {T I J K V : Type} [DecidableEq T] [DecidableEq I] [DecidableEq J] [DecidableEq K]
  {fc : FleetConfig T I J V}

/-- What holds of every pool holds of the pool of a fleet, and what holds of every isle holds of
its isles. -/
theorem fleet_refines {s : Fleet T I J K V} (h : (fleet fc).Reachable s) :
    (pool fc.pool).Reachable (s.view fc) ∧ ∀ i, (isle (fc.isle i)).Reachable (s.isle i) :=
  ⟨pool_reachable h, (fleetInv_reachable h).isles⟩

theorem fleet_refines_shut : ∃ s : Fleet (Option Bool) Unit Bool Unit ℕ,
    s.pool.inner.closed = true ∧ (pool oneIsle).Reachable (s.view soloFleet) ∧
      (isle twoJobs).Reachable (s.isle ()) := by
  obtain ⟨s, t, hs, -, hrun, -, -, hclosed, -⟩ := soloFleet_shutting
  obtain ⟨hpool, hisles⟩ := fleet_refines (hs.run hrun.run)
  exact ⟨t, hclosed, hpool, hisles ()⟩

/-! ## What becomes of the threads -/

lemma finished_of_ownCall {cfg : Config J V} {s u : State J (Option K) V} {l : Label J (Option K) V}
    (hjoined : Joined s) (hown : l.ofPool) (hs : Step cfg s l u) (hret : u.calls none = .returned) :
    u.pc.isFinished = true ∨ ∃ k, s.calls (some k) = .joining := by
  have running {c : ShutdownCall} (hcalls : u.calls = Function.update s.calls none c)
      (hc : c ≠ .returned) : False := by
    rw [hcalls, Function.update_self] at hret
    exact hc hret
  cases hs with
  | shutCall | shutSend | shutSendClosed | shutTake =>
    cases hown
    exact (running rfl (by simp)).elim
  | shutSkip hcall hjoin =>
    cases hown
    refine (hjoined.finished hjoin).imp_right ?_
    rintro ⟨k, hk⟩
    cases k with
    | none =>
      rw [hcall] at hk
      cases hk
    | some k => exact ⟨k, hk⟩
  | shutJoin _ hfin => exact Or.inl hfin
  | _ => exact hown.elim

lemma record_step {cfg : PoolConfig} {s s' : PoolState T I} {l : PoolLabel T I}
    (hs : PoolStep cfg s l s') (i : I) : (s'.record i).returned = (s.record i).returned ∨
      ∃ t, (l = .returnEnd t ∨ l = .drainEnd t) ∧ (s.pc t).shuttingDown? = some i := by
  have ends {t : T} {k : I} (hpc : (s.pc t).shuttingDown? = some k)
      (hl : l = .returnEnd t ∨ l = .drainEnd t) :
      (s.record i).returned + [k].count i = (s.record i).returned ∨
        ∃ t, (l = .returnEnd t ∨ l = .drainEnd t) ∧ (s.pc t).shuttingDown? = some i := by
    by_cases hki : k = i
    · exact Or.inr ⟨t, hl, hki ▸ hpc⟩
    · exact Or.inl (by simp [hki])
  cases hs with
  | returnEnd hpc => exact ends (by rw [hpc]; rfl) (Or.inl rfl)
  | drainEnd hpc => exact ends (by rw [hpc]; rfl) (Or.inr rfl)
  | _ => exact Or.inl rfl

/-- The threads of the isles that the pool has shut down have ended. -/
def StoppedIsles (s : Fleet T I J K V) : Prop :=
  ∀ i, 0 < (s.pool.record i).returned → (s.isle i).pc.isFinished = true

variable [Fintype T]

lemma stoppedIsles_step {s t : Fleet T I J K V} {l : FleetLabel T I J K V} (h : (fleet fc).Reachable s)
    (hi : StoppedIsles s) (hs : FleetStep fc s l t) : StoppedIsles t := by
  have hinv := fleetInv_reachable h
  -- the isle `i` goes on to `u`
  have moved {i k : I} {u : State J (Option K) V}
      (hu : k = i → (s.isle k).pc.isFinished = true → u.pc.isFinished = true)
      (hk : (s.isle k).pc.isFinished = true) :
      (Function.update s.isle i u k).pc.isFinished = true := by
    by_cases hki : k = i
    · subst hki
      simpa using hu rfl hk
    · simpa [hki] using hk
  intro k hk
  cases hs with
  | @pool l p hl hs =>
    rcases record_step hs k with heq | ⟨v, hend, -⟩
    · exact hi k (heq ▸ hk)
    · rcases hend with rfl | rfl <;> exact hl.elim
  | @close v i l u hpc hl hs => exact moved (fun hki => hki ▸ finished_step hs) (hi k hk)
  | @closed v i l u pl p hpc hl hs hcall hend hp =>
    by_cases hki : k = i
    · subst hki
      dsimp only
      rw [Function.update_self]
      refine (finished_of_ownCall (joined_reachable (hinv.isles k)) hl hs hcall).resolve_right ?_
      rintro ⟨c, hc⟩
      exact not_guarded_of_shuttingDown (pool_reachable h) hpc
        (hinv.guarded k c (by simp [hc]) (by simp [hc]))
    · rcases record_step hp k with heq | ⟨w, hw, hwk⟩
      · exact moved (fun h => absurd h hki) (hi k (heq ▸ hk))
      · have hwv : w = v := by
          rcases hend with rfl | rfl <;> rcases hw with hw | hw <;> cases hw <;> rfl
        subst hwv
        rw [show (s.pool.pc w).shuttingDown? = some k from hwk] at hpc
        exact absurd (Option.some.inj hpc) hki
  | @isle i l u hl hs => exact moved (fun hki => hki ▸ finished_step hs) (hi k hk)

lemma stoppedIsles_reachable {s : Fleet T I J K V} (h : (fleet fc).Reachable s) : StoppedIsles s :=
  TransitionSystem.ReachableVia.invariant_of (J := fun s => (fleet fc).Reachable s) (I := StoppedIsles)
    (fun _ h => h) (fun _ hk => absurd hk (lt_irrefl 0)) (fun _ _ _ hr hi _ => stoppedIsles_step hr hi) h

lemma record_of_released {s : Fleet T I J K V} (h : (fleet fc).Reachable s) {i : I}
    (hcreated : s.pool.created i = true) (hreleased : s.Released i) :
    (s.pool.record i).dead + (s.pool.record i).returned = 1 := by
  have hplace := (custody_reachable (pool_reachable h) i).place
  have hcarried (list : PoolPc I → List I) (hlist : ∀ t, i ∉ list (s.pool.pc t)) :
      carried list (s.view fc).pc i = 0 :=
    tally_eq_zero.mpr (fun t => List.count_eq_zero_of_not_mem (hlist t))
  obtain ⟨hidle, hguards, hhands⟩ := hreleased
  rw [hcarried _ (fun t => (hhands t).1), hcarried _ (fun t => (hhands t).2),
    show (s.view fc).inner.idle.count i = 0 from List.count_eq_zero_of_not_mem hidle,
    show (s.view fc).guards.count i = 0 from Multiset.count_eq_zero_of_notMem hguards,
    show (s.view fc).created i = true from hcreated, if_pos rfl,
    show (s.view fc).record i = s.pool.record i from rfl] at hplace
  omega

lemma finished_of_dead {s : Fleet T I J K V} (hinv : FleetInv fc s) {i : I}
    (hdead : (s.view fc).alive i = false) (hguards : i ∉ s.pool.guards) :
    (s.isle i).pc.isFinished = true := by
  by_contra hrunning
  simp only [PoolState.alive, Fleet.view, State.sight, State.view, IsleView.isAlive] at hdead
  rw [Bool.eq_false_of_not_eq_true hrunning] at hdead
  obtain ⟨hjoin, hown⟩ : (s.isle i).join = false ∧ (s.isle i).calls none ≠ .joining := by
    simpa using hdead
  rcases (joined_reachable (hinv.isles i)).finished hjoin with hfin | ⟨k, hk⟩
  · exact hrunning hfin
  · cases k with
    | none => exact hown hk
    | some k => exact hguards (hinv.guarded i k (by simp [hk]) (by simp [hk]))

lemma finished_of_released {s : Fleet T I J K V} (h : (fleet fc).Reachable s) {i : I}
    (hcreated : s.pool.created i = true) (hreleased : s.Released i) :
    (s.isle i).pc.isFinished = true := by
  have hrecord := record_of_released h hcreated hreleased
  rcases Nat.eq_zero_or_pos (s.pool.record i).dead with hdead | hdead
  · exact stoppedIsles_reachable h i (by omega)
  · exact finished_of_dead (fleetInv_reachable h)
      ((custody_reachable (pool_reachable h) i).found hdead) hreleased.2.1

/-- The pool lets go of an isle only when its thread has ended, and every job that the isle has
accepted has its result. Once a shutdown of the pool has let go of the lock and no guard is left, the
pool has let go of every isle. -/
theorem released_isles_ended {s : Fleet T I J K V} (h : (fleet fc).Reachable s) :
    (∀ i, s.pool.created i = true → s.Released i → (s.isle i).pc.isFinished = true ∧
      ∀ j, ((s.isle i).jobs j).submission = .accepted →
        ((s.isle i).jobs j).response.wait ≠ none) ∧
    (s.pool.inner.closed = true → s.pool.lock = none → s.pool.guards = 0 →
      (∀ t i, s.pool.pc t ≠ .returning i) → ∀ i, s.Released i) := by
  have hinv := fleetInv_reachable h
  refine ⟨fun i hcreated hreleased => ?_, fun hclosed hlock hguards hbusy i => ⟨?_, ?_, fun t => ?_⟩⟩
  · have hfin := finished_of_released h hcreated hreleased
    refine ⟨hfin, fun j hj => ?_⟩
    exact final_of_finished (hinv.isles i) hfin (((link_reachable (hinv.isles i)).accepted j).mpr hj)
  · have hempty : s.pool.inner.idle = [] := (parted_reachable (pool_reachable h)).emptied hclosed
    simp [hempty]
  · simp [hguards]
  · have hfree : (s.pool.pc t).holdsLock = false := by
      by_contra hholds
      have howner := (held_reachable (pool_reachable h) t).owner (Bool.eq_true_of_not_eq_false hholds)
      rw [show (s.view fc).lock = none from hlock] at howner
      cases howner
    cases hpc : s.pool.pc t with
    | returning k => exact absurd hpc (hbusy t k)
    | returnShutdown | draining | drainShutdown =>
      rw [hpc] at hfree
      cases hfree
    | _ => simp [PoolPc.dropped, PoolPc.disposing]

end

/-- The job is served before the pool lets go of its isle. -/
theorem released_isles_ended_shut : ∃ s : Fleet (Option Bool) Unit Bool Unit ℕ,
    ((s.isle ()).jobs true).submission = .accepted ∧ s.Released () ∧
      (s.isle ()).pc.isFinished = true ∧ ((s.isle ()).jobs true).response.wait ≠ none := by
  obtain ⟨s, t, hs, -, hrun, hrest, hcreated, hclosed, hlock, hguards, hjob, -⟩ := soloFleet_shutting
  obtain ⟨hended, hreleased⟩ := released_isles_ended (hs.run hrun.run)
  have hrel := hreleased hclosed hlock hguards (fun v i => by simp [hrest v]) ()
  obtain ⟨hfin, hanswered⟩ := hended () hcreated hrel
  exact ⟨t, hjob, hrel, hfin, hanswered true hjob⟩

end RusqliteIsle
