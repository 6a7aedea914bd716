import RusqliteIsle.Isle.Progress
import RusqliteIsle.Isle.Reason
import RusqliteIsle.Lib.Serial

/-!
# The isle and its database

A statement does something to the connection when it is started, and when it ends, by
itself or by an interrupt. The steps of an isle, together with what they do to the connection,
are the steps of a database that many callers share. However they are interleaved, the closures
take effect one after the other, in the order in which the jobs were accepted.
-/

namespace RusqliteIsle

set_option linter.unusedSectionVars false

/-- `rusqlite::Connection` with contents in `σ`: what happens when a statement is started, when
the one that was started last ends by itself, and when it is aborted by an interrupt. -/
structure Connection (σ V : Type) where
  start : String → σ → σ
  finish : σ → Except RusqliteError V × σ
  abort : σ → σ

variable {J K V σ : Type} [DecidableEq J] [DecidableEq K] {cfg : Config J V}
  {con : Connection σ V}

/-- The closure run from beginning to end. The list says which of its statements are interrupted;
those beyond its end are not. -/
def Closure.run (con : Connection σ V) : Closure V → List Bool → σ → Caught V × σ
  | ret r, _, db => (.returned r, db)
  | panic payload, _, db => (.panicked payload, db)
  | start sql next, cuts, db => next.run con cuts (con.start sql db)
  | finish next, true :: cuts, db => (next (.error interruptError)).run con cuts (con.abort db)
  | finish next, false :: cuts, db => (next (con.finish db).1).run con cuts (con.finish db).2
  | finish next, [], db => (next (con.finish db).1).run con [] (con.finish db).2

/-- A closure that was invoked, and which of its statements were interrupted. -/
structure Invocation (J : Type) where
  job : J
  cuts : List Bool

/-- The invocation, as an operation on the connection. -/
def Invocation.perform (cfg : Config J V) (con : Connection σ V) (i : Invocation J) :
    σ → Caught V × σ :=
  (cfg.prog i.job).run con i.cuts

/-- An isle and the contents of its connection. -/
structure Database (J K V σ : Type) where
  isle : State J K V
  db : σ

def Label.isStmt : Label J K V → Bool
  | stmtStart _ => true
  | stmtFinish _ _ => true
  | _ => false

/-- The steps of the isle. The health check reads no table, and changes nothing. -/
inductive Database.Step (cfg : Config J V) (con : Connection σ V) :
    Database J K V σ → Label J K V → Database J K V σ → Prop
  | start {s : Database J K V σ} {t : State J K V} {j : J} {sql : String} {next : Closure V}
      (hs : RusqliteIsle.Step cfg s.isle (.stmtStart j) t)
      (hpc : s.isle.pc = .closure j (.start sql next)) :
      Step cfg con s (.stmtStart j) ⟨t, con.start sql s.db⟩
  | finish {s : Database J K V σ} {t : State J K V} {j : J}
      (hs : RusqliteIsle.Step cfg s.isle (.stmtFinish j (con.finish s.db).1) t)
      (hmark : s.isle.conn.marked = false) :
      Step cfg con s (.stmtFinish j (con.finish s.db).1) ⟨t, (con.finish s.db).2⟩
  | abort {s : Database J K V σ} {t : State J K V} {j : J} {r : Except RusqliteError V}
      (hs : RusqliteIsle.Step cfg s.isle (.stmtFinish j r) t)
      (hmark : s.isle.conn.marked = true) :
      Step cfg con s (.stmtFinish j r) ⟨t, con.abort s.db⟩
  | other {s : Database J K V σ} {t : State J K V} {l : Label J K V}
      (hs : RusqliteIsle.Step cfg s.isle l t) (hl : l.isStmt = false) :
      Step cfg con s l ⟨t, s.db⟩

/-- The database of a configuration, opened with the contents `db`. -/
def database (cfg : Config J V) (con : Connection σ V) (db : σ) :
    TransitionSystem (Database J K V σ) (Label J K V) where
  init := ⟨State.init cfg, db⟩
  step := Database.Step cfg con

lemma Database.Step.isle {s t : Database J K V σ} {l : Label J K V}
    (hs : Database.Step cfg con s l t) : RusqliteIsle.Step cfg s.isle l t.isle := by
  cases hs <;> assumption

lemma database_run {s t : Database J K V σ} {db : σ} (h : (database cfg con db).Run s t) :
    (isle cfg).Run s.isle t.isle :=
  TransitionSystem.RunVia.map (f := Database.isle)
    (fun _ l _ _ hs => ⟨l, trivial, Database.Step.isle hs⟩) h

lemma database_reachable {s : Database J K V σ} {db : σ}
    (h : (database cfg con db).Reachable s) : (isle cfg).Reachable s.isle :=
  database_run h

/-- The closure at the thread, entered with the contents `before`, has come to `db`, and what is
left of it does the rest; a statement of it that was interrupted is among the `interrupts`. -/
def Contents (cfg : Config J V) (con : Connection σ V) (interrupts : List (Victim J × Source J))
    (before db : σ) : Pc J V → Prop
  | .closure j c => ∃ done : List Bool,
      (true ∈ done → ∃ source, (Victim.job j, source) ∈ interrupts) ∧
      ∀ rest, (cfg.prog j).run con (done ++ rest) before = c.run con rest db
  | _ => db = before

/-- The closures that have ended are those of `runs`, one after the other. -/
structure Tracked (cfg : Config J V) (con : Connection σ V) (db : σ) (s : Database J K V σ)
    (runs : List (Invocation J)) : Prop where
  order : (runs.map Invocation.job).Sublist (jobsOf s.isle.chan.received)
  ended : ∀ j result, (s.isle.history j).ended = some result ↔
    ∃ cuts, (⟨j, cuts⟩, result) ∈ (serial (Invocation.perform cfg con) runs db).1
  interrupted : ∀ i ∈ runs, true ∈ i.cuts → ∃ source, (Victim.job i.job, source) ∈ s.isle.cuts
  latest : ∀ j, s.isle.pc.job? = some j → (s.isle.history j).ended = none →
    ∃ earlier, jobsOf s.isle.chan.received = earlier ++ [j] ∧
      (runs.map Invocation.job).Sublist earlier
  contents : Contents cfg con s.isle.cuts (serial (Invocation.perform cfg con) runs db).2 s.db
    s.isle.pc

namespace Tracked

variable {db : σ} {s t : Database J K V σ} {runs : List (Invocation J)}

lemma keep (hi : Tracked cfg con db s runs)
    (hended : ∀ j, (t.isle.history j).ended = (s.isle.history j).ended)
    (hrec : jobsOf t.isle.chan.received = jobsOf s.isle.chan.received)
    (hcuts : ∀ x ∈ s.isle.cuts, x ∈ t.isle.cuts)
    (hjob : ∀ j, t.isle.pc.job? = some j → s.isle.pc.job? = some j)
    (hcontents : ∀ before, Contents cfg con s.isle.cuts before s.db s.isle.pc →
      Contents cfg con t.isle.cuts before t.db t.isle.pc) : Tracked cfg con db t runs := by
  refine ⟨?_, fun j result => ?_, fun i hi' hcut => ?_, fun j hj hnone => ?_,
    hcontents _ hi.contents⟩
  · rw [hrec]
    exact hi.order
  · rw [hended]
    exact hi.ended j result
  · obtain ⟨source, hsource⟩ := hi.interrupted i hi' hcut
    exact ⟨source, hcuts _ hsource⟩
  · rw [hrec]
    exact hi.latest j (hjob j hj) (by rw [← hended, hnone])

lemma concat (hi : Tracked cfg con db s runs) {j : J} {c : Closure V} {result : Caught V}
    (hpc : s.isle.pc = .closure j c) (hnone : (s.isle.history j).ended = none)
    (hend : ∀ rest, c.run con rest s.db = (result, s.db))
    (hended : t.isle.history j = { s.isle.history j with ended := some result })
    (hother : ∀ i, i ≠ j → t.isle.history i = s.isle.history i)
    (hchan : t.isle.chan = s.isle.chan) (hcuts : t.isle.cuts = s.isle.cuts)
    (hdb : t.db = s.db) (hpc' : t.isle.pc = .detach j result) :
    ∃ runs, Tracked cfg con db t runs := by
  have hcontents := hi.contents
  rw [hpc] at hcontents
  obtain ⟨done, hdone, hrun⟩ := hcontents
  obtain ⟨earlier, hearlier, hsub⟩ := hi.latest j (by rw [hpc]; rfl) hnone
  have hperform : Invocation.perform cfg con ⟨j, done⟩
      (serial (Invocation.perform cfg con) runs db).2 = (result, s.db) := by
    have h := hrun []
    rw [List.append_nil, hend] at h
    exact h
  refine ⟨runs ++ [⟨j, done⟩], ?_, fun i r => ?_, fun i hi' hcut => ?_, fun i hcur hnone' => ?_, ?_⟩
  · rw [hchan, hearlier, List.map_append]
    exact hsub.append (List.Sublist.refl _)
  · rw [serial_concat, hperform]
    by_cases hij : i = j
    · subst hij
      have hold := hi.ended i r
      rw [hnone] at hold
      rw [hended]
      simp only [List.mem_append, List.mem_singleton, Prod.mk.injEq, Invocation.mk.injEq, true_and]
      constructor
      · rintro h
        cases h
        exact ⟨done, Or.inr ⟨rfl, rfl⟩⟩
      · rintro ⟨cuts, h | ⟨-, rfl⟩⟩
        · cases hold.mpr ⟨cuts, h⟩
        · rfl
    · rw [hother i hij]
      simp only [List.mem_append, List.mem_singleton, Prod.mk.injEq, Invocation.mk.injEq, hij,
        false_and, or_false]
      exact hi.ended i r
  · rw [hcuts]
    rcases List.mem_append.mp hi' with hold | hnew
    · exact hi.interrupted i hold hcut
    · rw [List.mem_singleton.mp hnew] at hcut ⊢
      exact hdone hcut
  · rw [hpc'] at hcur
    cases hcur
    rw [hended] at hnone'
    cases hnone'
  · rw [hpc', serial_concat, hperform, hdb]
    rfl

end Tracked

lemma Life.running {s : State J K V} {j : J} {c : Closure V} (hi : Life s j)
    (hpc : s.pc = .closure j c) : (s.history j).ended = none :=
  (hi.at_pc hpc rfl).2.ended

lemma ended_step {s t : State J K V} {l : Label J K V} (hs : Step cfg s l t)
    (hl : ∀ j, l ≠ .closureEnd j) (j : J) : (t.history j).ended = (s.history j).ended := by
  cases hs with
  | closureRet | closurePanic => exact absurd rfl (hl _)
  | deadline | cancel | dropAsyncTask => exact update_field History.ended _ (by rfl) j
  | attachCheckNone | attachInterrupt | queuedCheck | stmtStart | stmtComplete | normalizeToken
  | normalizeAbort | respond | fireInterrupt => exact update_field History.ended _ (by rfl) j
  | _ => rfl

lemma tracked_other {s : Database J K V σ} {t : State J K V} {l : Label J K V} {db : σ}
    {runs : List (Invocation J)} (hlife : ∀ j, Life s.isle j) (hi : Tracked cfg con db s runs)
    (hs : Step cfg s.isle l t) (hl : l.isStmt = false) :
    ∃ runs, Tracked cfg con db ⟨t, s.db⟩ runs := by
  have hended := ended_step hs
  cases hs with
  | stmtStart | stmtComplete | stmtFail | stmtAbort => cases hl
  | closureRet hpc =>
    exact hi.concat hpc ((hlife _).running hpc) (fun _ => rfl) (by simp)
      (fun i hij => by simp [hij]) rfl rfl rfl rfl
  | closurePanic hpc =>
    exact hi.concat hpc ((hlife _).running hpc) (fun _ => rfl) (by simp)
      (fun i hij => by simp [hij]) rfl rfl rfl rfl
  | @recvJob j ch hpc hpop =>
    have hcontents := hi.contents
    rw [hpc] at hcontents
    have hrec : jobsOf ch.received = jobsOf s.isle.chan.received ++ [j] := by
      rw [(Fifo.pop?_some hpop).received, jobsOf_append, jobsOf_job]
    refine ⟨runs, ?_, hi.ended, hi.interrupted, ?_, hcontents⟩
    · dsimp only
      rw [hrec]
      exact hi.order.trans (List.sublist_append_left _ _)
    · intro i hcur _
      cases hcur
      exact ⟨_, hrec, hi.order⟩
  | attachCheckNone hpc | attachInterrupt hpc =>
    refine ⟨runs, hi.keep (hended (by simp)) rfl (fun _ => id) (by simp [State.invoke, hpc, Pc.job?])
      fun before hbefore => ?_⟩
    rw [hpc] at hbefore
    obtain rfl : s.db = before := hbefore
    exact ⟨[], by simp, fun _ => rfl⟩
  | recvShutdown hpc hpop =>
    have hrec := (Fifo.pop?_some hpop).received
    exact ⟨runs, hi.keep (fun _ => rfl) (by simp [hrec]) (fun _ => id) (by simp [Pc.job?])
      fun before hbefore => by rw [hpc] at hbefore; exact hbefore⟩
  | loadAbort hpc | queuedCheck hpc | normalizeToken hpc =>
    refine ⟨runs, hi.keep (hended (by simp)) rfl (fun _ => id) ?_ fun before hbefore => ?_⟩
    · rw [hpc]
      dsimp only
      split <;> exact fun _ => id
    · rw [hpc] at hbefore
      dsimp only
      split <;> exact hbefore
  | detach hpc =>
    refine ⟨runs, hi.keep (hended (by simp)) rfl (fun _ => id) ?_ fun before hbefore => ?_⟩
    · rw [hpc]
      dsimp only
      rw [Pc.afterDetach_job?]
      exact fun _ => id
    · rw [hpc] at hbefore
      dsimp only
      obtain ⟨e, h⟩ | ⟨r, outcome, h⟩ := Pc.afterDetach_cases _ _ <;> rw [h] <;> exact hbefore
  | @respond _ _ outcome hpc =>
    refine ⟨runs, hi.keep (hended (by simp)) rfl (fun _ => id) ?_ fun before hbefore => ?_⟩
    · cases outcome <;> simp [Pc.afterJob, Pc.job?]
    · rw [hpc] at hbefore
      cases outcome <;> exact hbefore
  | recvDisconnected hpc | discard hpc | attachStore hpc | attachCheckFired hpc
  | normalizeAbort hpc | healthStart hpc | healthPass hpc | signalDone _ hpc =>
    exact ⟨runs, hi.keep (hended (by simp)) rfl (fun _ => id) (by simp [hpc, Pc.job?])
      fun before hbefore => by rw [hpc] at hbefore; exact hbefore⟩
  | healthFail hpc =>
    exact ⟨runs, hi.keep (fun _ => rfl) rfl (fun _ => List.mem_append_right _) (by simp [Pc.job?])
      fun before hbefore => by rw [hpc] at hbefore; exact hbefore⟩
  | threadFinish hpc =>
    refine ⟨runs, hi.keep (fun _ => rfl) rfl (fun _ => id) (by simp [Pc.job?])
      fun before hbefore => ?_⟩
    rcases hpc with ⟨-, hpc⟩ | hpc <;> rw [hpc] at hbefore <;> exact hbefore
  | enqueue _ hpush | dropIsleSent _ _ _ _ hpush | shutSend _ hpush | driverSend _ hpush =>
    have hrec := (Fifo.push?_some hpush).received
    exact ⟨runs, hi.keep (fun _ => rfl) (by rw [← hrec]) (fun _ => id) (fun _ => id) fun _ => id⟩
  | _ =>
    exact ⟨runs, hi.keep (hended (by simp)) rfl (fun _ => id) (fun _ => id) fun _ => id⟩

lemma tracked_step {s t : Database J K V σ} {l : Label J K V} {db : σ} {runs : List (Invocation J)}
    (hlife : ∀ j, Life s.isle j) (hi : Tracked cfg con db s runs)
    (hs : Database.Step cfg con s l t) : ∃ runs, Tracked cfg con db t runs := by
  cases hs with
  | other hs hl => exact tracked_other hlife hi hs hl
  | @start t j sql next hs hpc =>
    have hended := ended_step hs (by simp)
    cases hs with
    | stmtStart hpc' =>
      rw [hpc] at hpc'
      cases hpc'
      refine ⟨runs, hi.keep hended rfl (fun _ => id) (by simp [hpc, Pc.job?]) ?_⟩
      intro before hbefore
      rw [hpc] at hbefore
      obtain ⟨done, hdone, hrun⟩ := hbefore
      exact ⟨done, hdone, hrun⟩
  | @finish t j hs hmark =>
    have hended := ended_step hs (by simp)
    -- the statement was not interrupted, and the rest of the closure gets its result
    have goes {k : Except RusqliteError V → Closure V} (hpc : s.isle.pc = .closure j (.finish k))
        (hpc' : t.pc = .closure j (k (con.finish s.db).1)) (hchan : t.chan = s.isle.chan)
        (hcuts : t.cuts = s.isle.cuts) :
        ∃ runs, Tracked cfg con db ⟨t, (con.finish s.db).2⟩ runs := by
      refine ⟨runs, hi.keep hended (by simp [hchan]) (by simp [hcuts])
        (by simp [hpc, hpc', Pc.job?]) ?_⟩
      intro before hbefore
      rw [hpc] at hbefore
      obtain ⟨done, hdone, hrun⟩ := hbefore
      dsimp only
      rw [hpc', hcuts]
      refine ⟨done ++ [false], fun h => hdone (by simpa using h), fun rest => ?_⟩
      rw [List.append_assoc, hrun]
      rfl
    generalize hr : (con.finish s.db).1 = r at hs goes
    cases hs with
    | stmtComplete hpc' => exact goes hpc' rfl rfl rfl
    | stmtFail hpc' => exact goes hpc' rfl rfl rfl
    | stmtAbort _ hmark' =>
      rw [hmark] at hmark'
      cases hmark'
  | @abort t j r hs hmark =>
    have hended := ended_step hs (by simp)
    cases hs with
    | stmtComplete _ hmark' | stmtFail _ hmark' =>
      rw [hmark] at hmark'
      cases hmark'
    | stmtAbort hpc =>
      refine ⟨runs, hi.keep hended rfl (fun _ => List.mem_append_right _)
        (by simp [hpc, Pc.job?]) ?_⟩
      intro before hbefore
      rw [hpc] at hbefore
      obtain ⟨done, hdone, hrun⟩ := hbefore
      refine ⟨done ++ [true], fun _ => ?_, fun rest => ?_⟩
      · obtain ⟨source, hsource⟩ : ∃ source, source ∈ s.isle.conn.mark := by
          rw [Engine.marked] at hmark
          exact List.exists_mem_of_ne_nil _ (by simpa using hmark)
        exact ⟨source, List.mem_append_left _ (List.mem_map_of_mem hsource)⟩
      · rw [List.append_assoc, hrun]
        rfl

theorem tracked_reachable {s : Database J K V σ} {db : σ}
    (h : (database cfg con db).Reachable s) : ∃ runs, Tracked cfg con db s runs := by
  refine TransitionSystem.ReachableVia.invariant_of (J := fun s => ∀ j, Life s.isle j)
    (I := fun s => ∃ runs, Tracked cfg con db s runs)
    (fun s hs => life_reachable (database_reachable hs)) ?_ ?_ h
  · refine ⟨[], List.nil_sublist _, fun j result => ?_, by simp,
      by simp [database, State.init, Pc.job?], rfl⟩
    simp [database, State.init, History.blank]
  · rintro s l t hlife ⟨runs, hi⟩ - hs
    exact tracked_step hlife hi hs

/-! ## The order is that of real time -/

/-- The thread will not receive the job `j`. -/
def Missed (s : State J K V) (j : J) : Prop :=
  Request.job j ∈ s.chan.lost ∨ (s.jobs j).submission = .abandoned ∨
    ∃ e, (s.jobs j).submission = .refused e

lemma missed_step {s t : State J K V} {l : Label J K V} {j : J} (hi : Missed s j)
    (hs : Step cfg s l t) : Missed t j := by
  rcases hi with hlost | hfailed
  · left
    by_cases hl : l = .threadFinish
    · subst hl
      cases hs with
      | threadFinish => exact List.mem_append_right _ hlost
    · rw [lost_step hs hl]
      exact hlost
  · right
    rcases (caller_step hs j).submission with hsame | ⟨rfl, -⟩ | ⟨hsending, -⟩
    · rwa [hsame]
    · cases hs with
      | submit hsub => simp [hsub] at hfailed
    · simp [hsending] at hfailed

lemma Missed.not_received {s : State J K V} {j : J} (hi : Missed s j)
    (h : (isle cfg).Reachable s) : Request.job j ∉ s.chan.received := by
  intro hrec
  have hacc := ((link_reachable h).accepted j).mp (Fifo.mem_sent_of_received hrec)
  rcases hi with hlost | hsub | ⟨e, hsub⟩
  · exact (mailbox_inv h).not_received (List.mem_append_right _ hlost) hrec
  · rw [hacc] at hsub
    cases hsub
  · rw [hacc] at hsub
    cases hsub

lemma received_or_missed {s : State J K V} (h : (isle cfg).Reachable s) {j : J}
    (hobs : (s.jobs j).observed ≠ none) : Request.job j ∈ s.chan.received ∨ Missed s j := by
  have hlife := life_reachable h j
  have hlink := link_reachable h
  by_cases hrec : Request.job j ∈ s.chan.received
  · exact Or.inl hrec
  right
  obtain ⟨r, hr⟩ := Option.ne_none_iff_exists'.mp hobs
  rcases hlife.seen r hr with ⟨e, hsub, -⟩ | ⟨hsub, hwait⟩
  · exact Or.inr (Or.inr ⟨e, hsub⟩)
  · refine Or.inl (Fifo.mem_lost_of_sent ((hlink.accepted j).mpr hsub) hrec fun hbuf => ?_)
    rw [hlife.queued hbuf] at hwait
    cases hwait

lemma received_nodup {s : State J K V} (h : (isle cfg).Reachable s) :
    (jobsOf s.chan.received).Nodup := by
  have hnodup := (mailbox_inv h).nodup
  rw [s.mailbox.chan.history, List.append_assoc, jobsOf_append] at hnodup
  exact (List.nodup_append.mp hnodup).1

lemma received_step {s t : State J K V} {l : Label J K V} (hlink : Link s) (hs : Step cfg s l t) :
    s.chan.received <+: t.chan.received := by
  cases moves_step hlink hs with
  | aside _ _ hchan | forward _ _ hchan => rw [hchan]
  | ended _ _ hchan =>
    rw [hchan]
    exact List.prefix_rfl
  | sent _ _ _ hpush =>
    rw [(Fifo.push?_some hpush).received]
  | received _ _ _ hpop =>
    rw [(Fifo.pop?_some hpop).received]
    exact List.prefix_append _ _

lemma received_run {s t : State J K V} (h : (isle cfg).Reachable s) (hrun : (isle cfg).Run s t) :
    s.chan.received <+: t.chan.received :=
  TransitionSystem.RunVia.invariant_of (J := Link)
    (I := fun t => s.chan.received <+: t.chan.received) (fun _ => link_reachable)
    (fun _ _ _ hlink hi _ hs => hi.trans (received_step hlink hs)) h hrun List.prefix_rfl

lemma missed_run {s t : State J K V} {j : J} (hrun : (isle cfg).Run s t) (hi : Missed s j) :
    Missed t j :=
  TransitionSystem.Run.invariant (I := fun t => Missed t j) (fun _ _ _ => missed_step) hrun hi

/-- A job whose caller has its result is received before one that has not been sent. -/
lemma received_in_order {s t : State J K V} (h : (isle cfg).Reachable s)
    (hrun : (isle cfg).Run s t) {i j : J} (hobs : (s.jobs i).observed ≠ none)
    (hunsent : (s.jobs j).submission = .unborn ∨ (s.jobs j).submission = .sending) {l : List J}
    (hl : l.Sublist (jobsOf t.chan.received)) (hi : i ∈ l) (hj : j ∈ l) : [i, j].Sublist l := by
  have hreach := h.run hrun
  rcases received_or_missed h hobs with hrec | hmissed
  · have hnew : Request.job j ∉ s.chan.received := by
      intro hrec
      have hacc := ((link_reachable h).accepted j).mp (Fifo.mem_sent_of_received hrec)
      rcases hunsent with hsub | hsub <;> rw [hacc] at hsub <;> cases hsub
    have hnodup := received_nodup hreach
    obtain ⟨later, hlater⟩ := received_run h hrun
    rw [← hlater, jobsOf_append] at hl hnodup
    exact stands_before hnodup hl (mem_jobsOf.mpr hrec) (by simpa using hnew) hi hj
  · exact absurd (mem_jobsOf.mp (hl.subset hi)) ((missed_run hrun hmissed).not_received hreach)

/-! ## What the callers see -/

/-- The closure of `j` is one of the `results`, and ended so. -/
def EndedIn (results : List (Invocation J × Caught V)) (j : J) (result : Caught V) : Prop :=
  ∃ cuts, (⟨j, cuts⟩, result) ∈ results

/-- What the result `r` of a job says about its closure, when the closures that took effect are
those of `results`. -/
def Reports (results : List (Invocation J × Caught V)) (j : J) : Except IsleError V → Prop
  | .ok v => EndedIn results j (.returned (.ok v))
  | .error (.sqlite e) => EndedIn results j (.returned (.error e))
  | .error (.panicked message) =>
    ∃ payload, EndedIn results j (.panicked payload) ∧ panicMessage payload = message
  | .error .queueFull => ∀ result, ¬ EndedIn results j result
  | .error _ => (∀ result, ¬ EndedIn results j result) ∨
    ∃ e, EndedIn results j (.returned (.error e)) ∧ IsleError.isInterrupt e = true

/-- The closures of `runs`, one after the other, explain the contents of the database and all
that its callers have seen. -/
structure Linearization (cfg : Config J V) (con : Connection σ V) (db : σ)
    (s : Database J K V σ) (runs : List (Invocation J)) : Prop where
  once : (runs.map Invocation.job).Nodup
  ended : ∀ j result, (s.isle.history j).ended = some result ↔
    EndedIn (serial (Invocation.perform cfg con) runs db).1 j result
  order : (runs.map Invocation.job).Sublist (jobsOf s.isle.chan.sent)
  interrupted : ∀ i ∈ runs, true ∈ i.cuts → ∃ source, (Victim.job i.job, source) ∈ s.isle.cuts
  reports : ∀ j r, (s.isle.jobs j).observed = some r →
    Reports (serial (Invocation.perform cfg con) runs db).1 j r
  contents : (∀ j c, s.isle.pc ≠ .closure j c) →
    s.db = (serial (Invocation.perform cfg con) runs db).2

lemma Linearization.mem_runs {s : Database J K V σ} {db : σ} {runs : List (Invocation J)}
    (h : Linearization cfg con db s runs) {j : J} (hended : (s.isle.history j).ended ≠ none) :
    j ∈ runs.map Invocation.job := by
  obtain ⟨result, hresult⟩ := Option.ne_none_iff_exists'.mp hended
  obtain ⟨cuts, hmem⟩ := (h.ended j result).mp hresult
  exact List.mem_map.mpr ⟨_, mem_of_mem_serial hmem, rfl⟩

lemma Tracked.reports {s : Database J K V σ} {db : σ} {runs : List (Invocation J)}
    (hi : Tracked cfg con db s runs) {j : J} {r : Except IsleError V}
    (hrecorded : Recorded (s.isle.history j)) (hexplains : Explains (s.isle.history j) r) :
    Reports (serial (Invocation.perform cfg con) runs db).1 j r := by
  have never (h0 : (s.isle.history j).invoked = 0) (result : Caught V) :
      ¬ EndedIn (serial (Invocation.perform cfg con) runs db).1 j result := by
    intro hended
    exact (hrecorded.invoked ((hi.ended j result).mpr hended)).1 h0
  have stopped (h : (s.isle.history j).Interrupted) :
      ∃ e, EndedIn (serial (Invocation.perform cfg con) runs db).1 j (.returned (.error e)) ∧
        IsleError.isInterrupt e = true := by
    obtain ⟨-, e, hended, he⟩ := h
    exact ⟨e, (hi.ended j _).mp hended, he⟩
  cases r with
  | ok v => exact (hi.ended j _).mp hexplains.2
  | error err =>
    cases err with
    | sqlite e => exact (hi.ended j _).mp hexplains.2.1
    | panicked message =>
      obtain ⟨-, payload, hended, hmessage⟩ := hexplains
      exact ⟨payload, (hi.ended j _).mp hended, hmessage⟩
    | cancelled | timeout => exact hexplains.2.imp never stopped
    | closed => exact hexplains.imp never (fun h => stopped h.1)
    | queueFull => exact never hexplains

lemma Tracked.linearization {s : Database J K V σ} {db : σ} {runs : List (Invocation J)}
    (hi : Tracked cfg con db s runs) (h : (isle cfg).Reachable s.isle) :
    Linearization cfg con db s runs := by
  refine ⟨hi.order.nodup (received_nodup h), hi.ended, ?_, hi.interrupted, fun j r hr => ?_,
    fun hpc => ?_⟩
  · refine hi.order.trans ?_
    rw [s.isle.chan.history, List.append_assoc, jobsOf_append]
    exact List.sublist_append_left _ _
  · have hlife := life_reachable h j
    exact hi.reports (recorded_reachable h j)
      (hlife.explains (link_reachable h) (hlife.seen r hr))
  · have hcontents := hi.contents
    generalize s.isle.pc = pc at hpc hcontents
    cases pc with
    | closure j c => exact absurd rfl (hpc j c)
    | _ => exact hcontents

/-- In the order of `runs`, a job whose caller has its result in some state before `t` stands
before every job that was sent only after that state. -/
def InRealTime (cfg : Config J V) (con : Connection σ V) (db : σ) (t : Database J K V σ)
    (runs : List (Invocation J)) : Prop :=
  ∀ s, (database cfg con db).Reachable s → (database cfg con db).Run s t →
    ∀ i j, (s.isle.jobs i).observed ≠ none →
      (s.isle.jobs j).submission = .unborn ∨ (s.isle.jobs j).submission = .sending →
      i ∈ runs.map Invocation.job → j ∈ runs.map Invocation.job →
      [i, j].Sublist (runs.map Invocation.job)

/-- In whatever order the steps of its callers and its thread come, a database is linearizable. The
closures that have run took effect one after the other, each at most once and in the order in
which their jobs were accepted; the contents of the database and every result are those of this
order, and it is an order of real time. -/
theorem database_linearizable {s : Database J K V σ} {db : σ}
    (h : (database cfg con db).Reachable s) :
    ∃ runs, Linearization cfg con db s runs ∧ InRealTime cfg con db s runs := by
  obtain ⟨runs, hi⟩ := tracked_reachable h
  refine ⟨runs, hi.linearization (database_reachable h), ?_⟩
  intro r hr hrun i j hobs hunsent
  exact received_in_order (database_reachable hr) (database_run hrun) hobs hunsent hi.order

/-- A connection that counts the statements that have ended by themselves. -/
def counter : Connection ℕ ℕ where
  start _ n := n
  finish n := (.ok n, n + 1)
  abort n := n

/-- The second job is sent after the caller of the first one has its result, and stands behind it. -/
theorem database_linearizable_twoQueries : ∃ s : Database Bool Unit ℕ ℕ,
    (s.isle.jobs true).observed = some (.ok 0) ∧ (s.isle.jobs false).observed = some (.ok 1) ∧
      s.db = 2 ∧ ∃ runs, Linearization twoQueries counter 0 s runs ∧
        [true, false].Sublist (runs.map Invocation.job) := by
  have h0 := TransitionSystem.Reachable.refl (T := database (K := Unit) twoQueries counter 0)
  have h1 := h0.tail (.other (.submit (j := true) rfl (by decide) rfl) rfl)
  have h2 := h1.tail (.other (.enqueue (j := true) rfl rfl) rfl)
  have h3 := h2.tail (.other (.recvJob (j := true) rfl rfl) rfl)
  have h4 := h3.tail (.other (.loadAbort (j := true) rfl) rfl)
  have h5 := h4.tail (.other (.queuedCheck (j := true) rfl) rfl)
  have h6 := h5.tail (.other (.attachStore (j := true) rfl) rfl)
  have h7 := h6.tail (.other (.attachCheckNone (j := true) rfl rfl) rfl)
  have h8 := h7.tail (.start (.stmtStart (j := true) rfl) rfl)
  have h9 := h8.tail (.finish (.stmtComplete (j := true) rfl rfl) rfl)
  have h10 := h9.tail (.other (.closureRet (j := true) rfl) rfl)
  have h11 := h10.tail (.other (.detach (j := true) rfl) rfl)
  have h12 := h11.tail (.other (.respond (j := true) rfl) rfl)
  have h13 := h12.tail (.other (.observe (j := true) rfl rfl rfl rfl) rfl)
  have r1 := h13.here.tail (.other (.submit (j := false) rfl (by decide) rfl) rfl) trivial
  have r2 := r1.tail (.other (.enqueue (j := false) rfl rfl) rfl) trivial
  have r3 := r2.tail (.other (.recvJob (j := false) rfl rfl) rfl) trivial
  have r4 := r3.tail (.other (.loadAbort (j := false) rfl) rfl) trivial
  have r5 := r4.tail (.other (.queuedCheck (j := false) rfl) rfl) trivial
  have r6 := r5.tail (.other (.attachStore (j := false) rfl) rfl) trivial
  have r7 := r6.tail (.other (.attachCheckNone (j := false) rfl rfl) rfl) trivial
  have r8 := r7.tail (.start (.stmtStart (j := false) rfl) rfl) trivial
  have r9 := r8.tail (.finish (.stmtComplete (j := false) rfl rfl) rfl) trivial
  have r10 := r9.tail (.other (.closureRet (j := false) rfl) rfl) trivial
  have r11 := r10.tail (.other (.detach (j := false) rfl) rfl) trivial
  have r12 := r11.tail (.other (.respond (j := false) rfl) rfl) trivial
  have r13 := r12.tail (.other (.observe (j := false) rfl rfl rfl rfl) rfl) trivial
  obtain ⟨runs, hlin, htime⟩ := database_linearizable (h13.run r13)
  refine ⟨_, rfl, rfl, rfl, runs, hlin, ?_⟩
  exact htime _ h13 r13 true false (Option.some_ne_none _) (Or.inl rfl)
    (hlin.mem_runs (Option.some_ne_none _)) (hlin.mem_runs (Option.some_ne_none _))

end RusqliteIsle
