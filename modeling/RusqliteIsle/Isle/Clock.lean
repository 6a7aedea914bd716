import RusqliteIsle.Isle.Poll
import RusqliteIsle.Isle.Reason

/-!
# Deadlines

The isle with a clock. A `call_timeout` sets its timer once its job has been accepted, and the clock
does not pass the time at which a timer is due whose call still waits. A closure is entered in
time, unless the clock passes the deadline before the timer does its work: the timer was set late,
as when the call had to wait for capacity, or the job is past its queued-stage check.
-/

namespace RusqliteIsle

set_option linter.unusedSectionVars false

/-- A configuration with the timeouts of the jobs. -/
structure TimedConfig (J V : Type) extends Config J V where
  timeout : J → ℕ

/-- An isle with a clock: when each call was entered, and when its timer is due, if it is set. -/
structure Clocked (J K V : Type) where
  isle : State J K V
  now : ℕ
  entered : J → Option ℕ
  due : J → Option ℕ

inductive ClockLabel (J K V : Type) where
  | isle (l : Label J K V)
  | setTimer (j : J)
  | tick (now : ℕ)

variable {J K V : Type} [DecidableEq J] [DecidableEq K] {cfg : TimedConfig J V}

/-- The call of `j` still waits for its result or its timer. -/
structure Waiting (s : State J K V) (j : J) : Prop where
  held : (s.jobs j).holder = .held
  unobserved : (s.jobs j).observed = none
  unexpired : (s.jobs j).expired = false

namespace Clocked

def init (cfg : TimedConfig J V) : Clocked J K V :=
  ⟨State.init cfg.toConfig, 0, fun _ => none, fun _ => none⟩

/-- What the callers do not do: `expire` before the timer is due, give up a `call_timeout` of the
synchronous isle before it returns, and detach one. -/
def permits (cfg : TimedConfig J V) (s : Clocked J K V) : Label J K V → Prop
  | .deadline j => ∃ due, s.due j = some due ∧ due ≤ s.now
  | .dropTask j => cfg.api j = .callTimeout → cfg.front = .async ∨ (s.isle.jobs j).observed ≠ none
  | .detachTask j => cfg.api j ≠ .callTimeout
  | _ => True

/-- The calls that have been entered, with the time, once `l` has happened. -/
def enter (s : Clocked J K V) : Label J K V → J → Option ℕ
  | .submit j => Function.update s.entered j (some s.now)
  | _ => s.entered

lemma enter_of_ne {s : Clocked J K V} {l : Label J K V} {j : J} (h : l ≠ .submit j) :
    s.enter l j = s.entered j := by
  cases l with
  | submit i => exact Function.update_of_ne (fun hij => h (congrArg Label.submit hij.symm)) _ _
  | _ => rfl

end Clocked

/-- The steps of an isle with a clock. -/
inductive ClockStep (cfg : TimedConfig J V) :
    Clocked J K V → ClockLabel J K V → Clocked J K V → Prop
  | isle {s : Clocked J K V} {l : Label J K V} {t : State J K V}
      (hstep : Step cfg.toConfig s.isle l t) (hpermits : s.permits cfg l) :
      ClockStep cfg s (.isle l) { s with isle := t, entered := s.enter l }
  -- `recv_timeout`, and `tokio::time::timeout`
  | setTimer {s : Clocked J K V} {j : J} (hapi : cfg.api j = .callTimeout)
      (hsub : (s.isle.jobs j).submission = .accepted) (hwaits : Waiting s.isle j)
      (hunset : s.due j = none) :
      ClockStep cfg s (.setTimer j)
        { s with due := Function.update s.due j (some (s.now + cfg.timeout j)) }
  | tick {s : Clocked J K V} {now : ℕ} (hlater : s.now ≤ now)
      (htimers : ∀ j due, s.due j = some due → Waiting s.isle j → now ≤ due) :
      ClockStep cfg s (.tick now) { s with now := now }

/-- The isle of a configuration, with a clock. -/
def clocked (cfg : TimedConfig J V) : TransitionSystem (Clocked J K V) (ClockLabel J K V) where
  init := Clocked.init cfg
  step := ClockStep cfg

lemma isle_simulation : TransitionSystem.Simulation (clocked (K := K) cfg) (isle cfg.toConfig)
    Clocked.isle (fun _ => True) (fun _ => True) where
  init := rfl
  back _ _ _ _ _ := trivial
  step := by
    intro s l t _ _ hs
    cases hs with
    | isle hstep => exact Or.inr ⟨_, hstep⟩
    | setTimer | tick => exact Or.inl rfl

lemma isle_reachable {s : Clocked J K V} (h : (clocked cfg).Reachable s) :
    (isle cfg.toConfig).Reachable s.isle :=
  isle_simulation.reachable (fun _ _ => trivial) h trivial

/-! ## The calls and their timers -/

/-- The call of `j` has been entered if and only if its job is there; its timer is set only once the
job is accepted; and it waits no longer only if the token has fired or the result is there. -/
structure Watched (s : Clocked J K V) (j : J) : Prop where
  entered : s.entered j = none ↔ (s.isle.jobs j).submission = .unborn
  set : s.due j ≠ none → (s.isle.jobs j).submission = .accepted
  expired : (s.isle.jobs j).expired = true → (s.isle.jobs j).token.state ≠ none
  held : (s.isle.jobs j).holder ≠ .held →
    (s.isle.jobs j).token.state ≠ none ∨ (s.isle.jobs j).observed ≠ none

lemma beginFire_fired (s : State J K V) (j : J) (reason : FireReason) :
    ((s.beginFire j reason).jobs j).token.state ≠ none := by
  simp [State.beginFire, CancelToken.compareExchange_state]

lemma state_kept {s t : State J K V} {l : Label J K V} {j : J} (hs : Step cfg.toConfig s l t)
    (h : (s.jobs j).token.state ≠ none) : (t.jobs j).token.state ≠ none := by
  obtain ⟨reason, hstate⟩ := Option.ne_none_iff_exists'.mp h
  rw [state_step hs hstate]
  exact Option.some_ne_none reason

lemma watched_isle {s : Clocked J K V} {l : Label J K V} {t : State J K V} {j : J}
    (hapi : cfg.api j = .callTimeout) (hi : Watched s j) (hs : Step cfg.toConfig s.isle l t)
    (hpermits : s.permits cfg l) :
    Watched { s with isle := t, entered := s.enter l } j := by
  have hcaller := caller_step hs j
  refine ⟨?_, fun hset => ?_, fun hexpired => ?_, fun hheld => ?_⟩
  · by_cases hl : l = .submit j
    · subst hl
      cases hs with
      | submit => simp [Clocked.enter]
    · dsimp only
      rw [Clocked.enter_of_ne hl, hi.entered]
      rcases hcaller.submission with hsame | ⟨rfl, -⟩ | ⟨hsending, hborn⟩
      · rw [hsame]
      · exact absurd rfl hl
      · exact iff_of_false (by simp [hsending]) hborn
  · rcases hcaller.submission with hsame | ⟨rfl, -⟩ | ⟨hsending, -⟩
    · exact hsame.trans (hi.set hset)
    · cases hs with
      | submit hsub =>
        rw [hi.set hset] at hsub
        cases hsub
    · rw [hi.set hset] at hsending
      cases hsending
  · rcases hcaller.expired with hsame | rfl
    · exact state_kept hs (hi.expired (hsame ▸ hexpired))
    · cases hs with
      | deadline => exact beginFire_fired _ j _
  · rcases hcaller.holder with hsame | rfl | rfl
    · exact (hi.held (hsame ▸ hheld)).imp (state_kept hs) hcaller.kept
    · cases hs with
      | dropAsyncTask => exact Or.inl (beginFire_fired _ j _)
      | dropSyncTask hfront =>
        rcases hpermits hapi with hasync | hobserved
        · rw [hfront] at hasync
          cases hasync
        · exact Or.inr (hcaller.kept hobserved)
    · exact absurd hapi hpermits

lemma watched_step {s t : Clocked J K V} {l : ClockLabel J K V} {j : J}
    (hapi : cfg.api j = .callTimeout) (hi : Watched s j) (hs : ClockStep cfg s l t) :
    Watched t j := by
  cases hs with
  | isle hstep hpermits => exact watched_isle hapi hi hstep hpermits
  | @setTimer i _ hsub =>
    refine ⟨hi.entered, fun hset => ?_, hi.expired, hi.held⟩
    by_cases hij : j = i
    · rwa [hij]
    · exact hi.set (by simpa [hij] using hset)
  | tick => exact ⟨hi.entered, hi.set, hi.expired, hi.held⟩

lemma watched_reachable {s : Clocked J K V} (h : (clocked cfg).Reachable s) {j : J}
    (hapi : cfg.api j = .callTimeout) : Watched s j := by
  refine TransitionSystem.Reachable.invariant (I := fun s => Watched s j) ?_
    (fun _ _ _ => watched_step hapi) h
  constructor <;> simp [clocked, Clocked.init, State.init, Job.unborn]

/-! ## The closures that can still be entered -/

/-- The job is queued or on its way to the queue, and its token has not fired. -/
structure Pending (s : State J K V) (j : J) : Prop where
  sent : (s.jobs j).submission = .sending ∨ (s.jobs j).submission = .accepted
  state : (s.jobs j).token.state = none
  response : (s.jobs j).response = .pending
  invoked : (s.history j).invoked = 0

/-- The closure of `j` can still be entered, as far as its job shows. A submission that will be refused
and a job that will be discarded count as well. -/
def MayStart (s : State J K V) (j : J) : Prop := s.pc.attaching? = some j ∨ Pending s j

lemma mayStart_step {s t : State J K V} {l : Label J K V} {j : J}
    (h : (isle cfg.toConfig).Reachable s) (hs : Step cfg.toConfig s l t)
    (hborn : (s.jobs j).submission ≠ .unborn) (ht : MayStart t j) : MayStart s j := by
  have hlife := life_reachable h j
  rcases ht with ht | ht
  · rcases attaching_step hs ht with hat | ⟨hpc, hstate⟩
    · exact Or.inl hat
    · obtain ⟨hresponse, hun⟩ := hlife.at_pc hpc rfl
      have hsent := accepted_of_current h (by rw [hpc]; rfl)
      exact Or.inr ⟨Or.inr hsent, hstate, hresponse, hun.invoked⟩
  · rcases invoked_step hs j with hinvoked | hat
    swap
    · exact Or.inl hat
    refine Or.inr ⟨?_, ?_, ?_, hinvoked ▸ ht.invoked⟩
    · rcases (caller_step hs j).submission with hsame | ⟨rfl, -⟩ | ⟨hsending, -⟩
      · exact hsame ▸ ht.sent
      · cases hs with
        | submit hsub => exact absurd hsub hborn
      · exact Or.inl hsending
    · by_contra hstate
      exact state_kept hs hstate ht.state
    · by_contra hfinal
      rw [← final_step hlife hs hfinal] at hfinal
      exact hfinal ht.response

lemma Watched.waiting {s : Clocked J K V} {j : J} (hi : Watched s j)
    (hlife : Life s.isle j) (hset : s.due j ≠ none) (hpending : Pending s.isle j) :
    Waiting s.isle j := by
  have hunobserved : (s.isle.jobs j).observed = none := by
    by_contra hobserved
    obtain ⟨r, hr⟩ := Option.ne_none_iff_exists'.mp hobserved
    rcases hlife.seen r hr with ⟨e, hrefused, -⟩ | ⟨-, hwait⟩
    · rw [hi.set hset] at hrefused
      cases hrefused
    · rw [hpending.response] at hwait
      cases hwait
  refine ⟨?_, hunobserved, ?_⟩
  · by_contra hheld
    rcases hi.held hheld with hstate | hobserved
    · exact hstate hpending.state
    · exact hobserved hunobserved
  · by_contra hexpired
    exact hi.expired (Bool.eq_true_of_not_eq_false hexpired) hpending.state

/-- No closure of a `call_timeout` is entered after its deadline, on the runs whose steps meet
`P`. -/
def NeverLate (cfg : TimedConfig J V) (P : Clocked J K V → ClockLabel J K V → Prop) : Prop :=
  ∀ s l t j, (clocked cfg).ReachableVia P s → P s l → ClockStep cfg s l t →
    cfg.api j = .callTimeout → (t.isle.history j).invoked ≠ (s.isle.history j).invoked →
    ∃ entry, s.entered j = some entry ∧ s.now ≤ entry + cfg.timeout j

/-- When the clock passes the deadline of a `call_timeout`, its job is not between the queued-stage
check and the closure, and if the job is still pending its timer is due by then. The condition is
exact relative to `MayStart`. -/
def TimersInTime (cfg : TimedConfig J V) (s : Clocked J K V) : ClockLabel J K V → Prop
  | .tick now => ∀ j entry, cfg.api j = .callTimeout → s.entered j = some entry →
      entry + cfg.timeout j < now → s.isle.pc.attaching? ≠ some j ∧
        (Pending s.isle j → ∃ due, s.due j = some due ∧ due ≤ entry + cfg.timeout j)
  | _ => True

/-- After the deadline of `j` its closure cannot be entered. -/
def OnTime (cfg : TimedConfig J V) (s : Clocked J K V) (j : J) : Prop :=
  ∀ entry, s.entered j = some entry → entry + cfg.timeout j < s.now → ¬ MayStart s.isle j

/-- The clock passes deadlines in time if and only if the closures it passes cannot be entered any
more. -/
lemma timersInTime_iff {s : Clocked J K V} {now : ℕ} (h : (clocked cfg).Reachable s)
    (htimers : ∀ j due, s.due j = some due → Waiting s.isle j → now ≤ due) :
    TimersInTime cfg s (.tick now) ↔ ∀ j, cfg.api j = .callTimeout → OnTime cfg { s with now } j := by
  constructor
  · intro hP j hapi entry hentry hlate hstart
    obtain ⟨hattaching, htimer⟩ := hP j entry hapi hentry hlate
    refine hstart.elim hattaching (fun hpending => ?_)
    obtain ⟨due, hset, hdue⟩ := htimer hpending
    have hwaiting := (watched_reachable h hapi).waiting (life_reachable (isle_reachable h) j)
      (by simp [hset]) hpending
    exact absurd (htimers j due hset hwaiting) (Nat.not_le.mpr (hdue.trans_lt hlate))
  · intro hi j entry hapi hentry hlate
    have hstart := hi j hapi entry hentry hlate
    exact ⟨fun hat => hstart (Or.inl hat), fun hpending => absurd (Or.inr hpending) hstart⟩

lemma onTime_step {s t : Clocked J K V} {l : ClockLabel J K V} {j : J}
    (h : (clocked cfg).Reachable s) (hapi : cfg.api j = .callTimeout) (hi : OnTime cfg s j)
    (hP : TimersInTime cfg s l) (hs : ClockStep cfg s l t) : OnTime cfg t j := by
  have hwatched := watched_reachable h hapi
  intro entry hentry hlate hstart
  cases hs with
  | @isle l _ hstep =>
    by_cases hl : l = .submit j
    · subst hl
      simp only [Clocked.enter, Function.update_self, Option.some.injEq] at hentry
      dsimp only at hlate
      omega
    · replace hentry := (Clocked.enter_of_ne hl).symm.trans hentry
      have hborn : (s.isle.jobs j).submission ≠ .unborn := by
        intro hunborn
        rw [hwatched.entered.mpr hunborn] at hentry
        cases hentry
      exact hi entry hentry hlate (mayStart_step (isle_reachable h) hstep hborn hstart)
  | setTimer => exact hi entry hentry hlate hstart
  | tick _ htimers => exact (timersInTime_iff h htimers).mp hP j hapi entry hentry hlate hstart

/-- A `call_timeout` closure is never entered late, as long as the clock passes its deadline only
when the timer has been set in time and the job is not between its queued-stage check and the
closure. Whenever the clock passes it otherwise, `MayStart` still holds of a job afterwards. -/
theorem call_timeout_never_late : NeverLate (K := K) cfg (TimersInTime cfg) ∧
    ∀ (s : Clocked J K V) (now : ℕ) t, (clocked cfg).Reachable s → ClockStep cfg s (.tick now) t →
      (TimersInTime cfg s (.tick now) ↔ ∀ j, cfg.api j = .callTimeout → OnTime cfg t j) := by
  constructor
  swap
  · intro s now t h hs
    cases hs with
    | tick _ htimers => exact timersInTime_iff h htimers
  intro s l t j h _ hs hapi hinvoked
  have hreach := TransitionSystem.ReachableVia.reachable h
  have honTime : OnTime cfg s j := by
    refine TransitionSystem.ReachableVia.invariant_of (J := (clocked cfg).Reachable)
      (I := fun s => OnTime cfg s j) (fun _ hr => hr) ?_ ?_ h
    · intro entry hentry
      cases hentry
    · exact fun s l t hr hi hP hst => onTime_step hr hapi hi hP hst
  cases hs with
  | isle hstep =>
    have hat := (invoked_step hstep j).resolve_left hinvoked
    have hsub := accepted_of_current (isle_reachable hreach) (Pc.job?_of_attaching? hat)
    obtain ⟨entry, hentry⟩ : ∃ entry, s.entered j = some entry := by
      refine Option.ne_none_iff_exists'.mp (fun hnone => ?_)
      rw [(watched_reachable hreach hapi).entered.mp hnone] at hsub
      cases hsub
    refine ⟨entry, hentry, ?_⟩
    by_contra hlate
    exact honTime entry hentry (by omega) (Or.inl hat)
  | setTimer => exact absurd rfl hinvoked
  | tick => exact absurd rfl hinvoked

/-- A synchronous isle with two jobs that have deadlines. -/
def twoDeadlines : TimedConfig Bool ℕ where
  front := .sync
  cap := 2
  api := fun _ => .callTimeout
  prog := fun _ => .ret (.ok 7)
  timeout := fun _ => 10

/-- The first timer fires at 10, and the clock goes past it. The second one is due at 20, and the
closure of its job is entered at 20. -/
theorem call_timeout_never_late_due : ∃ s : Clocked Bool Unit ℕ,
    (s.entered true = some 0 ∧ 10 < s.now ∧ (s.isle.history true).invoked = 0) ∧
      s.due false = some 20 ∧ s.isle.pc = .attachCheck false ∧
      ∃ entry, s.entered false = some entry ∧ s.now ≤ entry + 10 := by
  have r0 := TransitionSystem.Reachable.refl (T := clocked (K := Unit) twoDeadlines)
  have h0 := r0.here_via (TimersInTime twoDeadlines)
  have h1 := h0.tail (.isle (.submit (j := true) rfl (by decide) rfl) trivial) trivial
  have h2 := h1.tail (.isle (.enqueue (j := true) rfl rfl) trivial) trivial
  have h3 := h2.tail (.setTimer (j := true) rfl rfl ⟨rfl, rfl, rfl⟩ rfl) trivial
  have h4 := h3.tail (@ClockStep.tick _ Unit _ _ _ twoDeadlines _ 10 (by decide) ?timers) ?late
  have h5 := h4.tail (.isle (.deadline (j := true) rfl rfl rfl rfl rfl) ⟨10, rfl, le_rfl⟩) trivial
  have h6 := h5.tail (.isle (.fireInterrupt (j := true) (by decide)) trivial) trivial
  have h7 := h6.tail (.isle (.submit (j := false) rfl (by decide) rfl) trivial) trivial
  have h8 := h7.tail (.isle (.enqueue (j := false) rfl rfl) trivial) trivial
  have h9 := h8.tail (.setTimer (j := false) rfl rfl ⟨rfl, rfl, rfl⟩ rfl) trivial
  have h10 := h9.tail (@ClockStep.tick _ Unit _ _ _ twoDeadlines _ 20 (by decide) ?timers') ?late'
  have h11 := h10.tail (.isle (.recvJob (j := true) rfl rfl) trivial) trivial
  have h12 := h11.tail (.isle (.loadAbort (j := true) rfl) trivial) trivial
  have h13 := h12.tail (.isle (.queuedCheck (j := true) rfl) trivial) trivial
  have h14 := h13.tail (.isle (.respond (j := true) rfl) trivial) trivial
  have h15 := h14.tail (.isle (.recvJob (j := false) rfl rfl) trivial) trivial
  have h16 := h15.tail (.isle (.loadAbort (j := false) rfl) trivial) trivial
  have h17 := h16.tail (.isle (.queuedCheck (j := false) rfl) trivial) trivial
  have h18 := h17.tail (.isle (.attachStore (j := false) rfl) trivial) trivial
  have hentry := call_timeout_never_late.1 _ (.isle (.attachCheck false)) _ false h18 trivial
    (.isle (.attachCheckNone (j := false) rfl rfl) trivial) rfl (by decide)
  · exact ⟨_, ⟨rfl, by decide, rfl⟩, rfl, rfl, hentry⟩
  case timers =>
    intro j due hset _
    cases j with
    | true =>
      cases hset
      exact le_rfl
    | false => cases hset
  case late =>
    intro j entry _ _ hlate
    exact absurd hlate (Nat.not_lt.mpr (Nat.le_add_left 10 entry))
  case timers' =>
    intro j due hset hwaiting
    cases j with
    | true => exact absurd hwaiting.unexpired (by decide)
    | false => exact (Option.some.inj hset).le
  case late' =>
    intro j entry _ hentered hlate
    cases j with
    | true => exact ⟨by decide, fun hpending => absurd hpending.state (by decide)⟩
    | false =>
      have hentry : 10 = entry := Option.some.inj hentered
      subst hentry
      exact absurd hlate (lt_irrefl 20)

/-- A synchronous isle with room for one job in its queue. The last of its three jobs has a
deadline. -/
def lastDeadline : TimedConfig (Fin 3) ℕ where
  front := .sync
  cap := 1
  api := fun j => if j = 2 then .callTimeout else .call
  prog := fun _ => .ret (.ok 7)
  timeout := fun _ => 10

/-- A `call_timeout` finds the queue full, waits for capacity past its deadline, and has its closure
entered after that. -/
theorem call_timeout_late : ¬ NeverLate (K := Unit) lastDeadline (fun _ _ => True) := by
  intro h
  have h0 : (clocked (K := Unit) lastDeadline).ReachableVia (fun _ _ => True) _ :=
    TransitionSystem.RunVia.refl _
  -- the first job runs, and the second one fills the queue
  have h1 := h0.tail (.isle (.submit (j := 0) rfl (by decide) rfl) trivial) trivial
  have h2 := h1.tail (.isle (.enqueue (j := 0) rfl rfl) trivial) trivial
  have h3 := h2.tail (.isle (.recvJob (j := 0) rfl rfl) trivial) trivial
  have h4 := h3.tail (.isle (.loadAbort (j := 0) rfl) trivial) trivial
  have h5 := h4.tail (.isle (.queuedCheck (j := 0) rfl) trivial) trivial
  have h6 := h5.tail (.isle (.attachStore (j := 0) rfl) trivial) trivial
  have h7 := h6.tail (.isle (.attachCheckNone (j := 0) rfl rfl) trivial) trivial
  have h8 := h7.tail (.isle (.submit (j := 1) rfl (by decide) rfl) trivial) trivial
  have h9 := h8.tail (.isle (.enqueue (j := 1) rfl rfl) trivial) trivial
  -- the third call is entered at 0, and its deadline is 10
  have h10 := h9.tail (.isle (.submit (j := 2) rfl (by decide) rfl) trivial) trivial
  have h11 := h10.tail (@ClockStep.tick _ Unit _ _ _ lastDeadline _ 11 (by decide)
    (fun j due hset => by cases hset)) trivial
  have h12 := h11.tail (.isle (.closureRet (j := 0) rfl) trivial) trivial
  have h13 := h12.tail (.isle (.detach (j := 0) rfl) trivial) trivial
  have h14 := h13.tail (.isle (.respond (j := 0) rfl) trivial) trivial
  have h15 := h14.tail (.isle (.recvJob (j := 1) rfl rfl) trivial) trivial
  have h16 := h15.tail (.isle (.enqueue (j := 2) rfl rfl) trivial) trivial
  have h17 := h16.tail (.setTimer (j := 2) rfl rfl ⟨rfl, rfl, rfl⟩ rfl) trivial
  have h18 := h17.tail (.isle (.loadAbort (j := 1) rfl) trivial) trivial
  have h19 := h18.tail (.isle (.queuedCheck (j := 1) rfl) trivial) trivial
  have h20 := h19.tail (.isle (.attachStore (j := 1) rfl) trivial) trivial
  have h21 := h20.tail (.isle (.attachCheckNone (j := 1) rfl rfl) trivial) trivial
  have h22 := h21.tail (.isle (.closureRet (j := 1) rfl) trivial) trivial
  have h23 := h22.tail (.isle (.detach (j := 1) rfl) trivial) trivial
  have h24 := h23.tail (.isle (.respond (j := 1) rfl) trivial) trivial
  have h25 := h24.tail (.isle (.recvJob (j := 2) rfl rfl) trivial) trivial
  have h26 := h25.tail (.isle (.loadAbort (j := 2) rfl) trivial) trivial
  have h27 := h26.tail (.isle (.queuedCheck (j := 2) rfl) trivial) trivial
  have h28 := h27.tail (.isle (.attachStore (j := 2) rfl) trivial) trivial
  obtain ⟨entry, hentry, hlate⟩ := h _ _ _ 2 h28 trivial
    (.isle (.attachCheckNone (j := 2) rfl rfl) trivial) rfl (by decide)
  cases hentry
  exact absurd hlate (by decide)

end RusqliteIsle
