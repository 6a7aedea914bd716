import RusqliteIsle.Isle.Call

/-!
# The two `call_timeout`s

`Isle::call_timeout` waits with `recv_timeout`, and after its deadline with `Task::wait`.
`AsyncIsle::call_timeout` polls its task beside a timer, awaits the task after its deadline, and
drops it in the end, which cancels the job. Each is a machine that takes its own steps among those of
the others. Both do the same to the job, and what comes of it is a function of its events.
-/

namespace RusqliteIsle

set_option linter.unusedSectionVars false

/-- Where `Isle::call_timeout` is: `receiving` and `empty` are inside `recv_timeout`, before its look
at the channel and before its look at the clock; the two halves of `token.expire()` follow. -/
inductive SyncPc (V : Type) where
  | start
  | sending
  | receiving
  | empty
  | expiring
  | interrupting
  | waiting
  | returned (r : Except IsleError V)

/-- Where `AsyncIsle::call_timeout` is: `polling` and `pollingTimer` are inside
`tokio::time::timeout`, the two halves of the `cancel` in `Drop for AsyncTask` come last. -/
inductive AsyncPc (V : Type) where
  | start
  | sending
  | polling
  | pollingTimer
  | expiring
  | interrupting
  | awaiting
  | dropping (r : Except IsleError V)
  | dropInterrupting (r : Except IsleError V)
  | returned (r : Except IsleError V)

/-- Whether the timer runs. -/
def SyncPc.isTimed {V : Type} : SyncPc V → Bool
  | receiving => true
  | empty => true
  | _ => false

def AsyncPc.isTimed {V : Type} : AsyncPc V → Bool
  | polling => true
  | pollingTimer => true
  | _ => false

/-- A call in its isle: whether its timer has elapsed, and how often the connection was interrupted
through its token. -/
structure CallState (P J K V : Type) where
  isle : State J K V
  pc : P
  elapsed : Bool
  interrupts : ℕ

/-- A step of a call: its timer elapses, it looks at its channel or its clock and finds nothing, it
or somebody else takes a step of the isle, or its task is dropped. -/
inductive CallLabel (J K V : Type) where
  | elapse
  | look
  | step (l : Label J K V)
  | drop (l : Label J K V)

variable {P Q J K V : Type} [DecidableEq J] [DecidableEq K] {cfg : Config J V}

namespace CallState

/-- The isle has taken the step `l` to `t`. -/
def act (c : CallState P J K V) (j : J) (l : Label J K V) (t : State J K V) (pc : P) :
    CallState P J K V :=
  { c with isle := t, pc := pc, interrupts := c.interrupts + c.isle.issued j l }

@[simp] lemma act_isle (c : CallState P J K V) (j : J) (l : Label J K V) (t : State J K V) (pc : P) :
    (c.act j l t pc).isle = t := rfl

@[simp] lemma act_pc (c : CallState P J K V) (j : J) (l : Label J K V) (t : State J K V) (pc : P) :
    (c.act j l t pc).pc = pc := rfl

@[simp] lemma act_interrupts (c : CallState P J K V) (j : J) (l : Label J K V) (t : State J K V)
    (pc : P) : (c.act j l t pc).interrupts = c.interrupts + c.isle.issued j l := rfl

/-- The events of the job in a step. The drop of the task of the call is not one of them. -/
def shown (j : J) (c : CallState P J K V) : CallLabel J K V → List (JobEvent V)
  | .step l => c.isle.events j l
  | _ => []

def map (f : P → Q) (c : CallState P J K V) : CallState Q J K V :=
  ⟨c.isle, f c.pc, c.elapsed, c.interrupts⟩

end CallState

/-- The steps of `Isle::call_timeout`, for the job `j`. -/
inductive SyncStep (cfg : Config J V) (j : J) :
    CallState (SyncPc V) J K V → CallLabel J K V → CallState (SyncPc V) J K V → Prop
  | other {c : CallState (SyncPc V) J K V} {l : Label J K V} {t : State J K V}
      (hother : l.caller? ≠ some j) (hs : (anyFront cfg).step c.isle l t) :
      SyncStep cfg j c (.step l) (c.act j l t c.pc)
  | elapse {c : CallState (SyncPc V) J K V} (htimed : c.pc.isTimed = true) :
      SyncStep cfg j c .elapse { c with elapsed := true }
  -- `submit_blocking`
  | submit {c : CallState (SyncPc V) J K V} {t : State J K V} (hpc : c.pc = .start)
      (hs : Step { cfg with front := .sync } c.isle (.submit j) t) :
      SyncStep cfg j c (.step (.submit j)) (c.act j (.submit j) t .sending)
  | sent {c : CallState (SyncPc V) J K V} {t : State J K V} (hpc : c.pc = .sending)
      (hs : Step { cfg with front := .sync } c.isle (.enqueue j) t) :
      SyncStep cfg j c (.step (.enqueue j)) (c.act j (.enqueue j) t .receiving)
  | sendError {c : CallState (SyncPc V) J K V} {t : State J K V} (hpc : c.pc = .sending)
      (hs : Step { cfg with front := .sync } c.isle (.refuseClosed j) t) :
      SyncStep cfg j c (.step (.refuseClosed j))
        (c.act j (.refuseClosed j) t (.returned (.error .closed)))
  -- `recv_timeout`: the channel first, then the clock
  | received {c : CallState (SyncPc V) J K V} {t : State J K V} {r : Except IsleError V}
      (hpc : c.pc = .receiving) (hpoll : (c.isle.jobs j).response.poll = .ok r)
      (hs : Step { cfg with front := .sync } c.isle (.observe j) t) :
      SyncStep cfg j c (.step (.observe j)) (c.act j (.observe j) t (.returned r))
  | disconnected {c : CallState (SyncPc V) J K V} {t : State J K V} (hpc : c.pc = .receiving)
      (hpoll : (c.isle.jobs j).response.poll = .error .disconnected)
      (hs : Step { cfg with front := .sync } c.isle (.observe j) t) :
      SyncStep cfg j c (.step (.observe j)) (c.act j (.observe j) t (.returned (.error .closed)))
  | empty {c : CallState (SyncPc V) J K V} (hpc : c.pc = .receiving)
      (hpoll : (c.isle.jobs j).response.poll = .error .empty) :
      SyncStep cfg j c .look { c with pc := .empty }
  | again {c : CallState (SyncPc V) J K V} (hpc : c.pc = .empty) (hclock : c.elapsed = false) :
      SyncStep cfg j c .look { c with pc := .receiving }
  | timeout {c : CallState (SyncPc V) J K V} (hpc : c.pc = .empty) (hclock : c.elapsed = true) :
      SyncStep cfg j c .look { c with pc := .expiring }
  -- `token.expire()`, then `task.wait()`
  | expire {c : CallState (SyncPc V) J K V} {t : State J K V} (hpc : c.pc = .expiring)
      (hs : Step { cfg with front := .sync } c.isle (.deadline j) t) :
      SyncStep cfg j c (.step (.deadline j)) (c.act j (.deadline j) t .interrupting)
  | interrupt {c : CallState (SyncPc V) J K V} {t : State J K V} (hpc : c.pc = .interrupting)
      (hs : Step { cfg with front := .sync } c.isle (.fireInterrupt j) t) :
      SyncStep cfg j c (.step (.fireInterrupt j)) (c.act j (.fireInterrupt j) t .waiting)
  | wait {c : CallState (SyncPc V) J K V} {t : State J K V} {r : Except IsleError V}
      (hpc : c.pc = .waiting) (hwait : (c.isle.jobs j).response.wait = some r)
      (hs : Step { cfg with front := .sync } c.isle (.observe j) t) :
      SyncStep cfg j c (.step (.observe j)) (c.act j (.observe j) t (.returned r))

/-- The steps of `AsyncIsle::call_timeout`, for the job `j`. -/
inductive AsyncStep (cfg : Config J V) (j : J) :
    CallState (AsyncPc V) J K V → CallLabel J K V → CallState (AsyncPc V) J K V → Prop
  | other {a : CallState (AsyncPc V) J K V} {l : Label J K V} {t : State J K V}
      (hother : l.caller? ≠ some j) (hs : (anyFront cfg).step a.isle l t) :
      AsyncStep cfg j a (.step l) (a.act j l t a.pc)
  | elapse {a : CallState (AsyncPc V) J K V} (htimed : a.pc.isTimed = true) :
      AsyncStep cfg j a .elapse { a with elapsed := true }
  -- `self.tx.send(..).await`; its error leaves the function, and drops the task
  | submit {a : CallState (AsyncPc V) J K V} {t : State J K V} (hpc : a.pc = .start)
      (hs : Step { cfg with front := .async } a.isle (.submit j) t) :
      AsyncStep cfg j a (.step (.submit j)) (a.act j (.submit j) t .sending)
  | sent {a : CallState (AsyncPc V) J K V} {t : State J K V} (hpc : a.pc = .sending)
      (hs : Step { cfg with front := .async } a.isle (.enqueue j) t) :
      AsyncStep cfg j a (.step (.enqueue j)) (a.act j (.enqueue j) t .polling)
  | sendError {a : CallState (AsyncPc V) J K V} {t : State J K V} (hpc : a.pc = .sending)
      (hs : Step { cfg with front := .async } a.isle (.refuseClosed j) t) :
      AsyncStep cfg j a (.step (.refuseClosed j))
        (a.act j (.refuseClosed j) t (.dropping (.error .closed)))
  -- `tokio::time::timeout`: the task first, then the timer
  | ready {a : CallState (AsyncPc V) J K V} {t : State J K V} {r : Except IsleError V}
      (hpc : a.pc = .polling) (hpoll : (a.isle.jobs j).response.wait = some r)
      (hs : Step { cfg with front := .async } a.isle (.observe j) t) :
      AsyncStep cfg j a (.step (.observe j)) (a.act j (.observe j) t (.dropping r))
  | pending {a : CallState (AsyncPc V) J K V} (hpc : a.pc = .polling)
      (hpoll : (a.isle.jobs j).response.wait = none) :
      AsyncStep cfg j a .look { a with pc := .pollingTimer }
  | again {a : CallState (AsyncPc V) J K V} (hpc : a.pc = .pollingTimer)
      (hclock : a.elapsed = false) : AsyncStep cfg j a .look { a with pc := .polling }
  | timeout {a : CallState (AsyncPc V) J K V} (hpc : a.pc = .pollingTimer)
      (hclock : a.elapsed = true) : AsyncStep cfg j a .look { a with pc := .expiring }
  -- `task.cancel_token().expire()`, then `task.await`
  | expire {a : CallState (AsyncPc V) J K V} {t : State J K V} (hpc : a.pc = .expiring)
      (hs : Step { cfg with front := .async } a.isle (.deadline j) t) :
      AsyncStep cfg j a (.step (.deadline j)) (a.act j (.deadline j) t .interrupting)
  | interrupt {a : CallState (AsyncPc V) J K V} {t : State J K V} (hpc : a.pc = .interrupting)
      (hs : Step { cfg with front := .async } a.isle (.fireInterrupt j) t) :
      AsyncStep cfg j a (.step (.fireInterrupt j)) (a.act j (.fireInterrupt j) t .awaiting)
  | await {a : CallState (AsyncPc V) J K V} {t : State J K V} {r : Except IsleError V}
      (hpc : a.pc = .awaiting) (hpoll : (a.isle.jobs j).response.wait = some r)
      (hs : Step { cfg with front := .async } a.isle (.observe j) t) :
      AsyncStep cfg j a (.step (.observe j)) (a.act j (.observe j) t (.dropping r))
  -- `Drop for AsyncTask`
  | drop {a : CallState (AsyncPc V) J K V} {t : State J K V} {r : Except IsleError V}
      (hpc : a.pc = .dropping r) (hs : Step { cfg with front := .async } a.isle (.dropTask j) t) :
      AsyncStep cfg j a (.drop (.dropTask j)) (a.act j (.dropTask j) t (.dropInterrupting r))
  | dropInterrupt {a : CallState (AsyncPc V) J K V} {t : State J K V} {r : Except IsleError V}
      (hpc : a.pc = .dropInterrupting r)
      (hs : Step { cfg with front := .async } a.isle (.fireInterrupt j) t) :
      AsyncStep cfg j a (.drop (.fireInterrupt j)) (a.act j (.fireInterrupt j) t (.returned r))

/-- A call of `Isle::call_timeout` with the job `j`. -/
def syncCall (cfg : Config J V) (j : J) :
    TransitionSystem (CallState (SyncPc V) J K V) (CallLabel J K V) where
  init := ⟨(anyFront cfg).init, .start, false, 0⟩
  step := SyncStep cfg j

/-- A call of `AsyncIsle::call_timeout` with the job `j`. -/
def asyncCall (cfg : Config J V) (j : J) :
    TransitionSystem (CallState (AsyncPc V) J K V) (CallLabel J K V) where
  init := ⟨(anyFront cfg).init, .start, false, 0⟩
  step := AsyncStep cfg j

/-! ## One machine inside the other -/

/-- Where the asynchronous call is when the synchronous one is at `pc`. -/
def SyncPc.async : SyncPc V → AsyncPc V
  | start => .start
  | sending => .sending
  | receiving => .polling
  | empty => .pollingTimer
  | expiring => .expiring
  | interrupting => .interrupting
  | waiting => .awaiting
  | returned r => .dropping r

/-- Where the synchronous call is when the asynchronous one is at `pc`: it has no drop. -/
def AsyncPc.sync : AsyncPc V → SyncPc V
  | start => .start
  | sending => .sending
  | polling => .receiving
  | pollingTimer => .empty
  | expiring => .expiring
  | interrupting => .interrupting
  | awaiting => .waiting
  | dropping r => .returned r
  | dropInterrupting r => .returned r
  | returned r => .returned r

/-- Whether the drop of the task has begun. -/
def AsyncPc.isDropped : AsyncPc V → Bool
  | dropInterrupting _ => true
  | returned _ => true
  | _ => false

def CallLabel.isDrop : CallLabel J K V → Bool
  | drop _ => true
  | _ => false

lemma SyncPc.async_isTimed (pc : SyncPc V) : pc.async.isTimed = pc.isTimed := by cases pc <;> rfl

lemma AsyncPc.sync_isTimed (pc : AsyncPc V) : pc.sync.isTimed = pc.isTimed := by cases pc <;> rfl

lemma SyncPc.async_sync (pc : SyncPc V) : pc.async.sync = pc := by cases pc <;> rfl

lemma CallState.map_async_sync (c : CallState (SyncPc V) J K V) :
    (c.map SyncPc.async).map AsyncPc.sync = c := by
  simp only [CallState.map, SyncPc.async_sync]

/-- The actions of the two calls, which the front-ends have in common. -/
def Label.isCall : Label J K V → Bool
  | submit _ | enqueue _ | refuseClosed _ | observe _ | deadline _ | fireInterrupt _ => true
  | _ => false

lemma step_of_isCall {front front' : FrontEnd} {s t : State J K V} {l : Label J K V}
    (hs : Step { cfg with front := front } s l t) (hl : l.isCall = true) :
    Step { cfg with front := front' } s l t := by
  cases hs with
  | submit hsub hhandle hdrop => exact .submit hsub hhandle hdrop
  | enqueue hsub hpush => exact .enqueue hsub hpush
  | refuseClosed hsub hdead => exact .refuseClosed hsub hdead
  | observe hsub hheld hnone hwait => exact .observe hsub hheld hnone hwait
  | deadline hapi hsub hheld hnone hfirst => exact .deadline hapi hsub hheld hnone hfirst
  | fireInterrupt hfiring => exact .fireInterrupt hfiring
  | _ => cases hl

lemma asyncStep_of_syncStep {j : J} {c d : CallState (SyncPc V) J K V} {l : CallLabel J K V}
    (hs : SyncStep cfg j c l d) : AsyncStep cfg j (c.map SyncPc.async) l (d.map SyncPc.async) := by
  have at_pc {pc : SyncPc V} (hpc : c.pc = pc) : (c.map SyncPc.async).pc = pc.async := by
    rw [CallState.map, hpc]
  cases hs with
  | other hother hs => exact .other hother hs
  | elapse htimed => exact .elapse ((SyncPc.async_isTimed _).trans htimed)
  | submit hpc hs => exact .submit (at_pc hpc) (step_of_isCall hs rfl)
  | sent hpc hs => exact .sent (at_pc hpc) (step_of_isCall hs rfl)
  | sendError hpc hs => exact .sendError (at_pc hpc) (step_of_isCall hs rfl)
  | received hpc hpoll hs =>
    exact .ready (at_pc hpc) (Response.wait_of_poll hpoll) (step_of_isCall hs rfl)
  | disconnected hpc hpoll hs =>
    exact .ready (at_pc hpc) (Response.wait_of_disconnected hpoll) (step_of_isCall hs rfl)
  | empty hpc hpoll => exact .pending (at_pc hpc) (Response.wait_of_empty.mpr hpoll)
  | again hpc hclock => exact .again (at_pc hpc) hclock
  | timeout hpc hclock => exact .timeout (at_pc hpc) hclock
  | expire hpc hs => exact .expire (at_pc hpc) (step_of_isCall hs rfl)
  | interrupt hpc hs => exact .interrupt (at_pc hpc) (step_of_isCall hs rfl)
  | wait hpc hwait hs => exact .await (at_pc hpc) hwait (step_of_isCall hs rfl)

/-- The synchronous call does what the asynchronous one does until the drop of its task. -/
lemma syncStep_of_asyncStep {j : J} {a b : CallState (AsyncPc V) J K V} {l : CallLabel J K V}
    (hs : AsyncStep cfg j a l b) (hl : l.isDrop = false) :
    SyncStep cfg j (a.map AsyncPc.sync) l (b.map AsyncPc.sync) := by
  have at_pc {pc : AsyncPc V} (hpc : a.pc = pc) : (a.map AsyncPc.sync).pc = pc.sync := by
    rw [CallState.map, hpc]
  cases hs with
  | other hother hs => exact .other hother hs
  | elapse htimed => exact .elapse ((AsyncPc.sync_isTimed _).trans htimed)
  | submit hpc hs => exact .submit (at_pc hpc) (step_of_isCall hs rfl)
  | sent hpc hs => exact .sent (at_pc hpc) (step_of_isCall hs rfl)
  | sendError hpc hs => exact .sendError (at_pc hpc) (step_of_isCall hs rfl)
  | ready hpc hpoll hs =>
    rcases Response.poll_of_wait hpoll with hok | ⟨hgone, rfl⟩
    · exact .received (at_pc hpc) hok (step_of_isCall hs rfl)
    · exact .disconnected (at_pc hpc) hgone (step_of_isCall hs rfl)
  | pending hpc hpoll => exact .empty (at_pc hpc) (Response.wait_of_empty.mp hpoll)
  | again hpc hclock => exact .again (at_pc hpc) hclock
  | timeout hpc hclock => exact .timeout (at_pc hpc) hclock
  | expire hpc hs => exact .expire (at_pc hpc) (step_of_isCall hs rfl)
  | interrupt hpc hs => exact .interrupt (at_pc hpc) (step_of_isCall hs rfl)
  | await hpc hpoll hs => exact .wait (at_pc hpc) hpoll (step_of_isCall hs rfl)
  | drop | dropInterrupt => cases hl

lemma async_shows {j : J} {events : List (JobEvent V)} {c : CallState (SyncPc V) J K V}
    (h : (syncCall cfg j).Shows (CallState.shown j) events c) :
    (asyncCall cfg j).Shows (CallState.shown j) events (c.map SyncPc.async) := by
  refine TransitionSystem.Shows.map (T := syncCall cfg j) (f := CallState.map SyncPc.async) rfl
    (fun c l d hs => ⟨l, asyncStep_of_syncStep hs, ?_⟩) h
  cases l <;> rfl

/-! ## The job of the call -/

lemma isle_of_asyncStep {j : J} {a b : CallState (AsyncPc V) J K V} {l : CallLabel J K V}
    (hs : AsyncStep cfg j a l b) :
    b.isle = a.isle ∨ ∃ l', (anyFront cfg).step a.isle l' b.isle := by
  cases hs with
  | elapse | pending | again | timeout => exact Or.inl rfl
  | other _ hs => exact Or.inr ⟨_, hs⟩
  | submit _ hs | sent _ hs | sendError _ hs | ready _ _ hs | expire _ hs | interrupt _ hs
  | await _ _ hs | drop _ hs | dropInterrupt _ hs => exact Or.inr ⟨_, .async, hs⟩

lemma sound_of_asyncCall {j : J} {a : CallState (AsyncPc V) J K V}
    (h : (asyncCall cfg j).Reachable a) : Sound a.isle := by
  have hsim : TransitionSystem.Simulation (asyncCall (K := K) cfg j) (anyFront cfg) CallState.isle
      (fun _ => True) (fun _ => True) :=
    ⟨rfl, fun _ _ _ _ _ => trivial, fun _ _ _ _ _ hs => isle_of_asyncStep hs⟩
  exact sound_reachable (hsim.reachable (fun _ _ => trivial) h trivial)

/-- The job of a call that has no result yet. -/
structure OpenCall (job : Job V) (submission : Submission) (expired : Bool) : Prop where
  submission : job.submission = submission
  holder : job.holder = .held
  observed : job.observed = none
  expired : job.expired = expired

/-- What the job of a call looks like where the call is. -/
def AsyncPc.Fits (job : Job V) : AsyncPc V → Prop
  | .start => OpenCall job .unborn false
  | .sending => OpenCall job .sending false
  | .polling | .pollingTimer | .expiring => OpenCall job .accepted false
  | .interrupting => OpenCall job .accepted true ∧ 0 < job.firing
  | .awaiting => OpenCall job .accepted true
  | .dropping r => job.response.wait = some r ∧ job.submission ≠ .unborn ∧
      job.submission ≠ .sending ∧ job.holder = .held
  | .dropInterrupting r => job.response.wait = some r ∧ 0 < job.firing
  | .returned r => job.response.wait = some r

lemma ne_pending_of_wait {p : Response V} {r : Except IsleError V} (h : p.wait = some r) :
    p ≠ .pending := by
  rintro rfl
  cases h

lemma AsyncPc.Fits.congr {job job' : Job V} {pc : AsyncPc V} (hi : pc.Fits job)
    (hjob : job' = { job with token := job'.token, response := job'.response })
    (hfinal : job.response ≠ .pending → job'.response = job.response) : pc.Fits job' := by
  have opened {submission : Submission} {expired : Bool} (h : OpenCall job submission expired) :
      OpenCall job' submission expired := by
    rw [hjob]
    exact ⟨h.submission, h.holder, h.observed, h.expired⟩
  have result {r : Except IsleError V} (h : job.response.wait = some r) :
      job'.response.wait = some r := by
    rwa [hfinal (ne_pending_of_wait h)]
  have hfiring : job'.firing = job.firing := by rw [hjob]
  cases pc with
  | start | sending | polling | pollingTimer | expiring | awaiting => exact opened hi
  | interrupting => exact ⟨opened hi.1, hfiring ▸ hi.2⟩
  | dropping r =>
    refine ⟨result hi.1, ?_⟩
    rw [hjob]
    exact hi.2
  | dropInterrupting r => exact ⟨result hi.1, hfiring ▸ hi.2⟩
  | returned r => exact result hi

lemma AsyncPc.Fits.observed {front : FrontEnd} {expired : Bool} {s t : State J K V} {j : J}
    {r : Except IsleError V} (hopen : OpenCall (s.jobs j) .accepted expired)
    (hwait : (s.jobs j).response.wait = some r)
    (hs : Step { cfg with front := front } s (.observe j) t) :
    (AsyncPc.dropping r).Fits (t.jobs j) := by
  cases hs with
  | observe =>
    exact ⟨by simpa using hwait, by simp [hopen.submission], by simp [hopen.submission],
      by simp [hopen.holder]⟩

lemma fits_step {j : J} {a b : CallState (AsyncPc V) J K V} {l : CallLabel J K V}
    (hsound : Sound a.isle) (hi : a.pc.Fits (a.isle.jobs j)) (hs : AsyncStep cfg j a l b) :
    b.pc.Fits (b.isle.jobs j) := by
  have at_pc {pc : AsyncPc V} (hpc : a.pc = pc) : pc.Fits (a.isle.jobs j) := hpc ▸ hi
  cases hs with
  | other hother hs =>
    obtain ⟨front, hs⟩ := hs
    exact hi.congr (bystander_step hs hother) (final_step (hsound.life j) hs)
  | elapse => exact hi
  | pending hpc | again hpc | timeout hpc =>
    have hopen : OpenCall (a.isle.jobs j) .accepted false := at_pc hpc
    exact hopen
  | submit hpc hs =>
    have hopen : OpenCall (a.isle.jobs j) .unborn false := at_pc hpc
    cases hs with
    | submit =>
      exact ⟨by simp, by simp [hopen.holder], by simp [hopen.observed], by simp [hopen.expired]⟩
  | sent hpc hs =>
    have hopen : OpenCall (a.isle.jobs j) .sending false := at_pc hpc
    cases hs with
    | enqueue =>
      exact ⟨by simp, by simp [hopen.holder], by simp [hopen.observed], by simp [hopen.expired]⟩
  | sendError hpc hs =>
    have hopen : OpenCall (a.isle.jobs j) .sending false := at_pc hpc
    cases hs with
    | refuseClosed =>
      exact ⟨by simp [State.refuse, Response.wait], by simp [State.refuse], by simp [State.refuse],
        by simp [State.refuse, hopen.holder]⟩
  | ready hpc hpoll hs => exact AsyncPc.Fits.observed (at_pc hpc) hpoll hs
  | expire hpc hs =>
    have hopen : OpenCall (a.isle.jobs j) .accepted false := at_pc hpc
    cases hs with
    | deadline =>
      refine ⟨⟨?_, ?_, ?_, ?_⟩, ?_⟩ <;>
        simp [State.beginFire, hopen.submission, hopen.holder, hopen.observed]
  | interrupt hpc hs =>
    have hopen : OpenCall (a.isle.jobs j) .accepted true := (at_pc hpc).1
    cases hs with
    | fireInterrupt =>
      exact ⟨by simp [hopen.submission], by simp [hopen.holder], by simp [hopen.observed],
        by simp [hopen.expired]⟩
  | await hpc hpoll hs => exact AsyncPc.Fits.observed (at_pc hpc) hpoll hs
  | drop hpc hs =>
    have hwait := (at_pc hpc).1
    cases hs with
    | dropAsyncTask => exact ⟨by simpa [State.beginFire] using hwait, by simp [State.beginFire]⟩
    | dropSyncTask hfront => cases hfront
  | dropInterrupt hpc hs =>
    have hwait := (at_pc hpc).1
    cases hs with
    | fireInterrupt => simpa [AsyncPc.Fits] using hwait

lemma fits_reachable {j : J} {a : CallState (AsyncPc V) J K V}
    (h : (asyncCall cfg j).Reachable a) : a.pc.Fits (a.isle.jobs j) :=
  TransitionSystem.ReachableVia.invariant_of (J := fun a => Sound a.isle)
    (I := fun a => a.pc.Fits (a.isle.jobs j)) (fun _ h => sound_of_asyncCall h) ⟨rfl, rfl, rfl, rfl⟩
    (fun _ _ _ hsound hi _ hs => fits_step hsound hi hs) h

/-- The value that a call has got. -/
def AsyncPc.value? : AsyncPc V → Option (Except IsleError V)
  | dropping r => some r
  | dropInterrupting r => some r
  | returned r => some r
  | _ => none

lemma AsyncPc.Fits.wait {job : Job V} {pc : AsyncPc V} {r : Except IsleError V} (hi : pc.Fits job)
    (hvalue : pc.value? = some r) : job.response.wait = some r := by
  cases pc with
  | dropping | dropInterrupting =>
    cases hvalue
    exact hi.1
  | returned =>
    cases hvalue
    exact hi
  | _ => cases hvalue

lemma AsyncPc.value?_of_isDropped {pc : AsyncPc V} (h : pc.isDropped = true) :
    ∃ r, pc.value? = some r := by
  cases pc with
  | dropInterrupting r | returned r => exact ⟨r, rfl⟩
  | _ => cases h

/-! ## The events of the job -/

/-- What comes of the job is what its events make of it; until the drop, that is all that the job
sees. -/
structure Tracks (prog : Closure V) (events : List (JobEvent V))
    (a : CallState (AsyncPc V) J K V) (j : J) : Prop where
  replay : a.pc.isDropped = false → a.isle.replay j a.interrupts = Replay.run prog events
  response : (a.isle.jobs j).response = (Replay.run prog events).response
  invoked : (a.isle.history j).invoked = (Replay.run prog events).invoked
  interrupts : a.interrupts = (Replay.run prog events).interrupts

namespace Tracks

variable {j : J} {events : List (JobEvent V)} {a : CallState (AsyncPc V) J K V} {l : Label J K V}
  {t : State J K V}

lemma of_replay {prog : Closure V}
    (h : a.isle.replay j a.interrupts = Replay.run prog events) : Tracks prog events a j :=
  ⟨fun _ => h, congrArg Replay.response h, congrArg Replay.invoked h, congrArg Replay.interrupts h⟩

lemma act {front : FrontEnd} (hi : Tracks (cfg.prog j) events a j) (ha : a.pc.isDropped = false)
    (hs : Step { cfg with front := front } a.isle l t) (hcancel : l ≠ .cancel j)
    (hdrop : l ≠ .dropTask j) (pc : AsyncPc V) :
    Tracks (cfg.prog j) (events ++ a.isle.events j l) (a.act j l t pc) j := by
  refine of_replay ?_
  rw [Replay.run_append, ← hi.replay ha]
  exact replay_step hs a.interrupts hcancel hdrop

lemma quiet {prog : Closure V} (hi : Tracks prog events a j) (hq : Quiet a.isle l t j)
    {pc : AsyncPc V} (hpc : pc.isDropped = true) : Tracks prog (events ++ []) (a.act j l t pc) j := by
  rw [List.append_nil]
  refine ⟨fun h => ?_, hq.response.trans hi.response, hq.invoked.trans hi.invoked, ?_⟩
  · rw [show pc.isDropped = false from h] at hpc
    cases hpc
  · rw [CallState.act_interrupts, hq.issued, Nat.add_zero]
    exact hi.interrupts

lemma look {prog : Closure V} (hi : Tracks prog events a j) {b : CallState (AsyncPc V) J K V}
    (hisle : b.isle = a.isle) (hinterrupts : b.interrupts = a.interrupts)
    (hpc : b.pc.isDropped = a.pc.isDropped) : Tracks prog (events ++ []) b j := by
  rw [List.append_nil]
  refine ⟨?_, ?_, ?_, ?_⟩
  · rw [hpc, hisle, hinterrupts]
    exact hi.replay
  · rw [hisle]
    exact hi.response
  · rw [hisle]
    exact hi.invoked
  · rw [hinterrupts]
    exact hi.interrupts

end Tracks

lemma tracks_step {j : J} {events : List (JobEvent V)} {a b : CallState (AsyncPc V) J K V}
    {l : CallLabel J K V} (hsound : Sound a.isle) (hfits : a.pc.Fits (a.isle.jobs j))
    (hi : Tracks (cfg.prog j) events a j) (hs : AsyncStep cfg j a l b) :
    Tracks (cfg.prog j) (events ++ a.shown j l) b j := by
  have undropped {pc : AsyncPc V} (hpc : a.pc = pc) (h : pc.isDropped = false) :
      a.pc.isDropped = false := hpc ▸ h
  have final {r : Except IsleError V} (hvalue : a.pc.value? = some r) :
      (a.isle.jobs j).response ≠ .pending := ne_pending_of_wait (hfits.wait hvalue)
  cases hs with
  | @other l _ hother hs =>
    obtain ⟨front, hs⟩ := hs
    cases hdropped : a.pc.isDropped with
    | false =>
      refine hi.act hdropped hs ?_ ?_ _
      · rintro rfl
        exact hother rfl
      · rintro rfl
        exact hother rfl
    | true =>
      obtain ⟨r, hvalue⟩ := AsyncPc.value?_of_isDropped hdropped
      rw [show a.shown j (.step l) = [] from events_of_final hsound hs hother (final hvalue)]
      exact hi.quiet (quiet_of_final hsound hs (final hvalue)) hdropped
  | elapse => exact hi.look rfl rfl rfl
  | pending hpc | again hpc | timeout hpc => exact hi.look rfl rfl (by rw [hpc]; rfl)
  | submit hpc hs | sent hpc hs | sendError hpc hs | ready hpc _ hs | expire hpc hs
  | interrupt hpc hs | await hpc _ hs =>
    exact hi.act (undropped hpc rfl) hs (by simp) (by simp) _
  | drop hpc hs | dropInterrupt hpc hs =>
    exact hi.quiet (quiet_of_final hsound hs (final (by rw [hpc]; rfl))) rfl

lemma tracks_of_shows {j : J} {events : List (JobEvent V)} {a : CallState (AsyncPc V) J K V}
    (h : (asyncCall cfg j).Shows (CallState.shown j) events a) :
    Tracks (cfg.prog j) events a j := by
  refine TransitionSystem.Shows.invariant_of
    (J := fun a => Sound a.isle ∧ a.pc.Fits (a.isle.jobs j))
    (I := fun events a => Tracks (cfg.prog j) events a j)
    (fun a h => ⟨sound_of_asyncCall h, fits_reachable h⟩) (.of_replay rfl) ?_ h
  exact fun _ _ _ _ hJ hi hs => tracks_step hJ.1 hJ.2 hi hs

end RusqliteIsle
