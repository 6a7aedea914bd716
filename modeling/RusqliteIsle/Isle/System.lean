import RusqliteIsle.Lib.Fifo
import RusqliteIsle.Lib.TransitionSystem
import RusqliteIsle.Task
import RusqliteIsle.Thread
import Mathlib.Data.Finset.Card
import Mathlib.Data.Sum.Basic
import Mathlib.Logic.Function.Basic

/-!
# The isle as a transition system

One SQLite thread serves the jobs of any number of callers. The type `J` indexes the
jobs that are ever submitted and `K` the calls of `Isle::shutdown`. A step is one
atomic action of one thread: an atomic load or store, a critical section of the token's
mutex, a channel operation, the start or the end of a statement, or a local computation
of the SQLite thread. Both front-ends share `run_loop` and `make_job`; a configuration
says which of them the isle belongs to.

`borrowers` are the calls that hold a reference to a handle: a handle in use is not dropped.
The fields `history`, `cuts` and `sentAt` record what happened. No step reads them.
-/

namespace RusqliteIsle

set_option linter.unusedSectionVars false

inductive FrontEnd where
  | sync
  | async
  deriving DecidableEq, Repr

/-- The operations that submit a job. -/
inductive Api where
  | call
  | callTimeout
  | tryCall
  | spawnCall
  deriving DecidableEq, Repr

/-- An isle with its front-end, channel capacity, and the closure and operation of each job. -/
structure Config (J V : Type) where
  front : FrontEnd
  cap : ℕ
  api : J → Api
  prog : J → Closure V

/-- Whether the submission of `j` waits for capacity. -/
def Config.waits {J V : Type} (cfg : Config J V) (j : J) : Bool :=
  match cfg.front, cfg.api j with
  | .sync, .tryCall => false
  | .async, .tryCall => false
  | .async, .spawnCall => false
  | _, _ => true

/-- Request sent from handles to the SQLite thread. -/
inductive Request (J : Type) where
  | job (j : J)
  | shutdown
  deriving DecidableEq

/-- Who interrupts the connection: a token, or `shutdown_now`. -/
inductive Source (J : Type) where
  | token (j : J)
  | driver
  deriving DecidableEq

/-- Whose statement an interrupt aborts: a job's, or the health check's. -/
inductive Victim (J : Type) where
  | job (j : J)
  | health
  deriving DecidableEq

/-- How far the submission of a job has come. -/
inductive Submission where
  | unborn
  | sending
  | accepted
  | refused (e : IsleError)
  | abandoned
  deriving DecidableEq, Repr

/-- What became of the `Task` or `AsyncTask` of a job. -/
inductive Holder where
  | held
  | dropped
  | detached
  deriving DecidableEq, Repr

/-- A job as its callers and the SQLite thread share it. `firing` counts the calls of `fire`
between their compare-exchange and their critical section. -/
structure Job (V : Type) where
  submission : Submission
  token : CancelToken
  firing : ℕ
  response : Response V
  expired : Bool
  holder : Holder
  observed : Option (Except IsleError V)

def Job.unborn {V : Type} : Job V := ⟨.unborn, .new, 0, .pending, false, .held, none⟩

/-- What happened to a job: the fires of its token in the order of their compare-exchanges, the
calls of `fire` that returned, its queued-stage checks, the invocations of its closure, how the
closure ended, its statements, what `normalize_error` read, and its responses. -/
structure History (V : Type) where
  fires : List FireReason
  fired : ℕ
  checks : ℕ
  invoked : ℕ
  ended : Option (Caught V)
  started : ℕ
  completed : ℕ
  tokenRead : Option (Option FireReason)
  abortRead : Option Bool
  responses : ℕ

def History.blank {V : Type} : History V := ⟨[], 0, 0, 0, none, 0, 0, none, none, 0⟩

/-- A call of `Isle::shutdown`. -/
inductive ShutdownCall where
  | idle
  | sending
  | locking
  | joining
  | returned
  deriving DecidableEq, Repr

/-- The `AsyncIsleDriver`: `storing` and `interrupting` are inside `shutdown_now`, the sends and
`finish` are shared with `shutdown`. -/
inductive Driver where
  | owned
  | storing
  | interrupting
  | sending
  | awaiting
  | joining
  | returned
  | dropped
  deriving DecidableEq, Repr

/-- Whether the driver's sender is gone. -/
def Driver.released : Driver → Bool
  | .returned => true
  | .dropped => true
  | _ => false

structure State (J K V : Type) where
  chan : Fifo (Request J)
  handles : ℕ
  borrowers : Finset (J ⊕ K)
  dropping : Bool
  join : Bool
  abort : Bool
  conn : Engine (Source J)
  pc : Pc J V
  jobs : J → Job V
  calls : K → ShutdownCall
  driver : Driver
  history : J → History V
  cuts : List (Victim J × Source J)
  sentAt : K → Option ℕ

/-- The actions of the SQLite thread, of the callers, and of the owners of the isle. -/
inductive Label (J K V : Type) where
  | recvJob (j : J)
  | recvShutdown
  | recvDisconnected
  | loadAbort (j : J)
  | discard (j : J)
  | queuedCheck (j : J)
  | attachStore (j : J)
  | attachCheck (j : J)
  | attachInterrupt (j : J)
  | stmtStart (j : J)
  | stmtFinish (j : J) (r : Except RusqliteError V)
  | closureEnd (j : J)
  | detach (j : J)
  | normalizeToken (j : J)
  | normalizeAbort (j : J)
  | respond (j : J)
  | healthStart
  | healthFinish (ok : Bool)
  | signalDone
  | threadFinish
  | submit (j : J)
  | enqueue (j : J)
  | refuseClosed (j : J)
  | refuseFull (j : J)
  | abandon (j : J)
  | observe (j : J)
  | deadline (j : J)
  | cancel (j : J)
  | dropTask (j : J)
  | detachTask (j : J)
  | fireInterrupt (j : J)
  | cloneHandle
  | dropHandle
  | dropIsle
  | dropIsleTx
  | shutCall (k : K)
  | shutSend (k : K)
  | shutLock (k : K)
  | shutJoin (k : K)
  | driverShutdown
  | driverShutdownNow
  | driverStore
  | driverInterrupt
  | driverSend
  | driverDone
  | driverJoin
  | driverDrop

lemma update_field {ι β γ : Type*} [DecidableEq ι] (f : β → γ) (g : ι → β) {i : ι} {v : β}
    (h : f v = f (g i)) (j : ι) : f (Function.update g i v j) = f (g j) := by
  by_cases hj : j = i
  · subst hj
    rw [Function.update_self, h]
  · rw [Function.update_of_ne hj]

section

variable {J K V : Type} [DecidableEq J] [DecidableEq K]

namespace State

/-- The isle right after its thread has opened the connection. -/
def init (cfg : Config J V) : State J K V where
  chan := Fifo.empty cfg.cap
  handles := 1
  borrowers := ∅
  dropping := false
  join := true
  abort := false
  conn := Engine.idle
  pc := .next
  jobs := fun _ => Job.unborn
  calls := fun _ => .idle
  driver := match cfg.front with
    | .sync => .dropped
    | .async => .owned
  history := fun _ => History.blank
  cuts := []
  sentAt := fun _ => none

/-- Whether every sender of the request channel is gone. -/
def sendersGone (s : State J K V) : Bool := s.handles = 0 && s.driver.released

/-- The first half of `fire`: the compare-exchange. -/
def beginFire (s : State J K V) (j : J) (reason : FireReason) : State J K V :=
  { s with
    jobs := Function.update s.jobs j { s.jobs j with
      token := (s.jobs j).token.compareExchange reason
      firing := (s.jobs j).firing + 1 }
    history := Function.update s.history j { s.history j with
      fires := (s.history j).fires ++ [reason] } }

@[simp] lemma beginFire_submission (s : State J K V) (j : J) (reason : FireReason) (i : J) :
    ((s.beginFire j reason).jobs i).submission = (s.jobs i).submission :=
  update_field Job.submission s.jobs (by rfl) i

@[simp] lemma beginFire_response (s : State J K V) (j : J) (reason : FireReason) (i : J) :
    ((s.beginFire j reason).jobs i).response = (s.jobs i).response :=
  update_field Job.response s.jobs (by rfl) i

@[simp] lemma beginFire_handle (s : State J K V) (j : J) (reason : FireReason) (i : J) :
    ((s.beginFire j reason).jobs i).token.handle = (s.jobs i).token.handle :=
  update_field (fun job => job.token.handle) s.jobs
    (by simp) i

/-- The queued jobs are dropped with the receiver, and their response senders with them. -/
def dropQueued (s : State J K V) : J → Job V := fun i =>
  if Request.job i ∈ s.chan.buffer then { s.jobs i with response := .dropped } else s.jobs i

/-- Mark a job's submission as failed; the job is dropped with the message. -/
def refuse (s : State J K V) (j : J) (e : IsleError) : State J K V :=
  { s with
    borrowers := s.borrowers.erase (.inl j)
    jobs := Function.update s.jobs j { s.jobs j with
      submission := .refused e
      response := .dropped
      observed := some (.error e) } }

/-- The closure of `j` is entered. -/
def invoke (s : State J K V) (cfg : Config J V) (j : J) : State J K V :=
  { s with
    pc := .closure j (cfg.prog j)
    history := Function.update s.history j { s.history j with
      invoked := (s.history j).invoked + 1 } }

/-- The statement in progress is aborted by every mark that is set. -/
def cutsOf (s : State J K V) (victim : Victim J) : List (Victim J × Source J) :=
  s.conn.mark.map (victim, ·)

lemma dropQueued_field {γ : Type*} (f : Job V → γ)
    (h : ∀ job : Job V, f { job with response := .dropped } = f job) (s : State J K V) (j : J) :
    f (s.dropQueued j) = f (s.jobs j) := by
  unfold dropQueued
  split
  · exact h _
  · rfl

@[simp] lemma dropQueued_submission (s : State J K V) (j : J) :
    (s.dropQueued j).submission = (s.jobs j).submission :=
  dropQueued_field Job.submission (fun _ => rfl) s j

@[simp] lemma dropQueued_token (s : State J K V) (j : J) :
    (s.dropQueued j).token = (s.jobs j).token :=
  dropQueued_field Job.token (fun _ => rfl) s j

@[simp] lemma dropQueued_firing (s : State J K V) (j : J) :
    (s.dropQueued j).firing = (s.jobs j).firing :=
  dropQueued_field Job.firing (fun _ => rfl) s j

@[simp] lemma dropQueued_expired (s : State J K V) (j : J) :
    (s.dropQueued j).expired = (s.jobs j).expired :=
  dropQueued_field Job.expired (fun _ => rfl) s j

@[simp] lemma dropQueued_holder (s : State J K V) (j : J) :
    (s.dropQueued j).holder = (s.jobs j).holder :=
  dropQueued_field Job.holder (fun _ => rfl) s j

@[simp] lemma dropQueued_observed (s : State J K V) (j : J) :
    (s.dropQueued j).observed = (s.jobs j).observed :=
  dropQueued_field Job.observed (fun _ => rfl) s j

end State

/-- The steps of the isle. -/
inductive Step (cfg : Config J V) : State J K V → Label J K V → State J K V → Prop
  -- `run_loop`
  | recvJob {s : State J K V} {j : J} {ch : Fifo (Request J)} (hpc : s.pc = .next)
      (hpop : s.chan.pop? = some (.job j, ch)) :
      Step cfg s (.recvJob j) { s with chan := ch, pc := .loadAbort j }
  | recvShutdown {s : State J K V} {ch : Fifo (Request J)} (hpc : s.pc = .next)
      (hpop : s.chan.pop? = some (.shutdown, ch)) :
      Step cfg s .recvShutdown { s with chan := ch, pc := .exited .shutdown }
  | recvDisconnected {s : State J K V} (hpc : s.pc = .next) (hempty : s.chan.buffer = [])
      (hgone : s.sendersGone = true) :
      Step cfg s .recvDisconnected { s with pc := .exited .disconnected }
  | loadAbort {s : State J K V} {j : J} (hpc : s.pc = .loadAbort j) :
      Step cfg s (.loadAbort j)
        { s with pc := if s.abort then .discard j else .queuedCheck j }
  | discard {s : State J K V} {j : J} (hpc : s.pc = .discard j) :
      Step cfg s (.discard j)
        { s with
          pc := .next
          jobs := Function.update s.jobs j { s.jobs j with response := .dropped } }
  -- `make_job`
  | queuedCheck {s : State J K V} {j : J} (hpc : s.pc = .queuedCheck j) :
      Step cfg s (.queuedCheck j)
        { s with
          pc := match (s.jobs j).token.fired with
            | some err => .respond j (.error err) .completed
            | none => .attachStore j
          history := Function.update s.history j { s.history j with
            checks := (s.history j).checks + 1 } }
  | attachStore {s : State J K V} {j : J} (hpc : s.pc = .attachStore j) :
      Step cfg s (.attachStore j)
        { s with
          pc := .attachCheck j
          jobs := Function.update s.jobs j { s.jobs j with
            token := (s.jobs j).token.attach () } }
  | attachCheckNone {s : State J K V} {j : J} (hpc : s.pc = .attachCheck j)
      (hstate : (s.jobs j).token.state = none) :
      Step cfg s (.attachCheck j) (s.invoke cfg j)
  | attachCheckFired {s : State J K V} {j : J} (hpc : s.pc = .attachCheck j)
      (hstate : (s.jobs j).token.state ≠ none) :
      Step cfg s (.attachCheck j) { s with pc := .attachInterrupt j }
  | attachInterrupt {s : State J K V} {j : J} (hpc : s.pc = .attachInterrupt j) :
      Step cfg s (.attachInterrupt j)
        { s.invoke cfg j with conn := (s.jobs j).token.interruptVia (.token j) s.conn }
  | stmtStart {s : State J K V} {j : J} {sql : String} {c : Closure V}
      (hpc : s.pc = .closure j (.start sql c)) :
      Step cfg s (.stmtStart j)
        { s with
          pc := .closure j c
          conn := s.conn.start
          history := Function.update s.history j { s.history j with
            started := (s.history j).started + 1 } }
  | stmtComplete {s : State J K V} {j : J} {v : V} {k : Except RusqliteError V → Closure V}
      (hpc : s.pc = .closure j (.finish k)) (hmark : s.conn.marked = false) :
      Step cfg s (.stmtFinish j (.ok v))
        { s with
          pc := .closure j (k (.ok v))
          conn := s.conn.finish
          history := Function.update s.history j { s.history j with
            completed := (s.history j).completed + 1 } }
  | stmtFail {s : State J K V} {j : J} {e : RusqliteError} {k : Except RusqliteError V → Closure V}
      (hpc : s.pc = .closure j (.finish k)) (hmark : s.conn.marked = false) :
      Step cfg s (.stmtFinish j (.error e))
        { s with pc := .closure j (k (.error e)), conn := s.conn.finish }
  | stmtAbort {s : State J K V} {j : J} {k : Except RusqliteError V → Closure V}
      (hpc : s.pc = .closure j (.finish k)) (hmark : s.conn.marked = true) :
      Step cfg s (.stmtFinish j (.error interruptError))
        { s with
          pc := .closure j (k (.error interruptError))
          conn := s.conn.finish
          cuts := s.cutsOf (.job j) ++ s.cuts }
  | closureRet {s : State J K V} {j : J} {r : Except RusqliteError V}
      (hpc : s.pc = .closure j (.ret r)) :
      Step cfg s (.closureEnd j)
        { s with
          pc := .detach j (.returned r)
          history := Function.update s.history j { s.history j with ended := some (.returned r) } }
  | closurePanic {s : State J K V} {j : J} {payload : PanicPayload}
      (hpc : s.pc = .closure j (.panic payload)) :
      Step cfg s (.closureEnd j)
        { s with
          pc := .detach j (.panicked payload)
          history := Function.update s.history j { s.history j with
            ended := some (.panicked payload) } }
  | detach {s : State J K V} {j : J} {result : Caught V} (hpc : s.pc = .detach j result) :
      Step cfg s (.detach j)
        { s with
          pc := Pc.afterDetach j result
          jobs := Function.update s.jobs j { s.jobs j with token := (s.jobs j).token.detach } }
  -- `normalize_error`, on an error that is `SQLITE_INTERRUPT`
  | normalizeToken {s : State J K V} {j : J} {e : RusqliteError}
      (hpc : s.pc = .normalizeToken j e) :
      Step cfg s (.normalizeToken j)
        { s with
          pc := match (s.jobs j).token.fired with
            | some err => .respond j (.error err) .completed
            | none => .normalizeAbort j e
          history := Function.update s.history j { s.history j with
            tokenRead := some (s.jobs j).token.state } }
  | normalizeAbort {s : State J K V} {j : J} {e : RusqliteError}
      (hpc : s.pc = .normalizeAbort j e) :
      Step cfg s (.normalizeAbort j)
        { s with
          pc := .respond j (.error (if s.abort then .closed else .sqlite e)) .completed
          history := Function.update s.history j { s.history j with
            abortRead := some s.abort } }
  | respond {s : State J K V} {j : J} {r : Except IsleError V} {outcome : JobOutcome}
      (hpc : s.pc = .respond j r outcome) :
      Step cfg s (.respond j)
        { s with
          pc := Pc.afterJob outcome
          jobs := Function.update s.jobs j { s.jobs j with response := .answered r }
          history := Function.update s.history j { s.history j with
            responses := (s.history j).responses + 1 } }
  -- the health check `SELECT 1`
  | healthStart {s : State J K V} (hpc : s.pc = .healthStart) :
      Step cfg s .healthStart { s with pc := .healthFinish, conn := s.conn.start }
  | healthPass {s : State J K V} (hpc : s.pc = .healthFinish) (hmark : s.conn.marked = false) :
      Step cfg s (.healthFinish true) { s with pc := .next, conn := s.conn.finish }
  | healthFail {s : State J K V} (hpc : s.pc = .healthFinish) :
      Step cfg s (.healthFinish false)
        { s with
          pc := .exited .unhealthy
          conn := s.conn.finish
          cuts := s.cutsOf .health ++ s.cuts }
  -- the end of the thread: `done_tx.send(())` of the async front-end, then the receiver
  | signalDone {s : State J K V} {why : Exit} (hfront : cfg.front = .async)
      (hpc : s.pc = .exited why) :
      Step cfg s .signalDone { s with pc := .signalled why }
  | threadFinish {s : State J K V} {why : Exit}
      (hpc : cfg.front = .sync ∧ s.pc = .exited why ∨ s.pc = .signalled why) :
      Step cfg s .threadFinish
        { s with pc := .finished why, chan := s.chan.close, jobs := s.dropQueued }
  -- submissions
  | submit {s : State J K V} {j : J} (hsub : (s.jobs j).submission = .unborn)
      (hhandle : 0 < s.handles) (hdrop : s.dropping = false) :
      Step cfg s (.submit j)
        { s with
          borrowers := insert (.inl j) s.borrowers
          jobs := Function.update s.jobs j { s.jobs j with submission := .sending } }
  | enqueue {s : State J K V} {j : J} {ch : Fifo (Request J)}
      (hsub : (s.jobs j).submission = .sending)
      (hpush : s.chan.push? s.pc.isReceiving (.job j) = some ch) :
      Step cfg s (.enqueue j)
        { s with
          chan := ch
          borrowers := s.borrowers.erase (.inl j)
          jobs := Function.update s.jobs j { s.jobs j with submission := .accepted } }
  | refuseClosed {s : State J K V} {j : J} (hsub : (s.jobs j).submission = .sending)
      (hdead : s.chan.alive = false) :
      Step cfg s (.refuseClosed j) (s.refuse j .closed)
  | refuseFull {s : State J K V} {j : J} (hsub : (s.jobs j).submission = .sending)
      (hwaits : cfg.waits j = false) (halive : s.chan.alive = true)
      (hfull : s.chan.hasRoom s.pc.isReceiving = false ∨ cfg.front = .async ∧
        (1 < s.borrowers.card ∨ s.driver = .sending)) :
      Step cfg s (.refuseFull j) (s.refuse j .queueFull)
  | abandon {s : State J K V} {j : J} (hfront : cfg.front = .async)
      (hsub : (s.jobs j).submission = .sending) (hwaits : cfg.waits j = true) :
      Step cfg s (.abandon j)
        { s with
          borrowers := s.borrowers.erase (.inl j)
          jobs := Function.update s.jobs j { s.jobs j with
            submission := .abandoned
            response := .dropped } }
  -- callers waiting for the result
  | observe {s : State J K V} {j : J} {r : Except IsleError V}
      (hsub : (s.jobs j).submission = .accepted) (hheld : (s.jobs j).holder = .held)
      (hnone : (s.jobs j).observed = none) (hwait : (s.jobs j).response.wait = some r) :
      Step cfg s (.observe j)
        { s with jobs := Function.update s.jobs j { s.jobs j with observed := some r } }
  | deadline {s : State J K V} {j : J} (hapi : cfg.api j = .callTimeout)
      (hsub : (s.jobs j).submission = .accepted) (hheld : (s.jobs j).holder = .held)
      (hnone : (s.jobs j).observed = none) (hfirst : (s.jobs j).expired = false) :
      Step cfg s (.deadline j)
        (State.beginFire
          { s with jobs := Function.update s.jobs j { s.jobs j with expired := true } } j .timeout)
  -- also for jobs of `call` and `call_timeout`, whose token nobody outside has: more than the source
  | cancel {s : State J K V} {j : J} (hborn : (s.jobs j).submission ≠ .unborn) :
      Step cfg s (.cancel j) (s.beginFire j .cancelled)
  | dropAsyncTask {s : State J K V} {j : J} (hfront : cfg.front = .async)
      (hborn : (s.jobs j).submission ≠ .unborn) (hsent : (s.jobs j).submission ≠ .sending)
      (hheld : (s.jobs j).holder = .held) :
      Step cfg s (.dropTask j)
        (State.beginFire
          { s with jobs := Function.update s.jobs j { s.jobs j with holder := .dropped } }
          j .cancelled)
  | dropSyncTask {s : State J K V} {j : J} (hfront : cfg.front = .sync)
      (hsub : (s.jobs j).submission = .accepted) (hheld : (s.jobs j).holder = .held) :
      Step cfg s (.dropTask j)
        { s with jobs := Function.update s.jobs j { s.jobs j with holder := .dropped } }
  | detachTask {s : State J K V} {j : J} (hfront : cfg.front = .async)
      (hsub : (s.jobs j).submission = .accepted) (hheld : (s.jobs j).holder = .held) :
      Step cfg s (.detachTask j)
        { s with jobs := Function.update s.jobs j { s.jobs j with holder := .detached } }
  -- the second half of `fire`: the critical section, and the return
  | fireInterrupt {s : State J K V} {j : J} (hfiring : 0 < (s.jobs j).firing) :
      Step cfg s (.fireInterrupt j)
        { s with
          conn := (s.jobs j).token.interruptVia (.token j) s.conn
          jobs := Function.update s.jobs j { s.jobs j with firing := (s.jobs j).firing - 1 }
          history := Function.update s.history j { s.history j with
            fired := (s.history j).fired + 1 } }
  -- handles; the drop of an `Isle` first tries to send a `Shutdown`
  | cloneHandle {s : State J K V} (hfront : cfg.front = .async) (hhandle : 0 < s.handles) :
      Step cfg s .cloneHandle { s with handles := s.handles + 1 }
  | dropHandle {s : State J K V} (hfront : cfg.front = .async) (hhandle : 0 < s.handles)
      (hborrow : s.borrowers = ∅ ∨ 2 ≤ s.handles) :
      Step cfg s .dropHandle { s with handles := s.handles - 1 }
  | dropIsleSent {s : State J K V} {ch : Fifo (Request J)} (hfront : cfg.front = .sync)
      (hhandle : 0 < s.handles) (hborrow : s.borrowers = ∅) (hdrop : s.dropping = false)
      (hpush : s.chan.push? s.pc.isReceiving .shutdown = some ch) :
      Step cfg s .dropIsle { s with dropping := true, chan := ch }
  | dropIsleFull {s : State J K V} (hfront : cfg.front = .sync) (hhandle : 0 < s.handles)
      (hborrow : s.borrowers = ∅) (hdrop : s.dropping = false)
      (hpush : s.chan.push? s.pc.isReceiving .shutdown = none) :
      Step cfg s .dropIsle { s with dropping := true }
  | dropIsleTx {s : State J K V} (hfront : cfg.front = .sync) (hdrop : s.dropping = true) :
      Step cfg s .dropIsleTx { s with handles := 0 }
  -- `Isle::shutdown`
  | shutCall {s : State J K V} {k : K} (hfront : cfg.front = .sync) (hcall : s.calls k = .idle)
      (hhandle : 0 < s.handles) (hdrop : s.dropping = false) :
      Step cfg s (.shutCall k)
        { s with
          borrowers := insert (.inr k) s.borrowers
          calls := Function.update s.calls k .sending }
  | shutSend {s : State J K V} {k : K} {ch : Fifo (Request J)} (hcall : s.calls k = .sending)
      (hpush : s.chan.push? s.pc.isReceiving .shutdown = some ch) :
      Step cfg s (.shutSend k)
        { s with
          chan := ch
          calls := Function.update s.calls k .locking
          sentAt := Function.update s.sentAt k (some s.chan.sent.length) }
  | shutSendClosed {s : State J K V} {k : K} (hcall : s.calls k = .sending)
      (hdead : s.chan.alive = false) :
      Step cfg s (.shutSend k) { s with calls := Function.update s.calls k .locking }
  | shutTake {s : State J K V} {k : K} (hcall : s.calls k = .locking) (hjoin : s.join = true) :
      Step cfg s (.shutLock k)
        { s with join := false, calls := Function.update s.calls k .joining }
  | shutSkip {s : State J K V} {k : K} (hcall : s.calls k = .locking) (hjoin : s.join = false) :
      Step cfg s (.shutLock k)
        { s with
          borrowers := s.borrowers.erase (.inr k)
          calls := Function.update s.calls k .returned }
  | shutJoin {s : State J K V} {k : K} (hcall : s.calls k = .joining)
      (hfin : s.pc.isFinished = true) :
      Step cfg s (.shutJoin k)
        { s with
          borrowers := s.borrowers.erase (.inr k)
          calls := Function.update s.calls k .returned }
  -- `AsyncIsleDriver`
  | driverShutdown {s : State J K V} (hdriver : s.driver = .owned) :
      Step cfg s .driverShutdown { s with driver := .sending }
  | driverShutdownNow {s : State J K V} (hdriver : s.driver = .owned) :
      Step cfg s .driverShutdownNow { s with driver := .storing }
  | driverStore {s : State J K V} (hdriver : s.driver = .storing) :
      Step cfg s .driverStore { s with driver := .interrupting, abort := true }
  | driverInterrupt {s : State J K V} (hdriver : s.driver = .interrupting) :
      Step cfg s .driverInterrupt
        { s with driver := .sending, conn := s.conn.interrupt .driver }
  | driverSend {s : State J K V} {ch : Fifo (Request J)} (hdriver : s.driver = .sending)
      (hpush : s.chan.push? s.pc.isReceiving .shutdown = some ch) :
      Step cfg s .driverSend { s with driver := .awaiting, chan := ch }
  | driverSendClosed {s : State J K V} (hdriver : s.driver = .sending)
      (hdead : s.chan.alive = false) :
      Step cfg s .driverSend { s with driver := .awaiting }
  | driverDone {s : State J K V} {why : Exit} (hdriver : s.driver = .awaiting)
      (hdone : s.pc = .signalled why ∨ s.pc = .finished why) :
      Step cfg s .driverDone { s with driver := .joining }
  | driverJoin {s : State J K V} (hdriver : s.driver = .joining) (hfin : s.pc.isFinished = true) :
      Step cfg s .driverJoin { s with driver := .returned }
  | driverDrop {s : State J K V}
      (hdriver : s.driver = .owned ∨ s.driver = .sending ∨ s.driver = .awaiting) :
      Step cfg s .driverDrop { s with driver := .dropped }

/-- The isle of a configuration. -/
def isle (cfg : Config J V) : TransitionSystem (State J K V) (Label J K V) where
  init := State.init cfg
  step := Step cfg

end

end RusqliteIsle
