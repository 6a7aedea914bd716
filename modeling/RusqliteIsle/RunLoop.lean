import RusqliteIsle.Isle.System
import Mathlib.Data.List.Chain

/-!
# The loop as a function of its requests

The SQLite thread as `run_loop`, `make_job` and `normalize_error` are written: a recursion over the
requests that `next` returns. A closure changes the connection and ends in a result or a panic.
What other threads decide, the thread reads: the token, the abort flag, and the answer of the
health check. The reference is a fold over the same requests that keeps accounts, and the loop has
the same accounts.
-/

namespace RusqliteIsle

/-- A job as the loop meets it: the user closure under `catch_unwind`; what `token.fired()` returns
in the queued-stage check and in `normalize_error`; what the abort flag is when `run_loop` and when
`normalize_error` load it; and what `SELECT 1` would answer after it. -/
structure Work (J σ V : Type) where
  id : J
  f : σ → Caught V × σ
  fired : Option FireReason
  firedAfter : Option FireReason
  abort : Bool
  abortAfter : Bool
  healthy : σ → Bool

/-- What the thread does with a job: it drops it without an answer, or it attaches the interrupt
handle, invokes the closure, detaches, and sends the response. `health` is the `SELECT 1`. -/
inductive Event (J V : Type) where
  | drop (j : J)
  | attach (j : J)
  | invoke (j : J)
  | detach (j : J)
  | respond (j : J) (r : Except IsleError V)
  | health (ok : Bool)

section

variable {J σ V : Type}

/-- `normalize_error`. -/
def normalizeError (w : Work J σ V) (e : RusqliteError) : IsleError :=
  if IsleError.isInterrupt e then
    match w.firedAfter with
    | some reason => reason.error
    | none => if w.abortAfter then .closed else .sqlite e
  else .sqlite e

/-- What the wrapper does when it invokes the closure and responds with `r`. -/
def ranEvents (w : Work J σ V) (r : Except IsleError V) : List (Event J V) :=
  [.attach w.id, .invoke w.id, .detach w.id, .respond w.id r]

/-- The wrapper that `make_job` builds. -/
def makeJob (w : Work J σ V) (conn : σ) : JobOutcome × σ × List (Event J V) :=
  match w.fired with
  | some reason => (.completed, conn, [.respond w.id (.error reason.error)])
  | none =>
    let (result, conn) := w.f conn
    match result with
    | .returned (.ok v) => (.completed, conn, ranEvents w (.ok v))
    | .returned (.error e) => (.completed, conn, ranEvents w (.error (normalizeError w e)))
    | .panicked payload =>
      (.panicked, conn, ranEvents w (.error (.panicked (panicMessage payload))))

/-- The response to a closure that ended so. -/
def answer (w : Work J σ V) : Caught V → Except IsleError V
  | .returned (.ok v) => .ok v
  | .returned (.error e) => .error (normalizeError w e)
  | .panicked payload => .error (.panicked (panicMessage payload))

/-- What the loop is told of a closure that ended so. -/
def Caught.outcome : Caught V → JobOutcome
  | returned _ => .completed
  | panicked _ => .panicked

lemma makeJob_skip {w : Work J σ V} {reason : FireReason} (hfired : w.fired = some reason)
    (conn : σ) : makeJob w conn = (.completed, conn, [.respond w.id (.error reason.error)]) := by
  simp [makeJob, hfired]

lemma makeJob_ran {w : Work J σ V} {conn conn' : σ} {result : Caught V} (hfired : w.fired = none)
    (hf : w.f conn = (result, conn')) :
    makeJob w conn = (result.outcome, conn', ranEvents w (answer w result)) := by
  cases result with
  | returned result => cases result <;> simp [makeJob, hfired, hf, answer, Caught.outcome]
  | panicked payload => simp [makeJob, hfired, hf, answer, Caught.outcome]

/-- A run of the loop: what the thread did, the connection it leaves, and why the loop returned,
if it did. -/
structure LoopRun (J σ V : Type) where
  trace : List (Event J V)
  conn : σ
  exit : Option Exit

def LoopRun.after (r : LoopRun J σ V) (events : List (Event J V)) : LoopRun J σ V :=
  { r with trace := events ++ r.trace }

/-- `run_loop` on the requests that `next` returns, after which `next` blocks, or returns `None`
if the channel is disconnected. -/
def runLoop (disconnected : Bool) : List (Request (Work J σ V)) → σ → LoopRun J σ V
  | [], conn => ⟨[], conn, if disconnected then some .disconnected else none⟩
  | .shutdown :: _, conn => ⟨[], conn, some .shutdown⟩
  | .job w :: rest, conn =>
    if w.abort then (runLoop disconnected rest conn).after [.drop w.id]
    else match makeJob w conn with
      | (.completed, conn, events) => (runLoop disconnected rest conn).after events
      | (.panicked, conn, events) =>
        if w.healthy conn then (runLoop disconnected rest conn).after (events ++ [.health true])
        else ⟨events ++ [.health false], conn, some .unhealthy⟩

section

variable {disconnected : Bool} {w : Work J σ V} {rest : List (Request (Work J σ V))}
  {conn conn' : σ}

lemma runLoop_discard (habort : w.abort = true) :
    runLoop disconnected (.job w :: rest) conn =
      (runLoop disconnected rest conn).after [.drop w.id] := by
  simp [runLoop, habort]

lemma runLoop_completed (habort : w.abort = false) {events : List (Event J V)}
    (hmake : makeJob w conn = (.completed, conn', events)) :
    runLoop disconnected (.job w :: rest) conn = (runLoop disconnected rest conn').after events := by
  simp [runLoop, habort, hmake]

lemma runLoop_panicked (habort : w.abort = false) {events : List (Event J V)}
    (hmake : makeJob w conn = (.panicked, conn', events)) :
    runLoop disconnected (.job w :: rest) conn =
      if w.healthy conn' then (runLoop disconnected rest conn').after (events ++ [.health true])
      else ⟨events ++ [.health false], conn', some .unhealthy⟩ := by
  simp [runLoop, habort, hmake]

lemma runLoop_skip (habort : w.abort = false) {reason : FireReason}
    (hfired : w.fired = some reason) : runLoop disconnected (.job w :: rest) conn =
      (runLoop disconnected rest conn).after [.respond w.id (.error reason.error)] :=
  runLoop_completed habort (makeJob_skip hfired conn)

lemma runLoop_return (habort : w.abort = false) (hfired : w.fired = none)
    {result : Except RusqliteError V} (hf : w.f conn = (.returned result, conn')) :
    runLoop disconnected (.job w :: rest) conn =
      (runLoop disconnected rest conn').after (ranEvents w (answer w (.returned result))) :=
  runLoop_completed habort (makeJob_ran hfired hf)

lemma runLoop_recover (habort : w.abort = false) (hfired : w.fired = none) {payload : PanicPayload}
    (hf : w.f conn = (.panicked payload, conn')) (hhealth : w.healthy conn' = true) :
    runLoop disconnected (.job w :: rest) conn = (runLoop disconnected rest conn').after
      (ranEvents w (answer w (.panicked payload)) ++ [.health true]) := by
  rw [runLoop_panicked habort (makeJob_ran hfired hf), if_pos hhealth]

lemma runLoop_unhealthy (habort : w.abort = false) (hfired : w.fired = none)
    {payload : PanicPayload} (hf : w.f conn = (.panicked payload, conn'))
    (hhealth : w.healthy conn' = false) : runLoop disconnected (.job w :: rest) conn =
      ⟨ranEvents w (answer w (.panicked payload)) ++ [.health false], conn', some .unhealthy⟩ := by
  rw [runLoop_panicked habort (makeJob_ran hfired hf), hhealth]
  rfl

/-- How the loop handles a job: it discards it, skips it, runs it, runs it and recovers from its
panic, or stops after its panic. -/
inductive Handles (w : Work J σ V) (conn : σ) : Prop
  | discard (habort : w.abort = true)
  | skip (habort : w.abort = false) (reason : FireReason) (hfired : w.fired = some reason)
  | finish (habort : w.abort = false) (hfired : w.fired = none)
      (result : Except RusqliteError V) (conn' : σ) (hf : w.f conn = (.returned result, conn'))
  | recover (habort : w.abort = false) (hfired : w.fired = none)
      (payload : PanicPayload) (conn' : σ) (hf : w.f conn = (.panicked payload, conn'))
      (hhealth : w.healthy conn' = true)
  | stop (habort : w.abort = false) (hfired : w.fired = none)
      (payload : PanicPayload) (conn' : σ) (hf : w.f conn = (.panicked payload, conn'))
      (hhealth : w.healthy conn' = false)

lemma handles (w : Work J σ V) (conn : σ) : Handles w conn := by
  cases habort : w.abort with
  | true => exact .discard habort
  | false =>
    cases hfired : w.fired with
    | some reason => exact .skip habort reason hfired
    | none =>
      rcases hf : w.f conn with ⟨result, conn'⟩
      cases result with
      | returned result => exact .finish habort hfired result conn' hf
      | panicked payload =>
        cases hhealth : w.healthy conn' with
        | true => exact .recover habort hfired payload conn' hf hhealth
        | false => exact .stop habort hfired payload conn' hf hhealth

end

lemma LoopRun.after_eq {run : LoopRun J σ V} {events shown : List (Event J V)} {conn : σ}
    (h : run.after events = ⟨shown, conn, none⟩) :
    ∃ later, run = ⟨later, conn, none⟩ ∧ shown = events ++ later := by
  obtain ⟨later, conn', exit⟩ := run
  cases h
  exact ⟨later, rfl, rfl⟩

lemma runLoop_append {requests : List (Request (Work J σ V))} {conn conn' : σ}
    {shown : List (Event J V)} (h : runLoop false requests conn = ⟨shown, conn', none⟩)
    (disconnected : Bool) (rest : List (Request (Work J σ V))) :
    runLoop disconnected (requests ++ rest) conn =
      (runLoop disconnected rest conn').after shown := by
  induction requests generalizing conn shown with
  | nil =>
    cases h
    rfl
  | cons r requests ih =>
    cases r with
    | shutdown => cases h
    | job w =>
      -- the loop goes on with the connection `conn''` after `events`
      have goes_on {events : List (Event J V)} {conn'' : σ}
          (hloop : ∀ d more, runLoop d (.job w :: more) conn =
            (runLoop d more conn'').after events) :
          runLoop disconnected (.job w :: requests ++ rest) conn =
            (runLoop disconnected rest conn').after shown := by
        rw [hloop] at h
        obtain ⟨later, hlater, rfl⟩ := LoopRun.after_eq h
        rw [List.cons_append, hloop, ih hlater]
        simp only [LoopRun.after, List.append_assoc]
      cases handles w conn with
      | discard habort => exact goes_on fun _ _ => runLoop_discard habort
      | skip habort reason hfired => exact goes_on fun _ _ => runLoop_skip habort hfired
      | finish habort hfired result conn'' hf =>
        exact goes_on fun _ _ => runLoop_return habort hfired hf
      | recover habort hfired payload conn'' hf hhealth =>
        exact goes_on fun _ _ => runLoop_recover habort hfired hf hhealth
      | stop habort hfired payload conn'' hf hhealth =>
        rw [runLoop_unhealthy habort hfired hf hhealth] at h
        cases h

/-! ## The reference -/

/-- The accounts of a run: the closures invoked, the responses sent, the health checks, the jobs
discarded, the connection, and why the loop has stopped. -/
structure Account (J σ V : Type) where
  invoked : List J
  responses : List (J × Except IsleError V)
  checks : List Bool
  discarded : List J
  conn : σ
  exit : Option Exit

/-- The accounts so far, and whether the abort flag has been seen. -/
structure Ledger (J σ V : Type) extends Account J σ V where
  aborting : Bool

namespace Ledger

def start (conn : σ) : Ledger J σ V := ⟨⟨[], [], [], [], conn, none⟩, false⟩

/-- The response to a closure that ended so. `SQLITE_INTERRUPT` is answered with the reason that the
token has by then; without a reason it is `Closed` if the abort flag is set, or passed on like every
other error. -/
def response (w : Work J σ V) : Caught V → Except IsleError V
  | .returned (.ok v) => .ok v
  | .returned (.error (.sqliteFailure .operationInterrupted message)) =>
    match w.firedAfter, w.abortAfter with
    | some .cancelled, _ => .error .cancelled
    | some .timeout, _ => .error .timeout
    | none, true => .error .closed
    | none, false => .error (.sqlite (.sqliteFailure .operationInterrupted message))
  | .returned (.error e) => .error (.sqlite e)
  | .panicked (.str message) => .error (.panicked message)
  | .panicked (.string message) => .error (.panicked message)
  | .panicked .other => .error (.panicked "unknown panic payload")

/-- The closure of `w` is invoked; if it panics, the health check follows. -/
def invoke (l : Ledger J σ V) (w : Work J σ V) : Ledger J σ V :=
  let (result, conn) := w.f l.conn
  let ran : Ledger J σ V :=
    { l with
      invoked := l.invoked ++ [w.id]
      responses := l.responses ++ [(w.id, response w result)]
      conn := conn }
  match result with
  | .returned _ => ran
  | .panicked _ =>
    { ran with
      checks := l.checks ++ [w.healthy conn]
      exit := if w.healthy conn then none else some .unhealthy }

/-- The next request. A ledger that has been closed stays as it is, one that has seen the abort
flag discards every job, and a job whose token has fired is answered with the reason. -/
def step (l : Ledger J σ V) : Request (Work J σ V) → Ledger J σ V
  | .shutdown => if l.exit.isSome then l else { l with exit := some .shutdown }
  | .job w =>
    if l.exit.isSome then l
    else if l.aborting || w.abort then
      { l with aborting := true, discarded := l.discarded ++ [w.id] }
    else match w.fired with
      | some reason => { l with responses := l.responses ++ [(w.id, .error reason.error)] }
      | none => l.invoke w

/-- The end of the requests. -/
def close (disconnected : Bool) (l : Ledger J σ V) : Ledger J σ V :=
  if disconnected && l.exit.isNone then { l with exit := some .disconnected } else l

end Ledger

/-- The reference: the requests are entered in the ledger one after the other. -/
def reference (disconnected : Bool) (requests : List (Request (Work J σ V))) (conn : σ) :
    Account J σ V :=
  ((requests.foldl Ledger.step (Ledger.start conn)).close disconnected).toAccount

/-- The abort flag is never cleared. -/
def Sticky (requests : List (Request (Work J σ V))) : Prop :=
  requests.Pairwise fun a b =>
    ∀ w w', a = .job w → b = .job w' → w.abort = true → w'.abort = true

/-- The requests that the loop is given, and whether the channel is disconnected after them. -/
structure Script (J σ V : Type) where
  requests : List (Request (Work J σ V))
  disconnected : Bool
  sticky : Sticky requests

/-! ## The loop has the accounts of the reference -/

namespace Event

def invoked? : Event J V → Option J
  | invoke j => some j
  | _ => none

def response? : Event J V → Option (J × Except IsleError V)
  | respond j r => some (j, r)
  | _ => none

def check? : Event J V → Option Bool
  | health ok => some ok
  | _ => none

def discarded? : Event J V → Option J
  | drop j => some j
  | _ => none

end Event

/-- The accounts that a trace shows. -/
def LoopRun.account (r : LoopRun J σ V) : Account J σ V where
  invoked := r.trace.filterMap Event.invoked?
  responses := r.trace.filterMap Event.response?
  checks := r.trace.filterMap Event.check?
  discarded := r.trace.filterMap Event.discarded?
  conn := r.conn
  exit := r.exit

section

variable (w : Work J σ V) (r : Except IsleError V) (c : σ) (exit : Option Exit)

lemma account_drop : (LoopRun.mk (V := V) [.drop w.id] c exit).account =
    ⟨[], [], [], [w.id], c, exit⟩ := rfl

lemma account_respond : (LoopRun.mk [.respond w.id r] c exit).account =
    ⟨[], [(w.id, r)], [], [], c, exit⟩ := rfl

lemma account_ran : (LoopRun.mk (ranEvents w r) c exit).account =
    ⟨[w.id], [(w.id, r)], [], [], c, exit⟩ := rfl

lemma account_checked (ok : Bool) : (LoopRun.mk (ranEvents w r ++ [.health ok]) c exit).account =
    ⟨[w.id], [(w.id, r)], [ok], [], c, exit⟩ := rfl

end

namespace Account

/-- The accounts `b` of what happens after `a`. -/
def followedBy (a b : Account J σ V) : Account J σ V where
  invoked := a.invoked ++ b.invoked
  responses := a.responses ++ b.responses
  checks := a.checks ++ b.checks
  discarded := a.discarded ++ b.discarded
  conn := b.conn
  exit := b.exit

lemma followedBy_after (a : Account J σ V) (r : LoopRun J σ V) (events : List (Event J V))
    (c : σ) : a.followedBy (r.after events).account =
      (a.followedBy ((LoopRun.mk events c none).account)).followedBy r.account := by
  simp only [followedBy, LoopRun.account, LoopRun.after, List.filterMap_append, List.append_assoc]

end Account

namespace Ledger

section

variable {l : Ledger J σ V} {w : Work J σ V}

lemma step_discard (hrun : l.exit = none) (h : (l.aborting || w.abort) = true) :
    l.step (.job w) = { l with aborting := true, discarded := l.discarded ++ [w.id] } := by
  simp [step, hrun, h]

lemma step_skip (hrun : l.exit = none) (h : (l.aborting || w.abort) = false) {reason : FireReason}
    (hfired : w.fired = some reason) : l.step (.job w) =
      { l with responses := l.responses ++ [(w.id, .error reason.error)] } := by
  simp [step, hrun, h, hfired]

lemma step_invoke (hrun : l.exit = none) (h : (l.aborting || w.abort) = false)
    (hfired : w.fired = none) : l.step (.job w) = l.invoke w := by
  simp [step, hrun, h, hfired]

lemma response_eq (w : Work J σ V) (result : Caught V) : response w result = answer w result := by
  rcases result with (e | v) | payload
  · rcases e with ⟨code, message⟩ | _
    · cases code with
      | operationInterrupted =>
        rcases hfired : w.firedAfter with _ | reason
        · cases habort : w.abortAfter <;>
            simp [response, answer, normalizeError, IsleError.isInterrupt, hfired, habort]
        · cases reason <;>
            simp [response, answer, normalizeError, IsleError.isInterrupt, hfired, FireReason.error]
      | _ => rfl
    · rfl
  · rfl
  · cases payload <;> rfl

lemma invoke_return {result : Except RusqliteError V} {conn : σ}
    (hf : w.f l.conn = (.returned result, conn)) : l.invoke w = { l with
      invoked := l.invoked ++ [w.id]
      responses := l.responses ++ [(w.id, answer w (.returned result))]
      conn := conn } := by
  simp [invoke, hf, response_eq]

lemma invoke_panic {payload : PanicPayload} {conn : σ}
    (hf : w.f l.conn = (.panicked payload, conn)) : l.invoke w = { l with
      invoked := l.invoked ++ [w.id]
      responses := l.responses ++ [(w.id, answer w (.panicked payload))]
      checks := l.checks ++ [w.healthy conn]
      conn := conn
      exit := if w.healthy conn then none else some .unhealthy } := by
  simp [invoke, hf, response_eq]

lemma foldl_of_exit (h : l.exit.isSome = true) (requests : List (Request (Work J σ V))) :
    requests.foldl step l = l := by
  induction requests with
  | nil => rfl
  | cons r rest ih =>
    have hstep : l.step r = l := by
      cases r <;> simp only [step, h, if_true]
    rw [List.foldl_cons, hstep, ih]

lemma close_of_exit (h : l.exit.isSome = true) (disconnected : Bool) :
    l.close disconnected = l := by
  cases hexit : l.exit with
  | none =>
    rw [hexit] at h
    cases h
  | some why => simp [close, hexit]

end

/-- The rest of a script, for a ledger that may have seen the abort flag. -/
structure Fits (l : Ledger J σ V) (requests : List (Request (Work J σ V))) : Prop where
  running : l.exit = none
  aborting : l.aborting = true → ∀ w, .job w ∈ requests → w.abort = true

/-- The ledger after the remaining requests is the one before, followed by the accounts that the
loop has of them. -/
lemma foldl_eq (disconnected : Bool) (requests : List (Request (Work J σ V))) (l : Ledger J σ V)
    (hsticky : Sticky requests) (hfits : l.Fits requests) :
    ((requests.foldl step l).close disconnected).toAccount =
      l.toAccount.followedBy (runLoop disconnected requests l.conn).account := by
  induction requests generalizing l with
  | nil =>
    cases disconnected with
    | true => simp [close, runLoop, Account.followedBy, LoopRun.account, hfits.running]
    | false =>
      simp only [List.foldl_nil, close, runLoop, Account.followedBy, LoopRun.account,
        List.filterMap_nil, List.append_nil, Bool.false_and, Bool.false_eq_true, if_false]
      rw [← hfits.running]
  | cons r rest ih =>
    obtain ⟨hhead, hrest⟩ := List.pairwise_cons.mp hsticky
    -- the ledger goes on as `l'`, and the loop with `events` and the connection of `l'`
    have goes_on {l' : Ledger J σ V} (events : List (Event J V)) (hstep : l.step r = l')
        (hloop : runLoop disconnected (r :: rest) l.conn =
          (runLoop disconnected rest l'.conn).after events) (hfits' : l'.Fits rest)
        (hsame : l'.toAccount = l.toAccount.followedBy (LoopRun.mk events l'.conn none).account) :
        (((r :: rest).foldl step l).close disconnected).toAccount =
          l.toAccount.followedBy (runLoop disconnected (r :: rest) l.conn).account := by
      rw [List.foldl_cons, hstep, ih l' hrest hfits', hloop, Account.followedBy_after, hsame]
    -- the ledger and the loop stop
    have stops (l' : Ledger J σ V) (hstep : l.step r = l') (hexit : l'.exit.isSome = true)
        (hsame : l'.toAccount =
          l.toAccount.followedBy (runLoop disconnected (r :: rest) l.conn).account) :
        (((r :: rest).foldl step l).close disconnected).toAccount =
          l.toAccount.followedBy (runLoop disconnected (r :: rest) l.conn).account := by
      rw [List.foldl_cons, hstep, foldl_of_exit hexit, close_of_exit hexit, hsame]
    cases r with
    | shutdown =>
      refine stops { l with exit := some .shutdown } ?_ rfl ?_
      · simp [step, hfits.running]
      · simp [runLoop, Account.followedBy, LoopRun.account]
    | job w =>
      have serves (habort : w.abort = false) : (l.aborting || w.abort) = false := by
        cases h : l.aborting with
        | true =>
          rw [hfits.aborting h w (List.mem_cons_self ..)] at habort
          cases habort
        | false => simp [habort]
      have fits {l' : Ledger J σ V} (hserves : (l.aborting || w.abort) = false)
          (hexit : l'.exit = none) (hsame : l'.aborting = l.aborting) : l'.Fits rest := by
        refine ⟨hexit, fun h => ?_⟩
        rw [hsame, (Bool.or_eq_false_iff.mp hserves).1] at h
        cases h
      cases handles w l.conn with
      | discard habort =>
        refine goes_on _ (step_discard hfits.running (by simp [habort])) (runLoop_discard habort)
          ⟨hfits.running, fun _ w' hw' => hhead _ hw' w w' rfl rfl habort⟩ ?_
        simp [Account.followedBy, account_drop, hfits.running]
      | skip habort reason hfired =>
        refine goes_on _ (step_skip hfits.running (serves habort) hfired)
          (runLoop_skip habort hfired) (fits (serves habort) hfits.running rfl) ?_
        simp [Account.followedBy, account_respond, hfits.running]
      | finish habort hfired result conn hf =>
        refine goes_on _
          ((step_invoke hfits.running (serves habort) hfired).trans (invoke_return hf))
          (runLoop_return habort hfired hf) (fits (serves habort) hfits.running rfl) ?_
        simp [Account.followedBy, account_ran, hfits.running]
      | recover habort hfired payload conn hf hhealth =>
        refine goes_on _
          ((step_invoke hfits.running (serves habort) hfired).trans (invoke_panic hf))
          (runLoop_recover habort hfired hf hhealth)
          (fits (serves habort) (by simp [hhealth]) rfl) ?_
        simp [Account.followedBy, account_checked, hhealth]
      | stop habort hfired payload conn hf hhealth =>
        refine stops _
          ((step_invoke hfits.running (serves habort) hfired).trans (invoke_panic hf))
          (by simp [hhealth]) ?_
        rw [runLoop_unhealthy habort hfired hf hhealth]
        simp [Account.followedBy, account_checked, hhealth]

end Ledger

/-! ## The order of a trace -/

namespace Event

/-- Whether the thread is between two requests after the event. -/
def rests : Event J V → Bool
  | drop _ => true
  | respond _ (.error (.panicked _)) => false
  | respond _ _ => true
  | health ok => ok
  | _ => false

/-- Whether the event can be the first one about a request. -/
def starts : Event J V → Bool
  | drop _ => true
  | attach _ => true
  | respond _ _ => true
  | _ => false

/-- Which event can come right after which. -/
inductive Follows : Event J V → Event J V → Prop
  | attached (j : J) : Follows (attach j) (invoke j)
  | invoked (j : J) : Follows (invoke j) (detach j)
  | detached (j : J) (r : Except IsleError V) : Follows (detach j) (respond j r)
  | panicked (j : J) (message : String) (ok : Bool) :
      Follows (respond j (.error (.panicked message))) (health ok)
  | next {a b : Event J V} (hrests : a.rests = true) (hstarts : b.starts = true) : Follows a b

end Event

/-- The events of requests: in order, from the first event about one to the last event about one. -/
structure Deed (events : List (Event J V)) : Prop where
  chain : events.IsChain Event.Follows
  first : ∀ a ∈ events.head?, a.starts = true
  last : ∀ a ∈ events.getLast?, a.rests = true

/-- The trace of a loop: as `Deed`, or the loop has stopped at a failed health check. -/
structure Orderly (trace : List (Event J V)) : Prop where
  chain : trace.IsChain Event.Follows
  first : ∀ a ∈ trace.head?, a.starts = true
  last : ∀ a ∈ trace.getLast?, a.rests = true ∨ a = .health false

lemma Deed.append {events trace : List (Event J V)} (h : Deed events) (h' : Orderly trace) :
    Orderly (events ++ trace) := by
  refine ⟨List.isChain_append.mpr ⟨h.chain, h'.chain, fun a ha b hb => ?_⟩, fun a ha => ?_,
    fun a ha => ?_⟩
  · exact .next (h.last a ha) (h'.first b hb)
  · cases events with
    | nil => exact h'.first a ha
    | cons b events => exact h.first a ha
  · rw [List.getLast?_append] at ha
    cases hlast : trace.getLast? with
    | none =>
      rw [hlast] at ha
      exact Or.inl (h.last a ha)
    | some b =>
      rw [hlast] at ha
      exact h'.last a (hlast ▸ ha)

lemma Deed.single {a : Event J V} (hstarts : a.starts = true) (hrests : a.rests = true) :
    Deed [a] := by
  refine ⟨.singleton a, fun b hb => ?_, fun b hb => ?_⟩
  · cases hb
    exact hstarts
  · cases hb
    exact hrests

lemma chain_ran (w : Work J σ V) (r : Except IsleError V) :
    (ranEvents w r).IsChain Event.Follows :=
  .cons_cons (.attached _) (.cons_cons (.invoked _) (.cons_cons (.detached _ _) (.singleton _)))

lemma chain_checked (w : Work J σ V) (message : String) (ok : Bool) :
    (ranEvents w (.error (.panicked message)) ++ [Event.health ok]).IsChain Event.Follows :=
  .cons_cons (.attached _) (.cons_cons (.invoked _) (.cons_cons (.detached _ _)
    (.cons_cons (.panicked _ _ _) (.singleton _))))

lemma rests_of_return (w : Work J σ V) (result : Except RusqliteError V) :
    (Event.respond w.id (answer w (.returned result))).rests = true := by
  cases result with
  | ok v => rfl
  | error e =>
    simp only [answer, normalizeError]
    split
    · split
      · next reason _ => cases reason <;> rfl
      · split <;> rfl
    · rfl

theorem orderly_runLoop (disconnected : Bool) (requests : List (Request (Work J σ V))) (conn : σ) :
    Orderly (runLoop disconnected requests conn).trace := by
  have empty : Orderly ([] : List (Event J V)) := ⟨.nil, by simp, by simp⟩
  induction requests generalizing conn with
  | nil => exact empty
  | cons r rest ih =>
    cases r with
    | shutdown => exact empty
    | job w =>
      cases handles w conn with
      | discard habort =>
        rw [runLoop_discard habort]
        exact (Deed.single rfl rfl).append (ih conn)
      | skip habort reason hfired =>
        rw [runLoop_skip habort hfired]
        exact (Deed.single rfl (by cases reason <;> rfl)).append (ih conn)
      | finish habort hfired result conn' hf =>
        rw [runLoop_return habort hfired hf]
        refine Deed.append ⟨chain_ran w _, fun a ha => ?_, fun a ha => ?_⟩ (ih conn')
        · cases ha
          rfl
        · cases ha
          exact rests_of_return w result
      | recover habort hfired payload conn' hf hhealth =>
        rw [runLoop_recover habort hfired hf hhealth]
        refine Deed.append ⟨chain_checked w _ true, fun a ha => ?_, fun a ha => ?_⟩ (ih conn')
        · cases ha
          rfl
        · cases ha
          rfl
      | stop habort hfired payload conn' hf hhealth =>
        rw [runLoop_unhealthy habort hfired hf hhealth]
        refine ⟨chain_checked w _ false, fun a ha => ?_, fun a ha => ?_⟩
        · cases ha
          rfl
        · cases ha
          exact Or.inr rfl

lemma Orderly.next {pre post : List (Event J V)} {a : Event J V}
    (h : Orderly (pre ++ a :: post)) :
    (post = [] ∧ (a.rests = true ∨ a = .health false)) ∨
      ∃ b rest, post = b :: rest ∧ Event.Follows a b := by
  cases post with
  | nil => exact Or.inl ⟨rfl, h.last a (by simp)⟩
  | cons b rest =>
    have hchain := (List.isChain_append.mp h.chain).2.1
    exact Or.inr ⟨b, rest, rfl, (List.isChain_cons_cons.mp hchain).1⟩

lemma Orderly.check {pre post : List (Event J V)} {j : J} {message : String}
    (h : Orderly (pre ++ .respond j (.error (.panicked message)) :: post)) :
    ∃ ok rest, post = .health ok :: rest ∧ (ok = false → rest = []) := by
  rcases h.next with ⟨-, hrests | hfalse⟩ | ⟨b, rest, rfl, hb⟩
  · cases hrests
  · cases hfalse
  · cases hb with
    | @panicked _ _ ok =>
      refine ⟨ok, rest, rfl, ?_⟩
      rintro rfl
      rw [List.append_cons] at h
      rcases h.next with ⟨hnil, -⟩ | ⟨c, rest', -, hc⟩
      · exact hnil
      · cases hc with
        | next hrests => cases hrests
    | next hrests => cases hrests

lemma Orderly.invoke {pre post : List (Event J V)} {j : J}
    (h : Orderly (pre ++ .invoke j :: post)) :
    ∃ r rest, post = .detach j :: .respond j r :: rest := by
  rcases h.next with ⟨-, hrests | hfalse⟩ | ⟨b, rest, rfl, hb⟩
  · cases hrests
  · cases hfalse
  · cases hb with
    | invoked =>
      rw [List.append_cons] at h
      rcases h.next with ⟨-, hrests | hfalse⟩ | ⟨c, rest', rfl, hc⟩
      · cases hrests
      · cases hfalse
      · cases hc with
        | detached _ r => exact ⟨r, rest', rfl⟩
        | next hrests => cases hrests
    | next hrests => cases hrests

lemma Orderly.panicked {pre post : List (Event J V)} {ok : Bool}
    (h : Orderly (pre ++ .health ok :: post)) :
    ∃ init j message, pre = init ++ [.respond j (.error (.panicked message))] := by
  rcases List.eq_nil_or_concat pre with rfl | ⟨init, a, rfl⟩
  · cases h.first _ rfl
  · have hchain := h.chain
    rw [List.concat_eq_append, List.append_assoc] at hchain
    have hnext := (List.isChain_append.mp hchain).2.1
    cases (List.isChain_cons_cons.mp hnext).1 with
    | panicked j message => exact ⟨init, j, message, List.concat_eq_append⟩
    | next _ hstarts => cases hstarts

/-! ## Why the loop stops -/

/-- The reason for which the loop has returned is there: a `Shutdown` among the requests, a
disconnected channel, a failed health check in the trace. Without one it is blocked on a connected
channel. -/
structure Stops (disconnected : Bool) (requests : List (Request (Work J σ V)))
    (run : LoopRun J σ V) : Prop where
  of_shutdown : run.exit = some .shutdown → .shutdown ∈ requests
  of_disconnected : run.exit = some .disconnected → disconnected = true ∧ .shutdown ∉ requests
  of_unhealthy : run.exit = some .unhealthy ↔ .health false ∈ run.trace
  of_none : run.exit = none → disconnected = false ∧ .shutdown ∉ requests

lemma Stops.after {disconnected : Bool} {rest : List (Request (Work J σ V))} {w : Work J σ V}
    {run : LoopRun J σ V} (h : Stops disconnected rest run) {events : List (Event J V)}
    (hevents : .health false ∉ events) :
    Stops disconnected (.job w :: rest) (run.after events) where
  of_shutdown hexit := List.mem_cons_of_mem _ (h.of_shutdown hexit)
  of_disconnected hexit :=
    ⟨(h.of_disconnected hexit).1, by simpa using (h.of_disconnected hexit).2⟩
  of_unhealthy := by
    rw [LoopRun.after, List.mem_append, or_iff_right hevents]
    exact h.of_unhealthy
  of_none hexit := ⟨(h.of_none hexit).1, by simpa using (h.of_none hexit).2⟩

theorem stops_runLoop (disconnected : Bool) (requests : List (Request (Work J σ V))) (conn : σ) :
    Stops disconnected requests (runLoop disconnected requests conn) := by
  induction requests generalizing conn with
  | nil => cases disconnected <;> exact ⟨by simp [runLoop], by simp [runLoop], by simp [runLoop],
      by simp [runLoop]⟩
  | cons r rest ih =>
    cases r with
    | shutdown => exact ⟨by simp, by simp [runLoop], by simp [runLoop], by simp [runLoop]⟩
    | job w =>
      cases handles w conn with
      | discard habort =>
        rw [runLoop_discard habort]
        exact (ih conn).after (by simp)
      | skip habort reason hfired =>
        rw [runLoop_skip habort hfired]
        exact (ih conn).after (by simp)
      | finish habort hfired result conn' hf =>
        rw [runLoop_return habort hfired hf]
        exact (ih conn').after (by simp [ranEvents])
      | recover habort hfired payload conn' hf hhealth =>
        rw [runLoop_recover habort hfired hf hhealth]
        exact (ih conn').after (by simp [ranEvents])
      | stop habort hfired payload conn' hf hhealth =>
        rw [runLoop_unhealthy habort hfired hf hhealth]
        exact ⟨by simp, by simp, by simp, by simp⟩

/-! ## The specification -/

/-- The health checks of a trace are where the panics are: one right after each and none elsewhere.
A closure is invoked after a panic only if the check has succeeded, and nothing comes after one
that has failed. -/
structure Checked (trace : List (Event J V)) : Prop where
  each : ∀ pre post j message, trace = pre ++ .respond j (.error (.panicked message)) :: post →
    ∃ ok rest, post = .health ok :: rest
  only : ∀ pre post ok, trace = pre ++ .health ok :: post →
    ∃ init j message, pre = init ++ [.respond j (.error (.panicked message))]
  guarded : ∀ pre mid post j message i,
    trace = pre ++ .respond j (.error (.panicked message)) :: (mid ++ .invoke i :: post) →
    ∃ rest, mid = .health true :: rest
  final : ∀ pre post, trace = pre ++ .health false :: post → post = []

lemma Orderly.checked {trace : List (Event J V)} (h : Orderly trace) : Checked trace := by
  refine ⟨?_, ?_, ?_, ?_⟩
  · rintro pre post j message rfl
    obtain ⟨ok, rest, hpost, -⟩ := h.check
    exact ⟨ok, rest, hpost⟩
  · rintro pre post ok rfl
    exact h.panicked
  · rintro pre mid post j message i rfl
    obtain ⟨ok, rest, hpost, hfalse⟩ := h.check
    cases mid with
    | nil => cases hpost
    | cons a mid =>
      obtain ⟨rfl, hrest⟩ := List.cons_eq_cons.mp hpost
      cases ok with
      | true => exact ⟨mid, rfl⟩
      | false =>
        rw [hfalse rfl] at hrest
        exact absurd hrest (by simp)
  · rintro pre post rfl
    obtain ⟨init, j, message, rfl⟩ := h.panicked
    rw [List.append_assoc] at h
    obtain ⟨ok, rest, hpost, hfalse⟩ := h.check
    obtain ⟨hok, hrest⟩ := List.cons_eq_cons.mp hpost
    rw [hrest]
    exact hfalse (Event.health.inj hok).symm

/-- Every closure that the trace shows is detached and answered before anything else happens. -/
def Answered (trace : List (Event J V)) : Prop :=
  ∀ pre post j, trace = pre ++ .invoke j :: post →
    ∃ r rest, post = .detach j :: .respond j r :: rest

/-- On every script, from every connection, the loop has the accounts of the reference, checks the
connection exactly after the panics, and stops for the reasons of the reference only. -/
theorem run_loop_meets_reference (script : Script J σ V) (conn : σ) :
    let run := runLoop script.disconnected script.requests conn
    run.account = reference script.disconnected script.requests conn ∧
      Checked run.trace ∧ Answered run.trace ∧
      Stops script.disconnected script.requests run := by
  intro run
  have horderly := orderly_runLoop script.disconnected script.requests conn
  refine ⟨?_, horderly.checked, ?_, stops_runLoop _ _ conn⟩
  · have hfits : (Ledger.start (J := J) (V := V) conn).Fits script.requests :=
      ⟨rfl, fun h => by cases h⟩
    exact (Ledger.foldl_eq script.disconnected script.requests _ script.sticky hfits).symm
  · intro pre post j htrace
    have h := horderly
    rw [htrace] at h
    exact h.invoke

/-- The first job panics and the connection passes its check, the second one was cancelled in the
queue, and the third one is behind a `Shutdown`. -/
example : runLoop false [.job ⟨1, fun c => (.panicked (.str "oops"), c + 1), none, none, false,
      false, fun _ => true⟩,
    .job ⟨2, fun c => (.returned (.ok 7), c + 1), some .cancelled, none, false, false, fun _ => true⟩,
    .shutdown,
    .job ⟨3, fun c => (.returned (.ok 7), c + 1), none, none, false, false, fun _ => true⟩] 0 =
    ⟨[.attach 1, .invoke 1, .detach 1, .respond 1 (.error (.panicked "oops")), .health true,
      .respond 2 (.error .cancelled)], 1, some .shutdown⟩ := rfl

end

end RusqliteIsle
