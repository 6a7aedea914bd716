import RusqliteIsle.Isle.Poll
import RusqliteIsle.Isle.Window

/-!
# Replaying the events of a job

What becomes of a job depends on the order of a few events: its submission, the loop's abort check
and discard, the queued-stage check, the attachment, the statements, the two halves of a fire, the
response, and the drop of the receiver. `Replay` is what the job can see of the isle, and an event
changes it in one way whatever else the isle does.
-/

namespace RusqliteIsle

set_option linter.unusedSectionVars false

/-- An event of a job. The abort flag is read twice, and a statement ends with a result. -/
inductive JobEvent (V : Type) where
  | enqueue
  | refuse
  | deadline
  | interrupt
  | take
  | abortCheck (aborting : Bool)
  | discard
  | queuedCheck
  | attachStore
  | attachCheck
  | attachInterrupt
  | stmtStart
  | stmtFinish (r : Except RusqliteError V)
  | closureEnd
  | detach
  | normalizeToken
  | normalizeAbort (aborting : Bool)
  | respond
  | receiverDrop

/-- What a job can see: where the thread is with it, its token, its response channel, and how often
its closure was entered and the connection interrupted through its token. -/
structure Replay (V : Type) where
  pc : Pc Unit V
  token : CancelToken
  response : Response V
  invoked : ℕ
  interrupts : ℕ

namespace CancelToken

/-- How often a critical section of `fire` interrupts the connection. -/
def hits (t : CancelToken) : ℕ := if t.handle.isSome then 1 else 0

lemma hits_of_none {t : CancelToken} (h : t.handle = none) : t.hits = 0 := by simp [hits, h]

lemma hits_le_one (t : CancelToken) : t.hits ≤ 1 := by
  unfold hits
  split
  · exact le_rfl
  · exact Nat.zero_le 1

end CancelToken

namespace Replay

variable {V : Type}

def init : Replay V := ⟨.next, .new, .pending, 0, 0⟩

/-- The closure of the job is entered. -/
def invoke (v : Replay V) (prog : Closure V) : Replay V :=
  { v with pc := .closure () prog, invoked := v.invoked + 1 }

/-- What an event does to a job with the closure `prog`. -/
def next (prog : Closure V) (v : Replay V) : JobEvent V → Replay V
  | .enqueue => v
  | .refuse => { v with response := .dropped }
  | .deadline => { v with token := v.token.compareExchange .timeout }
  | .interrupt => { v with interrupts := v.interrupts + v.token.hits }
  | .take => { v with pc := .loadAbort () }
  | .abortCheck aborting => { v with pc := if aborting then .discard () else .queuedCheck () }
  | .discard => { v with pc := .next, response := .dropped }
  | .queuedCheck =>
    { v with
      pc := match v.token.fired with
        | some err => .respond () (.error err) .completed
        | none => .attachStore () }
  | .attachStore => { v with pc := .attachCheck (), token := v.token.attach () }
  | .attachCheck =>
    match v.token.state with
    | none => v.invoke prog
    | some _ => { v with pc := .attachInterrupt () }
  | .attachInterrupt => { v.invoke prog with interrupts := v.interrupts + v.token.hits }
  | .stmtStart =>
    match v.pc with
    | .closure _ (.start _ c) => { v with pc := .closure () c }
    | _ => v
  | .stmtFinish r =>
    match v.pc with
    | .closure _ (.finish k) => { v with pc := .closure () (k r) }
    | _ => v
  | .closureEnd =>
    match v.pc with
    | .closure _ (.ret r) => { v with pc := .detach () (.returned r) }
    | .closure _ (.panic payload) => { v with pc := .detach () (.panicked payload) }
    | _ => v
  | .detach =>
    match v.pc with
    | .detach _ result => { v with pc := Pc.afterDetach () result, token := v.token.detach }
    | _ => v
  | .normalizeToken =>
    match v.pc with
    | .normalizeToken _ e =>
      { v with
        pc := match v.token.fired with
          | some err => .respond () (.error err) .completed
          | none => .normalizeAbort () e }
    | _ => v
  | .normalizeAbort aborting =>
    match v.pc with
    | .normalizeAbort _ e =>
      { v with pc := .respond () (.error (if aborting then .closed else .sqlite e)) .completed }
    | _ => v
  | .respond =>
    match v.pc with
    | .respond _ r _ => { v with pc := .next, response := .answered r }
    | _ => v
  | .receiverDrop => { v with response := .dropped }

/-- The job after a list of events. -/
def run (prog : Closure V) (events : List (JobEvent V)) : Replay V := events.foldl (next prog) init

lemma run_append (prog : Closure V) (events events' : List (JobEvent V)) :
    run prog (events ++ events') = events'.foldl (next prog) (run prog events) := List.foldl_append

end Replay

/-! ## The isle as a job sees it -/

variable {J K V : Type} [DecidableEq J] [DecidableEq K] {cfg : Config J V}

namespace Pc

/-- The position without the name of the job. -/
def anonymous : Pc J V → Pc Unit V
  | loadAbort _ => loadAbort ()
  | discard _ => discard ()
  | queuedCheck _ => queuedCheck ()
  | attachStore _ => attachStore ()
  | attachCheck _ => attachCheck ()
  | attachInterrupt _ => attachInterrupt ()
  | closure _ c => closure () c
  | detach _ result => detach () result
  | normalizeToken _ e => normalizeToken () e
  | normalizeAbort _ e => normalizeAbort () e
  | respond _ r outcome => respond () r outcome
  | _ => next

/-- Where the thread is with the job `j`: at `next` if it does not hold it. -/
def withJob (j : J) (pc : Pc J V) : Pc Unit V := if pc.job? = some j then pc.anonymous else next

lemma withJob_self {j : J} {pc : Pc J V} (h : pc.job? = some j) :
    pc.withJob j = pc.anonymous := if_pos h

lemma withJob_of_ne {j : J} {pc : Pc J V} (h : pc.job? ≠ some j) : pc.withJob j = next := if_neg h

lemma anonymous_afterDetach (j : J) (result : Caught V) :
    (afterDetach j result).anonymous = afterDetach () result := by
  unfold afterDetach
  split
  · rfl
  · split <;> rfl
  · rfl

end Pc

namespace State

/-- How often the step interrupts the connection through the token of `j`. -/
def issued (s : State J K V) (j : J) : Label J K V → ℕ
  | .fireInterrupt i => if i = j then (s.jobs i).token.hits else 0
  | .attachInterrupt i => if i = j then (s.jobs i).token.hits else 0
  | _ => 0

/-- What the job `j` sees of an isle, once `n` interrupts have been issued through its token. -/
def replay (s : State J K V) (j : J) (n : ℕ) : Replay V where
  pc := s.pc.withJob j
  token := (s.jobs j).token
  response := (s.jobs j).response
  invoked := (s.history j).invoked
  interrupts := n

end State

/-- The event of an action, for the job that the action is about. -/
def Label.jobEvent (aborting : Bool) : Label J K V → Option (JobEvent V)
  | .enqueue _ => some .enqueue
  | .refuseClosed _ | .refuseFull _ | .abandon _ => some .refuse
  | .deadline _ => some .deadline
  | .fireInterrupt _ => some .interrupt
  | .recvJob _ => some .take
  | .loadAbort _ => some (.abortCheck aborting)
  | .discard _ => some .discard
  | .queuedCheck _ => some .queuedCheck
  | .attachStore _ => some .attachStore
  | .attachCheck _ => some .attachCheck
  | .attachInterrupt _ => some .attachInterrupt
  | .stmtStart _ => some .stmtStart
  | .stmtFinish _ r => some (.stmtFinish r)
  | .closureEnd _ => some .closureEnd
  | .detach _ => some .detach
  | .normalizeToken _ => some .normalizeToken
  | .normalizeAbort _ => some (.normalizeAbort aborting)
  | .respond _ => some .respond
  | _ => none

/-- The event of an action for the job `j`. The end of the thread is one for the jobs in the
queue. -/
def State.events (s : State J K V) (j : J) : Label J K V → List (JobEvent V)
  | .threadFinish => if s.chan.buffer.contains (.job j) then [.receiverDrop] else []
  | l => if l.job? = some j then (l.jobEvent s.abort).toList else []

lemma events_self {s : State J K V} {j : J} {l : Label J K V} (hl : l.job? = some j) :
    s.events j l = (l.jobEvent s.abort).toList := by
  cases l with
  | threadFinish => cases hl
  | _ => exact if_pos hl

lemma events_other {s : State J K V} {j : J} {l : Label J K V} (hl : l.job? ≠ some j)
    (hfin : l ≠ .threadFinish) : s.events j l = [] := by
  cases l with
  | threadFinish => exact absurd rfl hfin
  | _ => simp only [State.events, if_neg hl]

lemma issued_other {s : State J K V} {j : J} {l : Label J K V} (hl : l.job? ≠ some j) :
    s.issued j l = 0 := by
  cases l with
  | fireInterrupt i | attachInterrupt i => exact if_neg (fun hij => hl (congrArg some hij))
  | _ => rfl

lemma replay_at {s : State J K V} {pc : Pc J V} {j : J} (hpc : s.pc = pc) (hj : pc.job? = some j)
    (n : ℕ) : s.replay j n =
      ⟨pc.anonymous, (s.jobs j).token, (s.jobs j).response, (s.history j).invoked, n⟩ := by
  rw [State.replay, hpc, Pc.withJob_self hj]

lemma replay_off {s : State J K V} {j : J} (hj : s.pc.job? ≠ some j) (n : ℕ) : s.replay j n =
    ⟨.next, (s.jobs j).token, (s.jobs j).response, (s.history j).invoked, n⟩ := by
  rw [State.replay, Pc.withJob_of_ne hj]

lemma replay_step_other {s t : State J K V} {l : Label J K V} (hs : Step cfg s l t) {j : J} (n : ℕ)
    (hl : l.job? ≠ some j) : t.replay j (n + s.issued j l) =
      (s.events j l).foldl (Replay.next (cfg.prog j)) (s.replay j n) := by
  rw [issued_other hl, Nat.add_zero]
  by_cases hfin : l = .threadFinish
  · subst hfin
    cases hs with
    | threadFinish hpc =>
      have hleft : s.pc.job? ≠ some j := by
        rcases hpc with ⟨-, hpc⟩ | hpc <;> rw [hpc] <;> exact fun h => by cases h
      rw [replay_off hleft, replay_off (fun h => by cases h)]
      by_cases hbuf : Request.job j ∈ s.chan.buffer <;>
        simp [State.events, State.dropQueued, hbuf, Replay.next]
  · have hf := frame_step hs hl hfin
    have hpc : t.pc.withJob j = s.pc.withJob j := by
      by_cases hcur : s.pc.job? = some j
      · rw [hf.pc hcur]
      · rw [Pc.withJob_of_ne hcur, Pc.withJob_of_ne (fun h => hcur (hf.current h))]
    rw [events_other hl hfin, State.replay, hpc, hf.job, hf.history]
    rfl

/-- A step changes what a job sees as its event says, and without an event not at all. -/
lemma replay_step {s t : State J K V} {l : Label J K V} (hs : Step cfg s l t) {j : J} (n : ℕ)
    (hcancel : l ≠ .cancel j) (hdrop : l ≠ .dropTask j) :
    t.replay j (n + s.issued j l) =
      (s.events j l).foldl (Replay.next (cfg.prog j)) (s.replay j n) := by
  by_cases hl : l.job? = some j
  swap
  · exact replay_step_other hs n hl
  rw [events_self hl]
  cases hs with
  | cancel => exact absurd (Option.some.inj hl ▸ rfl) hcancel
  | dropAsyncTask | dropSyncTask => exact absurd (Option.some.inj hl ▸ rfl) hdrop
  | recvJob hpc =>
    cases hl
    rw [replay_at rfl rfl, replay_off (by rw [hpc]; exact fun h => by cases h)]
    rfl
  | loadAbort hpc =>
    cases hl
    rw [replay_at hpc rfl]
    cases habort : s.abort with
    | true | false =>
      rw [replay_at rfl rfl]
      rfl
  | discard hpc =>
    cases hl
    rw [replay_at hpc rfl, replay_off (fun h => by cases h)]
    simp [Label.jobEvent, Replay.next, State.issued]
  | queuedCheck hpc | normalizeToken hpc =>
    cases hl
    rw [replay_at hpc rfl]
    cases hfired : (s.jobs j).token.fired with
    | none | some =>
      rw [replay_at rfl rfl]
      simp [Label.jobEvent, Replay.next, State.issued, Pc.anonymous, hfired]
  | attachStore hpc =>
    cases hl
    rw [replay_at hpc rfl, replay_at rfl rfl]
    simp [Label.jobEvent, Replay.next, State.issued, Pc.anonymous]
  | attachCheckNone hpc hstate =>
    cases hl
    rw [replay_at hpc rfl, replay_at rfl rfl]
    simp [Label.jobEvent, Replay.next, Replay.invoke, State.invoke, State.issued, Pc.anonymous,
      hstate]
  | attachCheckFired hpc hstate =>
    cases hl
    obtain ⟨reason, hreason⟩ := Option.ne_none_iff_exists'.mp hstate
    rw [replay_at hpc rfl, replay_at rfl rfl]
    simp [Label.jobEvent, Replay.next, State.issued, Pc.anonymous, hreason]
  | attachInterrupt hpc =>
    cases hl
    rw [replay_at hpc rfl, replay_at rfl rfl]
    simp [Label.jobEvent, Replay.next, Replay.invoke, State.invoke, State.issued, Pc.anonymous]
  | stmtStart hpc | stmtComplete hpc | stmtFail hpc | stmtAbort hpc | closureRet hpc
  | closurePanic hpc | normalizeAbort hpc =>
    cases hl
    rw [replay_at hpc rfl, replay_at rfl rfl]
    simp [Label.jobEvent, Replay.next, State.issued, Pc.anonymous]
  | @detach _ result hpc =>
    cases hl
    rw [replay_at hpc rfl, replay_at rfl (Pc.afterDetach_job? _ _), Pc.anonymous_afterDetach]
    simp [Label.jobEvent, Replay.next, State.issued, Pc.anonymous]
  | @respond _ r outcome hpc =>
    cases hl
    have hleft : (Pc.afterJob outcome : Pc J V).job? ≠ some j := by
      cases outcome <;> exact fun h => by cases h
    rw [replay_at hpc rfl, replay_off hleft]
    simp [Label.jobEvent, Replay.next, State.issued, Pc.anonymous]
  | submit | enqueue | refuseClosed | refuseFull | abandon | observe | deadline | detachTask
  | fireInterrupt =>
    cases hl
    simp [Label.jobEvent, Replay.next, State.issued, State.replay, State.refuse, State.beginFire]
  | _ => cases hl

end RusqliteIsle
