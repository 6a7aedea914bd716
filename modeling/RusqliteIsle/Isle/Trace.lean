import RusqliteIsle.Isle.Simulation
import RusqliteIsle.RunLoop

/-!
# The thread of an isle runs the loop

In every run of an isle its thread does what `runLoop` does with the requests that it has received.
What the steps of `run_loop`, `make_job` and `normalize_error` have read when the thread is done
with a job makes a `Work`, on which `makeJob` does the same. The database contents are not part of
an isle, so the connection of these loops has one state.
-/

namespace RusqliteIsle

set_option linter.unusedSectionVars false

variable {J K V : Type} [DecidableEq J] [DecidableEq K] {cfg : Config J V}

/-- What the thread shows in the step labelled `l`. -/
def State.shown (s : State J K V) : Label J K V → List (Event J V)
  | .discard j => [.drop j]
  | .attachStore j => [.attach j]
  | .attachCheck j => if (s.jobs j).token.state = none then [.invoke j] else []
  | .attachInterrupt j => [.invoke j]
  | .detach j => [.detach j]
  | .respond j =>
    match s.pc with
    | .respond _ r _ => [.respond j r]
    | _ => []
  | .healthFinish ok => [.health ok]
  | _ => []

def Request.map {α β : Type} (f : α → β) : Request α → Request β
  | job a => job (f a)
  | shutdown => shutdown

namespace Work

/-- A job whose closure is not entered. -/
def unrun (j : J) (fired : Option FireReason) (abort : Bool) : Work J Unit V :=
  ⟨j, fun conn => (.panicked .other, conn), fired, none, abort, abort, fun _ => true⟩

/-- A job whose closure ends in `result`. -/
def ran (j : J) (result : Caught V) (firedAfter : Option FireReason) (abortAfter : Bool) :
    Work J Unit V :=
  ⟨j, fun conn => (result, conn), none, firedAfter, false, abortAfter, fun _ => true⟩

lemma makeJob_ended (j : J) (result : Caught V) (firedAfter : Option FireReason)
    (abortAfter : Bool) : makeJob (ran j result firedAfter abortAfter) () = (result.outcome, (),
      [.attach j, .invoke j, .detach j,
        .respond j (answer (ran j result firedAfter abortAfter) result)]) :=
  makeJob_ran rfl rfl

end Work

/-- The requests of a loop, as the channel has them. -/
def received (requests : List (Request (Work J Unit V))) : List (Request J) :=
  requests.map (Request.map Work.id)

/-- What the thread has shown of the request it is at. If `clean` fails, an earlier job was
discarded. -/
def Midway (clean : Prop) (abort : Bool) (last : List (Request J)) (tail : List (Event J V)) :
    Pc J V → Prop
  | .next => last = [] ∧ tail = []
  | .loadAbort j => last = [.job j] ∧ tail = []
  | .discard j => last = [.job j] ∧ tail = [] ∧ abort = true
  | .queuedCheck j | .attachStore j => last = [.job j] ∧ tail = [] ∧ clean
  | .attachCheck j | .attachInterrupt j => last = [.job j] ∧ tail = [.attach j] ∧ clean
  | .closure j _ | .detach j _ => last = [.job j] ∧ tail = [.attach j, .invoke j] ∧ clean
  | .normalizeToken j e | .normalizeAbort j e => last = [.job j] ∧
      tail = [.attach j, .invoke j, .detach j] ∧ clean ∧ IsleError.isInterrupt e = true
  | .respond j r outcome => last = [.job j] ∧ clean ∧ ∃ w : Work J Unit V, w.id = j ∧
      w.abort = false ∧ makeJob w () = (outcome, (), tail ++ [.respond j r])
  | .healthStart | .healthFinish => clean ∧ ∃ w : Work J Unit V, last = [.job w.id] ∧
      w.abort = false ∧ makeJob w () = (.panicked, (), tail)
  | .exited _ | .signalled _ | .finished _ => False

/-- The loop has served `requests` and goes on. -/
structure Served (s : State J K V) (requests : List (Request (Work J Unit V)))
    (shown : List (Event J V)) : Prop where
  sticky : Sticky requests
  run : runLoop false requests () = ⟨shown, (), none⟩
  abort : ∀ w, .job w ∈ requests → w.abort = true → s.abort = true

/-- The thread, whose loop has not returned, has served `requests` and then shown `tail` of the
`last` one. -/
structure At (s : State J K V) (trace : List (Event J V)) (pc : Pc J V)
    (requests : List (Request (Work J Unit V))) (shown tail : List (Event J V))
    (last : List (Request J)) : Prop where
  served : Served s requests shown
  received : s.chan.received = received requests ++ last
  trace : trace = shown ++ tail
  mid : Midway (∀ w, .job w ∈ requests → w.abort = false) s.abort last tail pc

/-- The thread does what the loop does. -/
inductive Loops (s : State J K V) (trace : List (Event J V)) : Prop
  | serving {requests : List (Request (Work J Unit V))} {shown tail : List (Event J V)}
      {last : List (Request J)} (hat : At s trace s.pc requests shown tail last)
  | returned (script : Script J Unit V) (why : Exit) (hexit : s.pc.exit? = some why)
      (hrec : s.chan.received = received script.requests)
      (hrun : runLoop script.disconnected script.requests () = ⟨trace, (), some why⟩)

section

variable {s t : State J K V} {requests : List (Request (Work J Unit V))}
  {shown trace : List (Event J V)}

lemma Served.congr (hi : Served s requests shown) (habort : s.abort = true → t.abort = true) :
    Served t requests shown :=
  ⟨hi.sticky, hi.run, fun w hw h => habort (hi.abort w hw h)⟩

lemma Served.sticky_append (hi : Served s requests shown) {r : Request (Work J Unit V)}
    (hclean : (∃ w, r = .job w ∧ w.abort = false) → ∀ w, .job w ∈ requests → w.abort = false) :
    Sticky (requests ++ [r]) := by
  refine List.pairwise_append.mpr ⟨hi.sticky, List.pairwise_singleton _ _, ?_⟩
  rintro a ha b hb w w' rfl rfl habort
  obtain rfl := List.mem_singleton.mp hb
  by_contra hfalse
  rw [hclean ⟨w', rfl, Bool.eq_false_of_not_eq_true hfalse⟩ w ha] at habort
  cases habort

lemma Served.job (hi : Served s requests shown) {w : Work J Unit V} {events : List (Event J V)}
    (hclean : w.abort = false → ∀ w, .job w ∈ requests → w.abort = false)
    (habort : w.abort = true → s.abort = true)
    (hrun : runLoop false [.job w] () = ⟨events, (), none⟩) :
    Served s (requests ++ [.job w]) (shown ++ events) := by
  refine ⟨hi.sticky_append ?_, ?_, fun w' hw' h => ?_⟩
  · rintro ⟨w', hw', hfalse⟩
    cases hw'
    exact hclean hfalse
  · rw [runLoop_append hi.run, hrun]
    rfl
  · rcases List.mem_append.mp hw' with hold | hnew
    · exact hi.abort w' hold h
    · cases List.mem_singleton.mp hnew
      exact habort h

lemma received_append (requests : List (Request (Work J Unit V))) (r : Request (Work J Unit V)) :
    received (requests ++ [r]) = received requests ++ [r.map Work.id] := by
  simp [received]

lemma Midway.mono {clean : Prop} {abort abort' : Bool} {last : List (Request J)}
    {tail : List (Event J V)} {pc : Pc J V} (hi : Midway clean abort last tail pc)
    (habort : abort = true → abort' = true) : Midway clean abort' last tail pc := by
  cases pc with
  | discard j => exact ⟨hi.1, hi.2.1, habort hi.2.2⟩
  | _ => exact hi

lemma Loops.aside (hi : Loops s trace) (hpc : t.pc = s.pc)
    (hrec : t.chan.received = s.chan.received) (habort : s.abort = true → t.abort = true) :
    Loops t (trace ++ []) := by
  rw [List.append_nil]
  cases hi with
  | serving hat =>
    exact .serving ⟨hat.served.congr habort, hrec.trans hat.received, hat.trace,
      hpc ▸ hat.mid.mono habort⟩
  | returned script why hexit hrec' hrun =>
    exact .returned script why (by rw [hpc, hexit]) (hrec.trans hrec') hrun

lemma At.exit?_eq_none {pc : Pc J V} {tail : List (Event J V)} {last : List (Request J)}
    (hi : At s trace pc requests shown tail last) : pc.exit? = none := by
  have hmid := hi.mid
  cases pc with
  | exited | signalled | finished => exact hmid.elim
  | _ => rfl

lemma Loops.at_pc (hi : Loops s trace) {pc : Pc J V} (hpc : s.pc = pc) (hexit : pc.exit? = none) :
    ∃ requests shown tail last, At s trace pc requests shown tail last := by
  subst hpc
  cases hi with
  | serving hat => exact ⟨_, _, _, _, hat⟩
  | returned script why hexit' =>
    rw [hexit] at hexit'
    cases hexit'

lemma Loops.closing (hi : Loops s trace) {why : Exit} (hpc : s.pc.exit? = some why)
    (hpc' : t.pc.exit? = some why) (hrec : t.chan.received = s.chan.received) :
    Loops t (trace ++ []) := by
  rw [List.append_nil]
  cases hi with
  | serving hat =>
    rw [hat.exit?_eq_none] at hpc
    cases hpc
  | returned script why' hexit hrec' hrun =>
    rw [hpc] at hexit
    cases hexit
    exact .returned script why hpc' (hrec.trans hrec') hrun

namespace At

variable {pc : Pc J V} {tail events : List (Event J V)} {last : List (Request J)}

lemma goes (hi : At s trace pc requests shown tail last) {tail' : List (Event J V)}
    {last' : List (Request J)} (hrec : t.chan.received = RusqliteIsle.received requests ++ last')
    (habort : t.abort = s.abort) (htail : tail ++ events = tail')
    (hmid : Midway (∀ w, .job w ∈ requests → w.abort = false) s.abort last' tail' t.pc) :
    Loops t (trace ++ events) := by
  refine .serving ⟨hi.served.congr (by rw [habort]; exact id), hrec, ?_, habort ▸ hmid⟩
  rw [hi.trace, List.append_assoc, htail]

lemma done {w : Work J Unit V} (hi : At s trace pc requests shown tail [.job w.id])
    (hclean : w.abort = false → ∀ w, .job w ∈ requests → w.abort = false)
    (habort : w.abort = true → s.abort = true)
    (hrun : runLoop false [.job w] () = ⟨tail ++ events, (), none⟩)
    (hrec : t.chan.received = s.chan.received) (habort' : t.abort = s.abort) (hpc : t.pc = .next) :
    Loops t (trace ++ events) := by
  have hserved := hi.served.job hclean habort hrun
  have hat : At t (trace ++ events) t.pc (requests ++ [.job w]) (shown ++ (tail ++ events)) [] [] := by
    refine ⟨hserved.congr (by rw [habort']; exact id), ?_, ?_, ?_⟩
    · rw [hrec, hi.received, received_append, List.append_nil]
      rfl
    · rw [hi.trace, List.append_nil, List.append_assoc]
    · rw [hpc]
      exact ⟨rfl, rfl⟩
  exact .serving hat

end At

end

lemma midway_afterDetach {clean : Prop} (hclean : clean) (abort : Bool) (j : J)
    (result : Caught V) : Midway clean abort [.job j] [.attach j, .invoke j, .detach j]
      (Pc.afterDetach j result) := by
  cases result with
  | returned result =>
    cases result with
    | ok v => exact ⟨rfl, hclean, Work.ran j (.returned (.ok v)) none false, rfl, rfl, rfl⟩
    | error e =>
      by_cases hinterrupt : IsleError.isInterrupt e = true
      · rw [Pc.afterDetach, if_pos hinterrupt]
        exact ⟨rfl, rfl, hclean, hinterrupt⟩
      · rw [Pc.afterDetach, if_neg hinterrupt]
        refine ⟨rfl, hclean, Work.ran j (.returned (.error e)) none false, rfl, rfl, ?_⟩
        rw [Work.makeJob_ended, answer, normalizeError, if_neg hinterrupt]
        rfl
  | panicked payload => exact ⟨rfl, hclean, Work.ran j (.panicked payload) none false, rfl, rfl, rfl⟩

/-- A job that panics is followed by its health check, whose answer `makeJob` does not read. -/
lemma runLoop_checked {w : Work J Unit V} {events : List (Event J V)} (habort : w.abort = false)
    (hmake : makeJob w () = (.panicked, (), events)) (ok : Bool) :
    runLoop false [.job { w with healthy := fun _ => ok }] () =
      ⟨events ++ [.health ok], (), if ok then none else some .unhealthy⟩ := by
  have hsame : makeJob { w with healthy := fun _ => ok } () = (.panicked, (), events) := hmake
  refine (runLoop_panicked (w := { w with healthy := fun _ => ok }) habort hsame).trans ?_
  cases ok with
  | true => simp [runLoop, LoopRun.after]
  | false => rfl

/-! ## The positions of the loop -/

section

variable {s t : State J K V} {requests : List (Request (Work J Unit V))}
  {shown trace : List (Event J V)}

lemma Served.midway_loadAbort (hi : Served s requests shown) (j : J) :
    Midway (∀ w, .job w ∈ requests → w.abort = false) s.abort [.job j] ([] : List (Event J V))
      (if s.abort then .discard j else .queuedCheck j) := by
  cases habort : s.abort with
  | true => exact ⟨rfl, rfl, rfl⟩
  | false =>
    refine ⟨rfl, rfl, fun w hw => ?_⟩
    by_contra h
    rw [hi.abort w hw (Bool.eq_true_of_not_eq_false h)] at habort
    cases habort

lemma midway_queuedCheck {clean : Prop} (hclean : clean) (abort : Bool) (j : J)
    (token : CancelToken) : Midway clean abort [.job j] ([] : List (Event J V))
      (match token.fired with
        | some err => .respond j (.error err) .completed
        | none => .attachStore j) := by
  cases hfired : token.fired with
  | none => exact ⟨rfl, rfl, hclean⟩
  | some err =>
    obtain ⟨reason, -, rfl⟩ := CancelToken.fired_eq_some.mp hfired
    exact ⟨rfl, hclean, Work.unrun j (some reason) false, rfl, rfl, rfl⟩

lemma midway_normalizeToken {clean : Prop} (hclean : clean) (abort : Bool) (j : J)
    {e : RusqliteError} (hinterrupt : IsleError.isInterrupt e = true) (token : CancelToken) :
    Midway clean abort [.job j] ([.attach j, .invoke j, .detach j] : List (Event J V))
      (match token.fired with
        | some err => .respond j (.error err) .completed
        | none => .normalizeAbort j e) := by
  cases hfired : token.fired with
  | none => exact ⟨rfl, rfl, hclean, hinterrupt⟩
  | some err =>
    obtain ⟨reason, -, rfl⟩ := CancelToken.fired_eq_some.mp hfired
    refine ⟨rfl, hclean, Work.ran j (.returned (.error e)) (some reason) false, rfl, rfl, ?_⟩
    rw [Work.makeJob_ended, answer, normalizeError, if_pos hinterrupt]
    rfl

lemma midway_normalizeAbort {clean : Prop} (hclean : clean) (abort : Bool) (j : J)
    {e : RusqliteError} (hinterrupt : IsleError.isInterrupt e = true) :
    Midway clean abort [.job j] ([.attach j, .invoke j, .detach j] : List (Event J V))
      (.respond j (.error (if abort then .closed else .sqlite e)) .completed) := by
  refine ⟨rfl, hclean, Work.ran j (.returned (.error e)) none abort, rfl, rfl, ?_⟩
  rw [Work.makeJob_ended, answer, normalizeError, if_pos hinterrupt]
  rfl

namespace Loops

lemma respond (hi : Loops s trace) {j : J} {r : Except IsleError V} {outcome : JobOutcome}
    (hpc : s.pc = .respond j r outcome) (hpc' : t.pc = Pc.afterJob outcome)
    (hrec : t.chan.received = s.chan.received) (habort' : t.abort = s.abort) :
    Loops t (trace ++ [.respond j r]) := by
  obtain ⟨requests, shown, tail, last, hat⟩ := hi.at_pc hpc rfl
  obtain ⟨rfl, hclean, w, rfl, habort, hmake⟩ := hat.mid
  cases outcome with
  | completed =>
    refine hat.done (fun _ => hclean) (fun h => ?_) ?_ hrec habort' hpc'
    · rw [habort] at h
      cases h
    · rw [runLoop_completed habort hmake]
      simp [runLoop, LoopRun.after]
  | panicked =>
    refine hat.goes (hrec.trans hat.received) habort' rfl ?_
    rw [hpc']
    exact ⟨hclean, w, rfl, habort, hmake⟩

lemma healthPass (hi : Loops s trace) (hpc : s.pc = .healthFinish) (hpc' : t.pc = .next)
    (hrec : t.chan.received = s.chan.received) (habort' : t.abort = s.abort) :
    Loops t (trace ++ [.health true]) := by
  obtain ⟨requests, shown, tail, last, hat⟩ := hi.at_pc hpc rfl
  obtain ⟨hclean, w, rfl, habort, hmake⟩ := hat.mid
  refine At.done (w := { w with healthy := fun _ => true }) hat (fun _ => hclean) (fun h => ?_)
    (runLoop_checked habort hmake true) hrec habort' hpc'
  rw [show w.abort = true from h] at habort
  cases habort

lemma healthFail (hi : Loops s trace) (hpc : s.pc = .healthFinish)
    (hpc' : t.pc = .exited .unhealthy) (hrec : t.chan.received = s.chan.received) :
    Loops t (trace ++ [.health false]) := by
  obtain ⟨requests, shown, tail, last, hat⟩ := hi.at_pc hpc rfl
  obtain ⟨hclean, w, rfl, habort, hmake⟩ := hat.mid
  refine .returned ⟨requests ++ [.job { w with healthy := fun _ => false }], false,
    hat.served.sticky_append (fun _ => hclean)⟩ .unhealthy (by rw [hpc']; rfl) ?_ ?_
  · rw [hrec, received_append]
    exact hat.received
  · rw [runLoop_append hat.served.run, runLoop_checked habort hmake, hat.trace, List.append_assoc]
    rfl

lemma stopped (hi : Loops s trace) (hpc : s.pc = .next) (hpc' : t.pc = .exited .shutdown)
    (hrec : t.chan.received = s.chan.received ++ [.shutdown]) : Loops t (trace ++ []) := by
  obtain ⟨requests, shown, tail, last, hat⟩ := hi.at_pc hpc rfl
  obtain ⟨rfl, rfl⟩ := hat.mid
  have hsticky : Sticky (requests ++ [.shutdown]) := by
    refine hat.served.sticky_append ?_
    rintro ⟨w, hw, -⟩
    cases hw
  refine .returned ⟨requests ++ [.shutdown], false, hsticky⟩ .shutdown (by rw [hpc']; rfl) ?_ ?_
  · rw [hrec, hat.received, received_append, List.append_nil]
    rfl
  · have hrun := runLoop_append hat.served.run false [.shutdown]
    rw [hrun, hat.trace, List.append_nil]
    rfl

lemma disconnected (hi : Loops s trace) (hpc : s.pc = .next)
    (hpc' : t.pc = .exited .disconnected) (hrec : t.chan.received = s.chan.received) :
    Loops t (trace ++ []) := by
  obtain ⟨requests, shown, tail, last, hat⟩ := hi.at_pc hpc rfl
  obtain ⟨rfl, rfl⟩ := hat.mid
  refine .returned ⟨requests, true, hat.served.sticky⟩ .disconnected (by rw [hpc']; rfl) ?_ ?_
  · rw [hrec, hat.received, List.append_nil]
  · have hrun := runLoop_append hat.served.run true []
    rw [List.append_nil] at hrun
    rw [hrun, hat.trace, List.append_nil]
    rfl

end Loops

end

theorem loops_step {s t : State J K V} {l : Label J K V} {trace : List (Event J V)}
    (hi : Loops s trace) (hs : Step cfg s l t) : Loops t (trace ++ s.shown l) := by
  cases hs with
  | recvJob hpc hpop =>
    obtain ⟨requests, shown, tail, last, hat⟩ := hi.at_pc hpc rfl
    obtain ⟨rfl, rfl⟩ := hat.mid
    have hrec := (Fifo.pop?_some hpop).received
    rw [hat.received, List.append_nil] at hrec
    exact hat.goes hrec rfl rfl ⟨rfl, rfl⟩
  | @loadAbort j hpc =>
    obtain ⟨requests, shown, tail, last, hat⟩ := hi.at_pc hpc rfl
    obtain ⟨rfl, rfl⟩ := hat.mid
    exact hat.goes hat.received rfl rfl (hat.served.midway_loadAbort j)
  | @discard j hpc =>
    obtain ⟨requests, shown, tail, last, hat⟩ := hi.at_pc hpc rfl
    obtain ⟨rfl, rfl, habort⟩ := hat.mid
    exact At.done (w := Work.unrun j none true) hat (fun h => by cases h) (fun _ => habort) rfl rfl
      rfl rfl
  | @queuedCheck j hpc =>
    obtain ⟨requests, shown, tail, last, hat⟩ := hi.at_pc hpc rfl
    obtain ⟨rfl, rfl, hclean⟩ := hat.mid
    exact hat.goes hat.received rfl rfl (midway_queuedCheck hclean s.abort j _)
  | attachCheckNone hpc hstate | attachCheckFired hpc hstate =>
    obtain ⟨requests, shown, tail, last, hat⟩ := hi.at_pc hpc rfl
    obtain ⟨rfl, rfl, hclean⟩ := hat.mid
    exact hat.goes hat.received rfl (by simp [State.shown, hstate]) ⟨rfl, rfl, hclean⟩
  | attachStore hpc | attachInterrupt hpc | stmtStart hpc | stmtComplete hpc | stmtFail hpc
  | stmtAbort hpc | closureRet hpc | closurePanic hpc =>
    obtain ⟨requests, shown, tail, last, hat⟩ := hi.at_pc hpc rfl
    obtain ⟨rfl, rfl, hclean⟩ := hat.mid
    exact hat.goes hat.received rfl rfl ⟨rfl, rfl, hclean⟩
  | @detach j result hpc =>
    obtain ⟨requests, shown, tail, last, hat⟩ := hi.at_pc hpc rfl
    obtain ⟨rfl, rfl, hclean⟩ := hat.mid
    exact hat.goes hat.received rfl rfl (midway_afterDetach hclean s.abort j result)
  | @normalizeToken j e hpc =>
    obtain ⟨requests, shown, tail, last, hat⟩ := hi.at_pc hpc rfl
    obtain ⟨rfl, rfl, hclean, hinterrupt⟩ := hat.mid
    exact hat.goes hat.received rfl rfl (midway_normalizeToken hclean s.abort j hinterrupt _)
  | @normalizeAbort j e hpc =>
    obtain ⟨requests, shown, tail, last, hat⟩ := hi.at_pc hpc rfl
    obtain ⟨rfl, rfl, hclean, hinterrupt⟩ := hat.mid
    exact hat.goes hat.received rfl rfl (midway_normalizeAbort hclean s.abort j hinterrupt)
  | @respond j r outcome hpc =>
    have hshown : s.shown (.respond j) = [.respond j r] := by simp [State.shown, hpc]
    rw [hshown]
    exact hi.respond hpc rfl rfl rfl
  | healthStart hpc =>
    obtain ⟨requests, shown, tail, last, hat⟩ := hi.at_pc hpc rfl
    exact hat.goes hat.received rfl (List.append_nil _) hat.mid
  | healthPass hpc => exact hi.healthPass hpc rfl rfl rfl
  | healthFail hpc => exact hi.healthFail hpc rfl rfl
  | recvShutdown hpc hpop => exact hi.stopped hpc rfl (Fifo.pop?_some hpop).received
  | recvDisconnected hpc => exact hi.disconnected hpc rfl rfl
  | signalDone _ hpc => exact hi.closing (by rw [hpc]; rfl) rfl rfl
  | threadFinish hpc =>
    rcases hpc with ⟨-, hpc⟩ | hpc
    · exact hi.closing (by rw [hpc]; rfl) rfl rfl
    · exact hi.closing (by rw [hpc]; rfl) rfl rfl
  | enqueue _ hpush | dropIsleSent _ _ _ _ hpush | shutSend _ hpush | driverSend _ hpush =>
    exact hi.aside rfl (Fifo.push?_some hpush).received id
  | driverStore => exact hi.aside rfl rfl (fun _ => rfl)
  | _ => exact hi.aside rfl rfl id

theorem loops_of_shows {s : State J K V} {trace : List (Event J V)}
    (h : (isle cfg).Shows State.shown trace s) : Loops s trace := by
  refine TransitionSystem.Shows.invariant (I := fun trace s => Loops s trace) ?_
    (fun _ _ _ _ => loops_step) h
  have hserved : Served (State.init cfg : State J K V) [] [] := by
    refine ⟨List.Pairwise.nil, rfl, fun w hw => ?_⟩
    cases hw
  exact .serving ⟨hserved, rfl, rfl, rfl, rfl⟩

/-- Whenever the thread is at its receive, or its loop has returned, what it has done since the
beginning is a run of the loop on the requests it has received. -/
theorem isle_runs_loop {s : State J K V} {trace : List (Event J V)}
    (h : (isle cfg).Shows State.shown trace s) (hpc : s.pc = .next ∨ s.pc.exit? ≠ none) :
    ∃ script : Script J Unit V, received script.requests = s.chan.received ∧
      runLoop script.disconnected script.requests () = ⟨trace, (), s.pc.exit?⟩ := by
  cases loops_of_shows h with
  | @serving requests shown tail last hat =>
    rcases hpc with hpc | hexit
    · have hmid := hat.mid
      rw [hpc] at hmid
      obtain ⟨rfl, rfl⟩ := hmid
      obtain ⟨⟨hsticky, hrun, -⟩, hrec, htrace, -⟩ := hat
      have hexit : s.pc.exit? = none := by rw [hpc]; rfl
      rw [List.append_nil] at hrec htrace
      exact ⟨⟨requests, false, hsticky⟩, hrec.symm, by rw [hrun, htrace, hexit]⟩
    · exact absurd hat.exit?_eq_none hexit
  | returned script why hexit hrec hrun =>
    rw [hexit]
    exact ⟨script, hrec.symm, hrun⟩

/-- No closure of an isle is entered between a panic and a health check that has succeeded, and
none after one that has failed. -/
theorem isle_checked {s : State J K V} {trace : List (Event J V)}
    (h : (isle cfg).Shows State.shown trace s) (hpc : s.pc = .next ∨ s.pc.exit? ≠ none) :
    Checked trace := by
  obtain ⟨script, -, hrun⟩ := isle_runs_loop h hpc
  have horderly := orderly_runLoop script.disconnected script.requests ()
  rw [hrun] at horderly
  exact horderly.checked

end RusqliteIsle
