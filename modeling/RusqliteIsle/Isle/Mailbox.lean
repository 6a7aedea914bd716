import RusqliteIsle.Isle.System

/-!
# The mailbox of an isle

What an isle is as a queue: requests are accepted at the tail, one job at a time is
taken from the head, and the thread stops at the first `Shutdown`, at the disconnection
of the channel, or after a failed health check. The mailbox forgets tokens, statements
and results. Its invariants give the order in which jobs are served; the isle simulates it.
-/

namespace RusqliteIsle

variable {J : Type}

def Request.job? : Request J → Option J
  | .job j => some j
  | .shutdown => none

/-- The jobs among the requests. -/
def jobsOf (l : List (Request J)) : List J := l.filterMap Request.job?

/-- The jobs ahead of the first `Shutdown`. -/
def jobsAhead : List (Request J) → List J
  | [] => []
  | .job j :: rest => j :: jobsAhead rest
  | .shutdown :: _ => []

@[simp] lemma jobsOf_append (l m : List (Request J)) : jobsOf (l ++ m) = jobsOf l ++ jobsOf m := by
  simp [jobsOf]

@[simp] lemma jobsOf_job (j : J) : jobsOf [Request.job j] = [j] := rfl

@[simp] lemma jobsOf_shutdown : jobsOf [(Request.shutdown : Request J)] = [] := rfl

@[simp] lemma mem_jobsOf {l : List (Request J)} {j : J} : j ∈ jobsOf l ↔ Request.job j ∈ l := by
  simp only [jobsOf, List.mem_filterMap]
  constructor
  · rintro ⟨r, hr, hj⟩
    cases r with
    | job i =>
      cases hj
      exact hr
    | shutdown => cases hj
  · intro h
    exact ⟨_, h, rfl⟩

lemma jobsAhead_map (js : List J) : jobsAhead (js.map Request.job) = js := by
  induction js with
  | nil => rfl
  | cons j js ih =>
    change j :: jobsAhead (js.map Request.job) = j :: js
    rw [ih]

lemma jobsAhead_map_shutdown (js : List J) (rest : List (Request J)) :
    jobsAhead (js.map Request.job ++ Request.shutdown :: rest) = js := by
  induction js with
  | nil => rfl
  | cons j js ih =>
    change j :: jobsAhead (js.map Request.job ++ Request.shutdown :: rest) = j :: js
    rw [ih]

/-- The queue of an isle, the job its thread holds, and why its loop has ended. -/
structure Mailbox (J : Type) where
  chan : Fifo (Request J)
  current : Option J
  exit : Option Exit
  gone : Bool

namespace Mailbox

inductive Event (J : Type) where
  | accept (r : Request J)
  | take (j : J)
  | release
  | stop
  | disconnect
  | fail
  | close
  | leave

inductive Step : Mailbox J → Event J → Mailbox J → Prop
  | accept {m : Mailbox J} {r : Request J} {ch : Fifo (Request J)} {w : Bool}
      (hgone : m.gone = false) (hnew : ∀ j, r = .job j → r ∉ m.chan.sent)
      (hpush : m.chan.push? w r = some ch) : Step m (.accept r) { m with chan := ch }
  | take {m : Mailbox J} {j : J} {ch : Fifo (Request J)} (hfree : m.current = none)
      (hexit : m.exit = none) (hpop : m.chan.pop? = some (.job j, ch)) :
      Step m (.take j) { m with chan := ch, current := some j }
  | release {m : Mailbox J} (hexit : m.exit = none) : Step m .release { m with current := none }
  | stop {m : Mailbox J} {ch : Fifo (Request J)} (hfree : m.current = none)
      (hexit : m.exit = none) (hpop : m.chan.pop? = some (.shutdown, ch)) :
      Step m .stop { m with chan := ch, exit := some .shutdown }
  | disconnect {m : Mailbox J} (hfree : m.current = none) (hexit : m.exit = none)
      (hgone : m.gone = true) (hempty : m.chan.buffer = []) (halive : m.chan.alive = true) :
      Step m .disconnect { m with exit := some .disconnected }
  | fail {m : Mailbox J} (hfree : m.current = none) (hexit : m.exit = none) :
      Step m .fail { m with exit := some .unhealthy }
  | close {m : Mailbox J} (hexit : m.exit ≠ none) : Step m .close { m with chan := m.chan.close }
  | leave {m : Mailbox J} : Step m .leave { m with gone := true }

/-- The mailbox as a system, starting with an empty channel. -/
def system (cap : ℕ) : TransitionSystem (Mailbox J) (Event J) where
  init := ⟨Fifo.empty cap, none, none, false⟩
  step := Step

/-- What was received is a list of jobs, followed by the `Shutdown` that ended the loop. -/
structure Inv (m : Mailbox J) : Prop where
  nodup : (jobsOf m.chan.sent).Nodup
  current : ∀ j, m.current = some j → Request.job j ∈ m.chan.received
  free : m.exit ≠ none → m.current = none
  running : m.exit ≠ some .shutdown → m.chan.received = (jobsOf m.chan.received).map .job
  stopped : m.exit = some .shutdown →
    m.chan.received = (jobsOf m.chan.received).map .job ++ [.shutdown]
  disconnected : m.exit = some .disconnected → m.gone = true ∧ m.chan.received = m.chan.sent

lemma inv_step {m n : Mailbox J} {e : Event J} (hi : Inv m) (hs : Step m e n) : Inv n := by
  cases hs with
  | @accept r ch w hgone hnew hpush =>
    have hp := Fifo.push?_some hpush
    refine ⟨?_, ?_, hi.free, ?_, ?_, ?_⟩
    · dsimp only
      rw [hp.sent, jobsOf_append]
      cases r with
      | job j =>
        have hj : j ∉ jobsOf m.chan.sent := by simpa using hnew j rfl
        exact hi.nodup.append (by simp) (by simpa using hj)
      | shutdown => simpa using hi.nodup
    · simpa only [hp.received] using hi.current
    · simpa only [hp.received] using hi.running
    · simpa only [hp.received] using hi.stopped
    · intro hd
      have h := (hi.disconnected hd).1
      rw [hgone] at h
      cases h
  | @take j ch hfree hexit hpop =>
    have hp := Fifo.pop?_some hpop
    have hrun := hi.running (by simp [hexit])
    refine ⟨by simpa only [hp.sent] using hi.nodup, ?_, by simp [hexit], ?_, by simp [hexit],
      by simp [hexit]⟩
    · intro i h
      cases h
      simp [hp.received]
    · intro _
      dsimp only
      rw [hp.received, jobsOf_append, List.map_append, ← hrun]
      rfl
  | release hexit =>
    exact ⟨hi.nodup, by simp, fun _ => rfl, hi.running, hi.stopped, hi.disconnected⟩
  | @stop ch hfree hexit hpop =>
    have hp := Fifo.pop?_some hpop
    have hrun := hi.running (by simp [hexit])
    refine ⟨by simpa only [hp.sent] using hi.nodup, by simp [hfree], fun _ => hfree, by simp, ?_,
      by simp⟩
    intro _
    dsimp only
    rw [hp.received, jobsOf_append, jobsOf_shutdown, List.append_nil, ← hrun]
  | disconnect hfree hexit hgone hempty halive =>
    refine ⟨hi.nodup, hi.current, fun _ => hfree, fun _ => hi.running (by simp [hexit]), by simp,
      fun _ => ⟨hgone, ?_⟩⟩
    have h := m.chan.received_append_buffer halive
    rwa [hempty, List.append_nil] at h
  | fail hfree hexit =>
    exact ⟨hi.nodup, hi.current, fun _ => hfree, fun _ => hi.running (by simp [hexit]), by simp,
      by simp⟩
  | close hexit =>
    exact ⟨hi.nodup, hi.current, hi.free, hi.running, hi.stopped, hi.disconnected⟩
  | leave =>
    exact ⟨hi.nodup, hi.current, hi.free, hi.running, hi.stopped,
      fun hd => ⟨rfl, (hi.disconnected hd).2⟩⟩

theorem inv_reachable {cap : ℕ} {m : Mailbox J} (h : (system cap).Reachable m) : Inv m := by
  refine TransitionSystem.Reachable.invariant (I := Inv) ?_ (fun s l t hi hs => inv_step hi hs) h
  exact ⟨by simp [system, jobsOf], by simp [system], by simp [system], by simp [system, jobsOf],
    by simp [system], by simp [system]⟩

/-- A loop that ended at a `Shutdown` or at the disconnection took the jobs ahead of the first
`Shutdown`, in the order in which they were sent. -/
theorem Inv.drained {m : Mailbox J} (hi : Inv m)
    (hexit : m.exit = some .shutdown ∨ m.exit = some .disconnected) :
    jobsOf m.chan.received = jobsAhead m.chan.sent := by
  rcases hexit with hexit | hexit
  · have hrec := hi.stopped hexit
    rw [m.chan.history, List.append_assoc]
    conv_rhs => rw [hrec, List.append_assoc]
    exact (jobsAhead_map_shutdown _ _).symm
  · have hrec := hi.running (by simp [hexit])
    rw [← (hi.disconnected hexit).2]
    conv_rhs => rw [hrec]
    exact (jobsAhead_map _).symm

lemma Inv.not_received {m : Mailbox J} (hi : Inv m) {j : J}
    (h : Request.job j ∈ m.chan.buffer ++ m.chan.lost) : Request.job j ∉ m.chan.received := by
  intro hr
  have hn := hi.nodup
  rw [m.chan.history, List.append_assoc, jobsOf_append] at hn
  exact List.disjoint_of_nodup_append hn (mem_jobsOf.mpr hr) (mem_jobsOf.mpr h)

end Mailbox

end RusqliteIsle
