import RusqliteIsle.Isle.Frame

/-!
# The life of a job

A job is queued, taken by the thread, checked, run at most once and answered at most once.
`Explains` says what each result means for the closure of the job. The invariant `Life`
relates the history of a job to the place the job is at: not yet taken, held by the thread,
or left behind by it.
-/

namespace RusqliteIsle

set_option linter.unusedSectionVars false

variable {J K V : Type} [DecidableEq J] [DecidableEq K] {cfg : Config J V}

namespace History

/-- The closure was not entered, after this many queued-stage checks. -/
structure Unrun (h : History V) (checks : ℕ) : Prop where
  checks : h.checks = checks
  invoked : h.invoked = 0
  ended : h.ended = none
  started : h.started = 0
  completed : h.completed = 0
  abortRead : h.abortRead = none
  responses : h.responses = 0

/-- The closure was entered once and has not been answered yet. -/
structure Ran (h : History V) (ended : Option (Caught V)) (tokenRead : Option (Option FireReason)) :
    Prop where
  checks : h.checks = 1
  invoked : h.invoked = 1
  ended : h.ended = ended
  tokenRead : h.tokenRead = tokenRead
  abortRead : h.abortRead = none
  responses : h.responses = 0

/-- The closure was entered once and returned `SQLITE_INTERRUPT`. -/
def Interrupted (h : History V) : Prop :=
  h.invoked = 1 ∧ ∃ e, h.ended = some (.returned (.error e)) ∧ IsleError.isInterrupt e = true

end History

/-- What a result says about the closure. -/
def Explains (h : History V) : Except IsleError V → Prop
  | .ok v => h.invoked = 1 ∧ h.ended = some (.returned (.ok v))
  | .error (.sqlite e) => h.invoked = 1 ∧ h.ended = some (.returned (.error e)) ∧
      (IsleError.isInterrupt e = true → h.tokenRead = some none ∧ h.abortRead = some false)
  | .error (.panicked message) => h.invoked = 1 ∧ ∃ payload,
      h.ended = some (.panicked payload) ∧ panicMessage payload = message
  | .error .cancelled => h.fires.head? = some .cancelled ∧ (h.invoked = 0 ∨ h.Interrupted)
  | .error .timeout => h.fires.head? = some .timeout ∧ (h.invoked = 0 ∨ h.Interrupted)
  | .error .closed => h.invoked = 0 ∨ h.Interrupted ∧ h.abortRead = some true
  | .error .queueFull => h.invoked = 0

/-- A response: it is explained, and it is the error of the token if the closure was skipped. -/
structure Answers (h : History V) (r : Except IsleError V) : Prop where
  explains : Explains h r
  skipped : h.invoked = 0 → ∃ reason, h.fires.head? = some reason ∧ r = .error reason.error

/-- What the history of the job at a position of the thread looks like. -/
def Agrees (h : History V) (abort : Bool) : Pc J V → Prop
  | .loadAbort _ | .queuedCheck _ => h.Unrun 0
  | .discard _ => h.Unrun 0 ∧ abort = true
  | .attachStore _ | .attachCheck _ | .attachInterrupt _ => h.Unrun 1
  | .closure _ _ => h.Ran none h.tokenRead
  | .detach _ result => h.Ran (some result) h.tokenRead
  | .normalizeToken _ e =>
      h.Ran (some (.returned (.error e))) h.tokenRead ∧ IsleError.isInterrupt e = true
  | .normalizeAbort _ e =>
      h.Ran (some (.returned (.error e))) (some none) ∧ IsleError.isInterrupt e = true
  | .respond _ r _ => h.responses = 0 ∧ Answers h r
  | _ => True

/-- A job that the thread has left was answered once, or discarded while aborting. -/
def Settled (h : History V) (p : Response V) (abort : Bool) : Prop :=
  (h.responses = 1 ∧ ∃ r, p = .answered r ∧ Answers h r) ∨
    (h.Unrun 0 ∧ p = .dropped ∧ abort = true)

/-- What the caller of a job has seen came from a refusal or from the response channel. -/
def Seen (job : Job V) (r : Except IsleError V) : Prop :=
  (∃ e, job.submission = .refused e ∧ r = .error e ∧ (e = .closed ∨ e = .queueFull)) ∨
    (job.submission = .accepted ∧ job.response.wait = some r)

lemma Seen.congr {job job' : Job V} {r : Except IsleError V} (h : Seen job r)
    (hsub : job'.submission = job.submission) (hresp : job'.response = job.response) :
    Seen job' r := by
  unfold Seen at *
  rw [hsub, hresp]
  exact h

structure Life (s : State J K V) (j : J) : Prop where
  fires : (s.history j).fires.head? = (s.jobs j).token.state
  waiting : Request.job j ∉ s.chan.received →
    (s.history j).Unrun 0 ∧ ∀ r, (s.jobs j).response ≠ .answered r
  queued : Request.job j ∈ s.chan.buffer → (s.jobs j).response = .pending
  current : s.pc.job? = some j →
    (s.jobs j).response = .pending ∧ Agrees (s.history j) s.abort s.pc
  settled : Request.job j ∈ s.chan.received → s.pc.job? ≠ some j →
    Settled (s.history j) (s.jobs j).response s.abort
  unsent : (s.jobs j).submission = .unborn ∨ (s.jobs j).submission = .sending →
    (s.jobs j).response = .pending ∧ (s.jobs j).observed = none
  seen : ∀ r, (s.jobs j).observed = some r → Seen (s.jobs j) r

lemma life_init (j : J) : Life (State.init cfg : State J K V) j := by
  constructor <;> simp [State.init, Job.unborn, History.blank, Pc.job?, CancelToken.new, Fifo.empty]
  exact ⟨rfl, rfl, rfl, rfl, rfl, rfl, rfl⟩

lemma Explains.congr {h h' : History V} {r : Except IsleError V} (he : Explains h r)
    (hfires : ∀ a, h.fires.head? = some a → h'.fires.head? = some a)
    (hinvoked : h'.invoked = h.invoked) (hended : h'.ended = h.ended)
    (htoken : h'.tokenRead = h.tokenRead) (habort : h'.abortRead = h.abortRead) :
    Explains h' r := by
  unfold Explains History.Interrupted at *
  rw [hinvoked, hended, htoken, habort]
  cases r with
  | ok v => exact he
  | error err =>
    cases err with
    | cancelled | timeout => exact he.imp_left (hfires _)
    | _ => exact he

lemma Answers.congr {h h' : History V} {r : Except IsleError V} (ha : Answers h r)
    (hfires : ∀ a, h.fires.head? = some a → h'.fires.head? = some a)
    (hinvoked : h'.invoked = h.invoked) (hended : h'.ended = h.ended)
    (htoken : h'.tokenRead = h.tokenRead) (habort : h'.abortRead = h.abortRead) :
    Answers h' r := by
  refine ⟨ha.explains.congr hfires hinvoked hended htoken habort, fun h0 => ?_⟩
  obtain ⟨reason, hhead, hr⟩ := ha.skipped (hinvoked ▸ h0)
  exact ⟨reason, hfires _ hhead, hr⟩

lemma Answers.of_ran {h : History V} {r : Except IsleError V} (hran : h.invoked = 1)
    (he : Explains h r) : Answers h r :=
  ⟨he, fun h0 => by omega⟩

lemma answers_fired {h : History V} {token : CancelToken} {err : IsleError}
    (hfires : h.fires.head? = token.state) (herr : token.fired = some err)
    (hrun : h.invoked = 0 ∨ h.Interrupted) : Answers h (.error err) := by
  obtain ⟨reason, hstate, rfl⟩ := CancelToken.fired_eq_some.mp herr
  rw [hstate] at hfires
  refine ⟨?_, fun _ => ⟨reason, hfires, rfl⟩⟩
  cases reason with
  | cancelled => exact ⟨hfires, hrun⟩
  | timeout => exact ⟨hfires, hrun⟩

lemma Explains.not_invoked {h : History V} {r : Except IsleError V} (he : Explains h r)
    (hended : h.ended = none) : h.invoked = 0 := by
  have none_ne {c : Caught V} (h' : h.ended = some c) : h.invoked = 0 := by
    rw [hended] at h'
    cases h'
  have of_interrupted (h' : h.Interrupted) : h.invoked = 0 := none_ne h'.2.choose_spec.1
  cases r with
  | ok v => exact none_ne he.2
  | error err =>
    cases err with
    | sqlite e => exact none_ne he.2.1
    | panicked message => exact none_ne he.2.choose_spec.1
    | cancelled | timeout => exact he.2.elim id of_interrupted
    | closed => exact he.elim id (fun h' => of_interrupted h'.1)
    | queueFull => exact he

lemma Agrees.fire {h h' : History V} {abort abort' : Bool} {pc : Pc J V} (ha : Agrees h abort pc)
    (hh : h' = { h with fires := h'.fires, fired := h'.fired })
    (hfires : ∀ a, h.fires.head? = some a → h'.fires.head? = some a)
    (habort : abort = true → abort' = true) : Agrees h' abort' pc := by
  rw [hh]
  cases pc with
  | loadAbort | queuedCheck | attachStore | attachCheck | attachInterrupt =>
    exact ⟨ha.1, ha.2, ha.3, ha.4, ha.5, ha.6, ha.7⟩
  | discard =>
    obtain ⟨⟨h1, h2, h3, h4, h5, h6, h7⟩, hb⟩ := ha
    exact ⟨⟨h1, h2, h3, h4, h5, h6, h7⟩, habort hb⟩
  | closure | detach => exact ⟨ha.1, ha.2, ha.3, ha.4, ha.5, ha.6⟩
  | normalizeToken | normalizeAbort =>
    obtain ⟨⟨h1, h2, h3, h4, h5, h6⟩, hb⟩ := ha
    exact ⟨⟨h1, h2, h3, h4, h5, h6⟩, hb⟩
  | respond => exact ⟨ha.1, ha.2.congr hfires rfl rfl rfl rfl⟩
  | _ => trivial

lemma Settled.fire {h h' : History V} {abort abort' : Bool} {p : Response V}
    (hs : Settled h p abort) (hh : h' = { h with fires := h'.fires, fired := h'.fired })
    (hfires : ∀ a, h.fires.head? = some a → h'.fires.head? = some a)
    (habort : abort = true → abort' = true) : Settled h' p abort' := by
  rw [hh]
  rcases hs with ⟨hr, r, hp, he⟩ | ⟨⟨h1, h2, h3, h4, h5, h6, h7⟩, hp, hb⟩
  · exact Or.inl ⟨hr, r, hp, he.congr hfires rfl rfl rfl rfl⟩
  · exact Or.inr ⟨⟨h1, h2, h3, h4, h5, h6, h7⟩, hp, habort hb⟩

namespace Life

variable {s t : State J K V} {j : J}

lemma of_frame (hi : Life s j) (hf : Frame s t j) : Life t j := by
  refine ⟨?_, ?_, ?_, ?_, ?_, ?_, ?_⟩
  · rw [hf.history, hf.job]
    exact hi.fires
  · rw [hf.history, hf.job, hf.received]
    exact hi.waiting
  · rw [hf.job]
    exact fun h => hi.queued (hf.buffer h)
  · intro h
    obtain ⟨hp, ha⟩ := hi.current (hf.current h)
    rw [hf.history, hf.job, hf.pc (hf.current h)]
    exact ⟨hp, ha.fire rfl (fun _ => id) hf.abort⟩
  · intro h hn
    rw [hf.history, hf.job]
    refine (hi.settled (hf.received.mp h) (fun hs => hn ?_)).fire rfl (fun _ => id) hf.abort
    rw [hf.pc hs]
    exact hs
  · rw [hf.job]
    exact hi.unsent
  · rw [hf.job]
    exact hi.seen

lemma at_pc (hi : Life s j) {pc : Pc J V} (hpc : s.pc = pc) (hj : pc.job? = some j) :
    (s.jobs j).response = .pending ∧ Agrees (s.history j) s.abort pc := by
  subst hpc
  exact hi.current hj

lemma take (hi : Life s j) (hmail : s.mailbox.Inv) {ch : Fifo (Request J)}
    (hpop : s.chan.pop? = some (.job j, ch)) :
    Life { s with chan := ch, pc := .loadAbort j } j := by
  have hp := Fifo.pop?_some hpop
  have hbuf : Request.job j ∈ s.chan.buffer := by simp [hp.buffer]
  have hnot : Request.job j ∉ s.chan.received :=
    hmail.not_received (List.mem_append_left _ hbuf)
  have hrec : Request.job j ∈ ch.received := by simp [hp.received]
  have hpending := hi.queued hbuf
  exact ⟨hi.fires, fun h => absurd hrec h, fun _ => hpending,
    fun _ => ⟨hpending, (hi.waiting hnot).1⟩, fun _ h => absurd rfl h, hi.unsent, hi.seen⟩

lemma advance (hi : Life s j) (hmail : s.mailbox.Inv) {pc : Pc J V} {h : History V}
    (hpc : s.pc = pc) (hcur : pc.job? = some j) (hcur' : t.pc.job? = some j)
    (hchan : t.chan = s.chan) (hjob : t.jobs j = { s.jobs j with token := (t.jobs j).token })
    (hstate : (t.jobs j).token.state = (s.jobs j).token.state) (hhist : t.history j = h)
    (hfires : h.fires = (s.history j).fires)
    (hagree : Agrees (s.history j) s.abort pc → Agrees h t.abort t.pc) : Life t j := by
  obtain ⟨hpending, hag⟩ := hi.at_pc hpc hcur
  have hrec : Request.job j ∈ s.chan.received := hmail.current j (by rw [← hcur, ← hpc]; rfl)
  have hsub : (t.jobs j).submission = (s.jobs j).submission := by rw [hjob]
  have hresp : (t.jobs j).response = (s.jobs j).response := by rw [hjob]
  have hobs : (t.jobs j).observed = (s.jobs j).observed := by rw [hjob]
  have hpending' : (t.jobs j).response = .pending := hresp.trans hpending
  refine ⟨?_, ?_, fun _ => hpending', fun _ => ⟨hpending', hhist ▸ hagree hag⟩,
    fun _ h => absurd hcur' h, ?_, ?_⟩
  · rw [hhist, hfires, hstate]
    exact hi.fires
  · rw [hchan]
    exact fun h => absurd hrec h
  · rw [hsub, hresp, hobs]
    exact hi.unsent
  · rw [hobs]
    exact fun r hr => (hi.seen r hr).congr hsub hresp

lemma leave (hi : Life s j) (hlink : Link s) (hmail : s.mailbox.Inv) {pc : Pc J V}
    {h : History V} (hpc : s.pc = pc) (hcur : pc.job? = some j) (hcur' : t.pc.job? = none)
    (hchan : t.chan = s.chan) (hjob : t.jobs j = { s.jobs j with response := (t.jobs j).response })
    (hhist : t.history j = h) (hfires : h.fires = (s.history j).fires)
    (hsettled : Agrees (s.history j) s.abort pc → Settled h (t.jobs j).response t.abort) :
    Life t j := by
  obtain ⟨hpending, hag⟩ := hi.at_pc hpc hcur
  have hrec : Request.job j ∈ s.chan.received := hmail.current j (by rw [← hcur, ← hpc]; rfl)
  have hbuf : Request.job j ∉ s.chan.buffer := fun h =>
    hmail.not_received (List.mem_append_left _ h) hrec
  have hsub : (s.jobs j).submission = .accepted :=
    (hlink.accepted j).mp (Fifo.mem_sent_of_received hrec)
  have hnone : (s.jobs j).observed = none := by
    cases hobs : (s.jobs j).observed with
    | none => rfl
    | some r =>
      have hseen := hi.seen r hobs
      simp [Seen, hsub, hpending, Response.wait] at hseen
  have hsub' : (t.jobs j).submission = .accepted := by rw [hjob, hsub]
  rw [← hchan] at hrec hbuf
  refine ⟨?_, fun h => absurd hrec h, fun h => absurd h hbuf, ?_, fun _ _ => hhist ▸ hsettled hag,
    ?_, ?_⟩
  · rw [hhist, hfires, hjob]
    exact hi.fires
  · intro h
    rw [hcur'] at h
    cases h
  · rw [hsub']
    rintro (h | h) <;> cases h
  · intro r hr
    rw [hjob, hnone] at hr
    cases hr

lemma touch (hi : Life s j) (hpc : t.pc = s.pc) (hrec : t.chan.received = s.chan.received)
    (hbuf : Request.job j ∈ t.chan.buffer →
      Request.job j ∈ s.chan.buffer ∨ (t.jobs j).response = .pending)
    (habort : s.abort = true → t.abort = true)
    (hjob : t.jobs j = { s.jobs j with
      token := (t.jobs j).token, firing := (t.jobs j).firing, expired := (t.jobs j).expired
      holder := (t.jobs j).holder, submission := (t.jobs j).submission })
    (hsub : (s.jobs j).submission = .unborn ∨ (s.jobs j).submission = .sending ∨
      (t.jobs j).submission = (s.jobs j).submission)
    (hunsent : (t.jobs j).submission = .unborn ∨ (t.jobs j).submission = .sending →
      (s.jobs j).submission = .unborn ∨ (s.jobs j).submission = .sending)
    (hhist : t.history j =
      { s.history j with fires := (t.history j).fires, fired := (t.history j).fired })
    (hfires : (t.history j).fires.head? = (t.jobs j).token.state)
    (hmono : ∀ a, (s.history j).fires.head? = some a → (t.history j).fires.head? = some a) :
    Life t j := by
  have hresp : (t.jobs j).response = (s.jobs j).response := by rw [hjob]
  have hobs : (t.jobs j).observed = (s.jobs j).observed := by rw [hjob]
  refine ⟨hfires, ?_, ?_, ?_, ?_, ?_, ?_⟩
  · intro h
    rw [hrec] at h
    obtain ⟨⟨h1, h2, h3, h4, h5, h6, h7⟩, hr⟩ := hi.waiting h
    rw [hhist, hresp]
    exact ⟨⟨h1, h2, h3, h4, h5, h6, h7⟩, hr⟩
  · intro h
    rcases hbuf h with hb | hb
    · rw [hresp]
      exact hi.queued hb
    · exact hb
  · intro h
    rw [hpc] at h ⊢
    rw [hresp]
    exact ⟨(hi.current h).1, (hi.current h).2.fire hhist hmono habort⟩
  · intro h hn
    rw [hrec] at h
    rw [hpc] at hn
    rw [hresp]
    exact (hi.settled h hn).fire hhist hmono habort
  · intro h
    rw [hresp, hobs]
    exact hi.unsent (hunsent h)
  · intro r hr
    rw [hobs] at hr
    have hborn (h : (s.jobs j).submission = .unborn ∨ (s.jobs j).submission = .sending) :
        Seen (t.jobs j) r := by
      rw [(hi.unsent h).2] at hr
      cases hr
    rcases hsub with h | h | h
    · exact hborn (Or.inl h)
    · exact hborn (Or.inr h)
    · exact (hi.seen r hr).congr h hresp

lemma finish (hi : Life s j)
    (hqueued : Request.job j ∈ s.chan.buffer → Request.job j ∉ s.chan.received)
    (hacc : Request.job j ∈ s.chan.buffer → (s.jobs j).submission = .accepted)
    (hcur : s.pc.job? = none) (hcur' : t.pc.job? = none) (hchan : t.chan.buffer = [])
    (hrec : t.chan.received = s.chan.received) (habort : t.abort = s.abort)
    (hhist : t.history = s.history) (hjobs : t.jobs = s.dropQueued) : Life t j := by
  have hkept (h : Request.job j ∉ s.chan.buffer) : t.jobs j = s.jobs j := by
    rw [hjobs, State.dropQueued, if_neg h]
  refine ⟨?_, ?_, ?_, ?_, ?_, ?_, ?_⟩
  · rw [hhist, hjobs, State.dropQueued_token]
    exact hi.fires
  · rw [hrec, hhist]
    intro h
    refine ⟨(hi.waiting h).1, fun r hr => ?_⟩
    by_cases hb : Request.job j ∈ s.chan.buffer
    · rw [hjobs, State.dropQueued, if_pos hb] at hr
      cases hr
    · rw [hkept hb] at hr
      exact (hi.waiting h).2 r hr
  · rw [hchan]
    exact fun h => absurd h List.not_mem_nil
  · intro h
    rw [hcur'] at h
    cases h
  · rw [hrec, hhist, habort]
    intro h _
    have hnot : s.pc.job? ≠ some j := by simp [hcur]
    rw [hkept (fun hb => hqueued hb h)]
    exact hi.settled h hnot
  · intro h
    have hb : Request.job j ∉ s.chan.buffer := by
      intro hb
      rw [hjobs, State.dropQueued_submission, hacc hb] at h
      rcases h with h | h <;> cases h
    rw [hkept hb] at h ⊢
    exact hi.unsent h
  · intro r hr
    have hb : Request.job j ∉ s.chan.buffer := by
      intro hb
      rw [hjobs, State.dropQueued_observed] at hr
      rcases hi.seen r hr with ⟨e, hsub, -⟩ | ⟨-, hwait⟩
      · rw [hacc hb] at hsub
        cases hsub
      · rw [hi.queued hb] at hwait
        cases hwait
    rw [hkept hb] at hr ⊢
    exact hi.seen r hr

lemma fail (hi : Life s j) (hlink : Link s) (hmail : s.mailbox.Inv)
    (hsending : (s.jobs j).submission = .sending) (hchan : t.chan = s.chan) (hpc : t.pc = s.pc)
    (hhist : t.history j = s.history j) (htoken : (t.jobs j).token = (s.jobs j).token)
    (hresp : (t.jobs j).response = .dropped)
    (hsub : (t.jobs j).submission ≠ .unborn ∧ (t.jobs j).submission ≠ .sending)
    (hseen : ∀ r, (t.jobs j).observed = some r → Seen (t.jobs j) r) : Life t j := by
  have hsent : Request.job j ∉ s.chan.sent := by simp [hlink.accepted j, hsending]
  have hrec : Request.job j ∉ s.chan.received := fun h => hsent (Fifo.mem_sent_of_received h)
  refine ⟨?_, ?_, ?_, ?_, ?_, ?_, hseen⟩
  · rw [hhist, htoken]
    exact hi.fires
  · rw [hhist, hresp]
    exact fun _ => ⟨(hi.waiting hrec).1, by simp⟩
  · rw [hchan]
    exact fun h => absurd (Fifo.mem_sent_of_buffer h) hsent
  · rw [hpc]
    exact fun h => absurd (hmail.current j h) hrec
  · rw [hchan]
    exact fun h => absurd h hrec
  · rintro (h | h)
    · exact absurd h hsub.1
    · exact absurd h hsub.2

lemma see (hi : Life s j) {r : Except IsleError V} (hsub : (s.jobs j).submission = .accepted)
    (hwait : (s.jobs j).response.wait = some r) (hpc : t.pc = s.pc) (hchan : t.chan = s.chan)
    (habort : t.abort = s.abort) (hhist : t.history = s.history)
    (hjob : t.jobs j = { s.jobs j with observed := some r }) : Life t j := by
  constructor <;> simp only [hpc, hchan, habort, hhist, hjob]
  · exact hi.fires
  · exact hi.waiting
  · exact hi.queued
  · exact hi.current
  · exact hi.settled
  · rw [hsub]
    rintro (h | h) <;> cases h
  · intro r' hr
    cases hr
    exact Or.inr ⟨hsub, hwait⟩

end Life

lemma agrees_loadAbort {h : History V} {abort : Bool} {j : J} (hun : h.Unrun 0) :
    Agrees h abort (if abort then Pc.discard j else .queuedCheck j) := by
  cases abort with
  | true => exact ⟨hun, rfl⟩
  | false => exact hun

lemma agrees_queuedCheck {h : History V} {token : CancelToken} {abort : Bool} {j : J}
    (hfires : h.fires.head? = token.state) (hun : h.Unrun 0) :
    Agrees { h with checks := h.checks + 1 } abort (match token.fired with
      | some err => Pc.respond j (.error err) .completed
      | none => .attachStore j) := by
  cases hfired : token.fired with
  | none =>
    exact ⟨congrArg (· + 1) hun.checks, hun.invoked, hun.ended, hun.started, hun.completed,
      hun.abortRead, hun.responses⟩
  | some err => exact ⟨hun.responses, answers_fired hfires hfired (Or.inl hun.invoked)⟩

lemma agrees_invoke {h : History V} {abort : Bool} {j : J} (c : Closure V) (hun : h.Unrun 1) :
    Agrees { h with invoked := h.invoked + 1 } abort (.closure j c) :=
  ⟨hun.checks, congrArg (· + 1) hun.invoked, hun.ended, rfl, hun.abortRead, hun.responses⟩

lemma agrees_afterDetach {h : History V} {abort : Bool} {j : J} {result : Caught V}
    {tokenRead : Option (Option FireReason)} (hran : h.Ran (some result) tokenRead) :
    Agrees h abort (Pc.afterDetach j result) := by
  have hanswer {r : Except IsleError V} {outcome : JobOutcome} (he : Explains h r) :
      Agrees h abort (.respond j r outcome) := ⟨hran.responses, .of_ran hran.invoked he⟩
  cases result with
  | panicked payload => exact hanswer ⟨hran.invoked, payload, hran.ended, rfl⟩
  | returned r =>
    cases r with
    | ok v => exact hanswer ⟨hran.invoked, hran.ended⟩
    | error e =>
      by_cases he : IsleError.isInterrupt e = true
      · simp only [Pc.afterDetach, he, if_true]
        exact ⟨⟨hran.checks, hran.invoked, hran.ended, rfl, hran.abortRead, hran.responses⟩, he⟩
      · simp only [Pc.afterDetach, he]
        exact hanswer ⟨hran.invoked, hran.ended, fun h => absurd h he⟩

lemma agrees_normalizeToken {h : History V} {token : CancelToken} {abort : Bool} {j : J}
    {e : RusqliteError} (hfires : h.fires.head? = token.state)
    (hag : Agrees h abort (.normalizeToken j e)) :
    Agrees { h with tokenRead := some token.state } abort (match token.fired with
      | some err => Pc.respond j (.error err) .completed
      | none => .normalizeAbort j e) := by
  obtain ⟨hran, he⟩ := hag
  cases hfired : token.fired with
  | none =>
    have hread := congrArg some (CancelToken.fired_eq_none.mp hfired)
    exact ⟨⟨hran.checks, hran.invoked, hran.ended, hread, hran.abortRead, hran.responses⟩, he⟩
  | some err =>
    have hrun : h.Interrupted := ⟨hran.invoked, e, hran.ended, he⟩
    exact ⟨hran.responses, answers_fired hfires hfired (Or.inr hrun)⟩

lemma agrees_normalizeAbort {h : History V} {abort : Bool} {j : J} {e : RusqliteError}
    (hag : Agrees h abort (.normalizeAbort j e)) :
    Agrees { h with abortRead := some abort } abort
      (.respond j (.error (if abort then .closed else .sqlite e)) .completed) := by
  obtain ⟨hran, he⟩ := hag
  refine ⟨hran.responses, .of_ran hran.invoked ?_⟩
  cases abort with
  | true => exact Or.inr ⟨⟨hran.invoked, e, hran.ended, he⟩, rfl⟩
  | false => exact ⟨hran.invoked, hran.ended, fun _ => ⟨hran.tokenRead, rfl⟩⟩

lemma fires_beginFire {fires : List FireReason} {token : CancelToken}
    (h : fires.head? = token.state) (reason : FireReason) :
    (fires ++ [reason]).head? = (token.compareExchange reason).state := by
  rw [CancelToken.compareExchange_state, ← h]
  cases fires <;> rfl

lemma head?_append_of_some {α : Type*} {l : List α} {a : α} (h : l.head? = some a) (b : α) :
    (l ++ [b]).head? = some a := by
  cases l with
  | nil => cases h
  | cons c l => exact h

/-- The actions of the thread on the job that it holds. -/
def Label.serves : Label J K V → Bool
  | loadAbort _ | discard _ | queuedCheck _ | attachStore _ | attachCheck _ | attachInterrupt _
  | stmtStart _ | stmtFinish _ _ | closureEnd _ | detach _ | normalizeToken _ | normalizeAbort _
  | respond _ => true
  | _ => false

lemma life_serve {s t : State J K V} {l : Label J K V} {j : J} (hlink : Link s)
    (hmail : s.mailbox.Inv) (hi : Life s j) (hs : Step cfg s l t) (hl : l.job? = some j)
    (hserves : l.serves = true) : Life t j := by
  cases hs with
  | loadAbort hpc =>
    cases hl
    refine hi.advance hmail hpc rfl ?_ rfl rfl rfl rfl rfl agrees_loadAbort
    dsimp only
    split <;> rfl
  | queuedCheck hpc =>
    cases hl
    refine hi.advance hmail hpc rfl ?_ rfl rfl rfl (Function.update_self ..) rfl
      (agrees_queuedCheck hi.fires)
    dsimp only
    split <;> rfl
  | attachStore hpc | attachCheckFired hpc =>
    cases hl
    exact hi.advance hmail hpc rfl rfl rfl (by simp) (by simp) rfl rfl id
  | attachCheckNone hpc | attachInterrupt hpc =>
    cases hl
    exact hi.advance hmail hpc rfl rfl rfl rfl rfl (Function.update_self ..) rfl (agrees_invoke _)
  | stmtStart hpc | stmtComplete hpc =>
    cases hl
    exact hi.advance hmail hpc rfl rfl rfl rfl rfl (Function.update_self ..) rfl
      (fun ⟨h1, h2, h3, h4, h5, h6⟩ => ⟨h1, h2, h3, h4, h5, h6⟩)
  | closureRet hpc | closurePanic hpc =>
    cases hl
    exact hi.advance hmail hpc rfl rfl rfl rfl rfl (Function.update_self ..) rfl
      (fun ⟨h1, h2, _, h4, h5, h6⟩ => ⟨h1, h2, rfl, h4, h5, h6⟩)
  | stmtFail hpc | stmtAbort hpc =>
    cases hl
    exact hi.advance hmail hpc rfl rfl rfl rfl rfl rfl rfl id
  | detach hpc =>
    cases hl
    exact hi.advance hmail hpc rfl (Pc.afterDetach_job? _ _) rfl (by simp) (by simp) rfl rfl
      agrees_afterDetach
  | normalizeToken hpc =>
    cases hl
    refine hi.advance hmail hpc rfl ?_ rfl rfl rfl (Function.update_self ..) rfl
      (agrees_normalizeToken hi.fires)
    dsimp only
    split <;> rfl
  | normalizeAbort hpc =>
    cases hl
    exact hi.advance hmail hpc rfl rfl rfl rfl rfl (Function.update_self ..) rfl
      agrees_normalizeAbort
  | discard hpc =>
    cases hl
    refine hi.leave hlink hmail hpc rfl rfl rfl (by simp) rfl rfl ?_
    rintro ⟨hun, habort⟩
    exact Or.inr ⟨hun, by simp, habort⟩
  | @respond _ r outcome hpc =>
    cases hl
    refine hi.leave hlink hmail hpc rfl ?_ rfl (by simp) (Function.update_self ..) rfl ?_
    · cases outcome <;> rfl
    · rintro ⟨hresp, hex⟩
      exact Or.inl ⟨congrArg (· + 1) hresp, r, by simp, hex.congr (fun _ => id) rfl rfl rfl rfl⟩
  | _ => cases hserves

lemma life_step {s t : State J K V} {l : Label J K V} {j : J} (hlink : Link s)
    (hmail : s.mailbox.Inv) (hi : Life s j) (hs : Step cfg s l t) : Life t j := by
  have hstep := hs
  obtain rfl | hf | hl := step_about hs j
  · cases hs with
    | threadFinish hpc =>
      have hcur : s.pc.job? = none := by
        rcases hpc with ⟨_, hpc⟩ | hpc <;> rw [hpc] <;> rfl
      have hqueued (h : Request.job j ∈ s.chan.buffer) : Request.job j ∉ s.chan.received :=
        hmail.not_received (List.mem_append_left _ h)
      have hacc (h : Request.job j ∈ s.chan.buffer) : (s.jobs j).submission = .accepted :=
        (hlink.accepted j).mp (Fifo.mem_sent_of_buffer h)
      exact hi.finish hqueued hacc hcur rfl rfl rfl rfl rfl rfl
  · exact hi.of_frame hf
  cases hs with
  | recvJob _ hpop =>
    cases hl
    exact hi.take hmail hpop
  | submit hsub =>
    cases hl
    exact hi.touch rfl rfl Or.inl id (by simp) (by simp [hsub]) (by simp [hsub]) rfl
      (by simpa using hi.fires) (fun _ => id)
  | enqueue hsub hpush =>
    cases hl
    refine hi.touch rfl (Fifo.push?_some hpush).received (fun _ => Or.inr ?_) id (by simp)
      (by simp [hsub]) (by simp [hsub]) rfl (by simpa using hi.fires) (fun _ => id)
    simpa using (hi.unsent (.inr hsub)).1
  | refuseClosed hsub | refuseFull hsub | abandon _ hsub =>
    cases hl
    refine hi.fail hlink hmail hsub rfl rfl rfl (by simp [State.refuse]) (by simp [State.refuse])
      (by simp [State.refuse]) ?_
    simp [State.refuse, Seen, (hi.unsent (.inr hsub)).2]
  | observe hsub _ _ hwait =>
    cases hl
    exact hi.see hsub hwait rfl rfl rfl rfl (Function.update_self ..)
  | deadline | cancel | dropAsyncTask =>
    cases hl
    refine hi.touch rfl rfl Or.inl id (by simp [State.beginFire]) (by simp [State.beginFire])
      (by simp [State.beginFire]) (by simp [State.beginFire]) ?_ ?_
    · simp only [State.beginFire, Function.update_self]
      exact fires_beginFire hi.fires _
    · simp only [State.beginFire, Function.update_self]
      exact fun a h => head?_append_of_some h _
  | dropSyncTask | detachTask | fireInterrupt =>
    cases hl
    exact hi.touch rfl rfl Or.inl id (by simp) (by simp) (by simp) (by simp)
      (by simpa using hi.fires) (by simp)
  | loadAbort | discard | queuedCheck | attachStore | attachCheckNone | attachCheckFired
  | attachInterrupt | stmtStart | stmtComplete | stmtFail | stmtAbort | closureRet | closurePanic
  | detach | normalizeToken | normalizeAbort | respond =>
    exact life_serve hlink hmail hi hstep hl rfl
  | _ => cases hl

theorem life_reachable {s : State J K V} (h : (isle cfg).Reachable s) (j : J) : Life s j := by
  refine TransitionSystem.ReachableVia.invariant_of (J := fun s => Link s ∧ s.mailbox.Inv)
    (I := fun s => Life s j) (fun s hs => ⟨link_reachable hs, mailbox_inv hs⟩) (life_init j) ?_ h
  exact fun s l t hJ hi _ hs => life_step hJ.1 hJ.2 hi hs

lemma Life.answers {s : State J K V} {j : J} {r : Except IsleError V} (hi : Life s j)
    (hr : (s.jobs j).response = .answered r) : Answers (s.history j) r := by
  have hrec : Request.job j ∈ s.chan.received := by
    by_contra hrec
    exact (hi.waiting hrec).2 r hr
  have hcur : s.pc.job? ≠ some j := by
    intro hcur
    rw [(hi.current hcur).1] at hr
    cases hr
  rcases hi.settled hrec hcur with ⟨-, r', hp, hans⟩ | ⟨-, hp, -⟩
  · rw [hp] at hr
    cases hr
    exact hans
  · rw [hp] at hr
    cases hr

/-- A result that the channel or the submission gave to the caller is explained by the history. -/
lemma Life.explains {s : State J K V} {j : J} {r : Except IsleError V} (hi : Life s j)
    (hlink : Link s) (hr : Seen (s.jobs j) r) : Explains (s.history j) r := by
  have hunsent : Request.job j ∉ s.chan.received → (s.history j).invoked = 0 := fun h =>
    (hi.waiting h).1.invoked
  rcases hr with ⟨e, hsub, rfl, he⟩ | ⟨hsub, hwait⟩
  · have hrec : Request.job j ∉ s.chan.received := by
      intro h
      have hacc := (hlink.accepted j).mp (Fifo.mem_sent_of_received h)
      rw [hsub] at hacc
      cases hacc
    rcases he with rfl | rfl
    · exact Or.inl (hunsent hrec)
    · exact hunsent hrec
  · rcases Response.wait_eq_some hwait with hp | ⟨hp, rfl⟩
    · exact (hi.answers hp).explains
    · by_cases hrec : Request.job j ∈ s.chan.received
      · have hcur : s.pc.job? ≠ some j := by
          intro hcur
          rw [(hi.current hcur).1] at hp
          cases hp
        rcases hi.settled hrec hcur with ⟨-, r', hp', -⟩ | ⟨hun, -, -⟩
        · rw [hp] at hp'
          cases hp'
        · exact Or.inl hun.invoked
      · exact Or.inl (hunsent hrec)

lemma observed_step {s t : State J K V} {l : Label J K V} {j : J} {r : Except IsleError V}
    (hi : Life s j) (hs : Step cfg s l t) (hr : (s.jobs j).observed = some r) :
    (t.jobs j).observed = some r := by
  rcases (caller_step hs j).observed with hsame | ⟨-, hnone⟩ | ⟨hsending, -⟩
  · exact hsame.trans hr
  · rw [hnone] at hr
    cases hr
  · rw [(hi.unsent (.inr hsending)).2] at hr
    cases hr

/-- What a caller observes tells what happened to the closure, then and in every later state. -/
theorem observed_explains {s t : State J K V} {j : J} {r : Except IsleError V}
    (hs : (isle cfg).Reachable s) (hr : (s.jobs j).observed = some r) (ht : (isle cfg).Run s t) :
    Explains (t.history j) r := by
  have hobs : (t.jobs j).observed = some r :=
    TransitionSystem.RunVia.invariant_of (J := fun s => Life s j)
      (I := fun s => (s.jobs j).observed = some r) (fun s h => life_reachable h j)
      (fun s l t hi hr _ hst => observed_step hi hst hr) hs ht hr
  have hreach := hs.run ht
  have hlife := life_reachable hreach j
  exact hlife.explains (link_reachable hreach) (hlife.seen r hobs)

/-- A synchronous isle with two jobs that run one statement each. -/
def twoQueries : Config Bool ℕ where
  front := .sync
  cap := 2
  api := fun _ => .spawnCall
  prog := fun _ => Closure.ofStmts (·.headD 0) [] ["SELECT 1"]

/-- A synchronous isle with one job that runs one statement. -/
def oneJob : Config Unit ℕ where
  front := .sync
  cap := 1
  api := fun _ => .spawnCall
  prog := fun _ => Closure.ofStmts List.length [] ["SELECT 1"]

lemma oneJob_served : ∃ s : State Unit Unit ℕ, (isle oneJob).Reachable s ∧
    (s.jobs ()).observed = some (.ok 1) ∧ (s.history ()).invoked = 1 := by
  have h0 := TransitionSystem.Reachable.refl (T := isle (K := Unit) oneJob)
  have h1 := h0.tail (.submit (j := ()) rfl (by decide) rfl)
  have h2 := h1.tail (.enqueue (j := ()) rfl rfl)
  have h3 := h2.tail (.recvJob (j := ()) rfl rfl)
  have h4 := h3.tail (.loadAbort (j := ()) rfl)
  have h5 := h4.tail (.queuedCheck (j := ()) rfl)
  have h6 := h5.tail (.attachStore (j := ()) rfl)
  have h7 := h6.tail (.attachCheckNone (j := ()) rfl rfl)
  have h8 := h7.tail (.stmtStart (j := ()) rfl)
  have h9 := h8.tail (.stmtComplete (j := ()) (v := 1) rfl rfl)
  have h10 := h9.tail (.closureRet (j := ()) rfl)
  have h11 := h10.tail (.detach (j := ()) rfl)
  have h12 := h11.tail (.respond (j := ()) rfl)
  have h13 := h12.tail (.observe (j := ()) rfl rfl rfl rfl)
  exact ⟨_, h13, rfl, rfl⟩

theorem observed_explains_served : ∃ s : State Unit Unit ℕ,
    (s.jobs ()).observed = some (.ok 1) ∧ Explains (s.history ()) (.ok 1) := by
  obtain ⟨s, hs, hobs, -⟩ := oneJob_served
  exact ⟨s, hobs, observed_explains hs hobs (TransitionSystem.Run.refl s)⟩

end RusqliteIsle
