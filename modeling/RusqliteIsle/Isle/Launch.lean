import RusqliteIsle.Isle.Progress

/-!
# Spawning an isle

`spawn_inner` of both front-ends: a thread is created, opens the connection, sets the busy timeout,
runs the `init` closure, and reports to the spawner before it enters `run_loop`. The spawner waits
for the report. Only with a good report it has an isle to return; otherwise it joins the thread.

The future of the asynchronous front-end can be dropped while it waits. A panic on the thread drops
the sender of the report.
-/

namespace RusqliteIsle

set_option linter.unusedSectionVars false

/-- Default capacity for the bounded request channel. -/
def defaultChannelCapacity : ℕ := 256

/-- What to open on the SQLite thread. -/
inductive OpenTarget where
  | path (path : String)
  | inMemory

/-- `IsleBuilder` and `AsyncIsleBuilder`, over the type of `rusqlite::OpenFlags`. -/
structure IsleBuilder (F : Type) where
  channelCapacity : ℕ
  threadName : String
  busyTimeout : Option ℕ
  openFlags : Option F

def IsleBuilder.default (F : Type) : IsleBuilder F where
  channelCapacity := defaultChannelCapacity
  threadName := "rusqlite-isle"
  busyTimeout := none
  openFlags := none

def AsyncIsleBuilder.default (F : Type) : IsleBuilder F where
  channelCapacity := defaultChannelCapacity
  threadName := "rusqlite-isle-async"
  busyTimeout := none
  openFlags := none

/-- The functions of rusqlite that open and set up a connection. Each of them can panic. -/
structure Sqlite (σ F : Type) where
  openPath : String → Caught σ
  openWithFlags : String → F → Caught σ
  openInMemory : Caught σ
  busyTimeout : ℕ → σ → Caught Unit × σ

/-- The arguments of `spawn_inner`, and what will be submitted to the isle. -/
structure Launch (J V σ F : Type) where
  front : FrontEnd
  builder : IsleBuilder F
  target : OpenTarget
  init : σ → Caught Unit × σ
  api : J → Api
  prog : J → Closure V

section

variable {σ F J V : Type}

/-- The connection that the thread opens; the flags are for files only. -/
def Sqlite.opened (sqlite : Sqlite σ F) (flags : Option F) : OpenTarget → Caught σ
  | .path path =>
    match flags with
    | some flags => sqlite.openWithFlags path flags
    | none => sqlite.openPath path
  | .inMemory => sqlite.openInMemory

/-- `busy_timeout.map_or(Ok(()), |t| conn.busy_timeout(t))` -/
def Sqlite.setBusyTimeout (sqlite : Sqlite σ F) (conn : σ) : Option ℕ → Caught Unit × σ
  | some timeout => sqlite.busyTimeout timeout conn
  | none => (.returned (.ok ()), conn)

namespace Launch

/-- The isle that is launched. -/
def config (launch : Launch J V σ F) : Config J V where
  front := launch.front
  cap := launch.builder.channelCapacity
  api := launch.api
  prog := launch.prog

/-- Whether the request channel can be made: tokio's panics without capacity. The capacities that are
too large for either channel are left out. -/
def hasChannel (launch : Launch J V σ F) : Bool :=
  match launch.front with
  | .sync => true
  | .async => 0 < launch.builder.channelCapacity

/-- Whether the thread can be given its name: `Builder::spawn` panics on a nul byte. -/
def hasName (launch : Launch J V σ F) : Bool := !launch.builder.threadName.toList.contains '\x00'

lemma default_starts {launch : Launch J V σ F} (h : launch.builder = IsleBuilder.default F ∨
    launch.builder = AsyncIsleBuilder.default F) :
    launch.hasChannel = true ∧ launch.hasName = true := by
  have hname : launch.hasName = true := by
    rcases h with h | h <;> rw [hasName, h]
    · exact (by decide : (!"rusqlite-isle".toList.contains '\x00') = true)
    · exact (by decide : (!"rusqlite-isle-async".toList.contains '\x00') = true)
  have hcap : launch.builder.channelCapacity = defaultChannelCapacity := by
    rcases h with h | h <;> rw [h] <;> rfl
  refine ⟨?_, hname⟩
  cases hfront : launch.front <;> simp [hasChannel, hfront, hcap, defaultChannelCapacity]

/-- What the connection goes through before the loop, from the first to the last step. -/
def setup (launch : Launch J V σ F) (sqlite : Sqlite σ F) : Caught σ :=
  match sqlite.opened launch.builder.openFlags launch.target with
  | .panicked payload => .panicked payload
  | .returned (.error e) => .returned (.error e)
  | .returned (.ok conn) =>
    match sqlite.setBusyTimeout conn launch.builder.busyTimeout with
    | (.panicked payload, _) => .panicked payload
    | (.returned (.error e), _) => .returned (.error e)
    | (.returned (.ok ()), conn) =>
      match launch.init conn with
      | (.panicked payload, _) => .panicked payload
      | (.returned (.error e), _) => .returned (.error e)
      | (.returned (.ok ()), conn) => .returned (.ok conn)

end Launch

end

/-- Where the thread is before it enters `run_loop`, and whether it has entered it. -/
inductive Boot (σ : Type) where
  | unborn
  | opening
  | busyTimeout (conn : σ)
  | init (conn : σ)
  | reporting (r : Except RusqliteError σ)
  | signalling
  | unwinding (payload : PanicPayload)
  | looping (conn : σ)
  | ended

/-- Where the spawner is: `awaiting` is the receive of the report, `joining` the join of a thread
that failed. -/
inductive Spawner where
  | channels
  | thread
  | awaiting
  | joining (e : IsleError)
  | returned (r : Except IsleError Unit)
  | dropped
  | unwound

/-- The spawner, the thread, the channel of the report, and the isle, which does not move before the
thread is in its loop. -/
structure LaunchState (J K V σ : Type) where
  spawner : Spawner
  boot : Boot σ
  report : Response Unit
  isle : State J K V

inductive LaunchLabel (J K V : Type) where
  | makeChannels
  | spawnThread
  | receive
  | join
  | dropFuture
  | boot
  | isle (l : Label J K V)

/-- Where the thread goes with the result of a step of the setup. -/
def Boot.onResult {σ : Type} (next : σ → Boot σ) : Caught Unit × σ → Boot σ
  | (.returned (.ok ()), conn) => next conn
  | (.returned (.error e), _) => reporting (.error e)
  | (.panicked payload, _) => unwinding payload

section

variable {J K V σ F : Type} [DecidableEq J] [DecidableEq K]

def LaunchState.init (launch : Launch J V σ F) : LaunchState J K V σ where
  spawner := .channels
  boot := .unborn
  report := .pending
  isle := State.init launch.config

/-- The steps of `spawn_inner` and of the thread it creates. -/
inductive LaunchStep (launch : Launch J V σ F) (sqlite : Sqlite σ F) :
    LaunchState J K V σ → LaunchLabel J K V → LaunchState J K V σ → Prop
  -- the spawner
  | makeChannels {s : LaunchState J K V σ} (hspawner : s.spawner = .channels) :
      LaunchStep launch sqlite s .makeChannels
        { s with spawner := if launch.hasChannel then .thread else .unwound }
  | spawnThread {s : LaunchState J K V σ} (hspawner : s.spawner = .thread)
      (hname : launch.hasName = true) :
      LaunchStep launch sqlite s .spawnThread { s with spawner := .awaiting, boot := .opening }
  | spawnFails {s : LaunchState J K V σ} (hspawner : s.spawner = .thread)
      (hname : launch.hasName = true) :
      LaunchStep launch sqlite s .spawnThread { s with spawner := .returned (.error .closed) }
  | spawnPanics {s : LaunchState J K V σ} (hspawner : s.spawner = .thread)
      (hname : launch.hasName = false) :
      LaunchStep launch sqlite s .spawnThread { s with spawner := .unwound }
  | receiveOk {s : LaunchState J K V σ} (hspawner : s.spawner = .awaiting)
      (hreport : s.report.wait = some (.ok ())) :
      LaunchStep launch sqlite s .receive { s with spawner := .returned (.ok ()) }
  | receiveErr {s : LaunchState J K V σ} {e : IsleError} (hspawner : s.spawner = .awaiting)
      (hreport : s.report.wait = some (.error e)) :
      LaunchStep launch sqlite s .receive { s with spawner := .joining e }
  | join {s : LaunchState J K V σ} {e : IsleError} (hspawner : s.spawner = .joining e)
      (hboot : s.boot = .ended) :
      LaunchStep launch sqlite s .join { s with spawner := .returned (.error e) }
  -- the future is dropped before its first poll, or with the sender of the request channel
  | dropUnpolled {s : LaunchState J K V σ} (hfront : launch.front = .async)
      (hspawner : s.spawner = .channels) :
      LaunchStep launch sqlite s .dropFuture { s with spawner := .dropped }
  | dropAwaiting {s : LaunchState J K V σ} (hfront : launch.front = .async)
      (hspawner : s.spawner = .awaiting) :
      LaunchStep launch sqlite s .dropFuture
        { s with spawner := .dropped, isle := { s.isle with handles := 0, driver := .dropped } }
  -- the thread
  | opened {s : LaunchState J K V σ} (hboot : s.boot = .opening) :
      LaunchStep launch sqlite s .boot
        { s with boot := match sqlite.opened launch.builder.openFlags launch.target with
            | .returned (.ok conn) => .busyTimeout conn
            | .returned (.error e) => .reporting (.error e)
            | .panicked payload => .unwinding payload }
  | busyTimeout {s : LaunchState J K V σ} {conn : σ} (hboot : s.boot = .busyTimeout conn) :
      LaunchStep launch sqlite s .boot
        { s with boot :=
            Boot.onResult .init (sqlite.setBusyTimeout conn launch.builder.busyTimeout) }
  | init {s : LaunchState J K V σ} {conn : σ} (hboot : s.boot = .init conn) :
      LaunchStep launch sqlite s .boot
        { s with boot := Boot.onResult (fun conn => .reporting (.ok conn)) (launch.init conn) }
  | reportOk {s : LaunchState J K V σ} {conn : σ} (hboot : s.boot = .reporting (.ok conn)) :
      LaunchStep launch sqlite s .boot
        { s with boot := .looping conn, report := .answered (.ok ()) }
  | reportErr {s : LaunchState J K V σ} {e : RusqliteError}
      (hboot : s.boot = .reporting (.error e)) :
      LaunchStep launch sqlite s .boot
        { s with
          boot := match launch.front with
            | .sync => .ended
            | .async => .signalling
          report := .answered (.error (.sqlite e)) }
  | signal {s : LaunchState J K V σ} (hboot : s.boot = .signalling) :
      LaunchStep launch sqlite s .boot { s with boot := .ended }
  | unwind {s : LaunchState J K V σ} {payload : PanicPayload}
      (hboot : s.boot = .unwinding payload) :
      LaunchStep launch sqlite s .boot { s with boot := .ended, report := .dropped }
  -- the isle: the thread is in its loop, and the callers have it once it was returned
  | isle {s : LaunchState J K V σ} {conn : σ} {l : Label J K V} {t : State J K V}
      (hboot : s.boot = .looping conn)
      (hmay : l.onThread = true ∨ s.spawner = .returned (.ok ()))
      (hstep : Step launch.config s.isle l t) :
      LaunchStep launch sqlite s (.isle l) { s with isle := t }

/-- An isle from its launch on. -/
def launched (launch : Launch J V σ F) (sqlite : Sqlite σ F) :
    TransitionSystem (LaunchState J K V σ) (LaunchLabel J K V) where
  init := LaunchState.init launch
  step := LaunchStep launch sqlite

end

/-! ## A launch whose `init` fails -/

/-- Connections that can be opened and set up. -/
def openable : Sqlite Unit Unit where
  openPath _ := .returned (.ok ())
  openWithFlags _ _ := .returned (.ok ())
  openInMemory := .returned (.ok ())
  busyTimeout _ conn := (.returned (.ok ()), conn)

/-- An asynchronous launch with the default settings and the given end of `init`. -/
def inMemory (init : Caught Unit) : Launch Unit ℕ Unit Unit where
  front := .async
  builder := AsyncIsleBuilder.default Unit
  target := .inMemory
  init conn := (init, conn)
  api _ := .call
  prog _ := .ret (.ok 7)

lemma init_fails (e : RusqliteError) : ∃ s : LaunchState Unit Unit ℕ Unit,
    (launched (inMemory (.returned (.error e))) openable).Run
      (LaunchState.init (inMemory (.returned (.error e)))) s ∧
      s.spawner = .returned (.error (.sqlite e)) ∧ s.boot = .ended := by
  have h0 := TransitionSystem.Run.refl
    (T := launched (K := Unit) (inMemory (.returned (.error e))) openable)
    (LaunchState.init (inMemory (.returned (.error e))))
  have h1 := h0.tail (.makeChannels rfl)
  have h2 := h1.tail (.spawnThread rfl (Launch.default_starts (Or.inr rfl)).2)
  have h3 := h2.tail (.opened rfl)
  have h4 := h3.tail (.busyTimeout rfl)
  have h5 := h4.tail (.init rfl)
  have h6 := h5.tail (.reportErr rfl)
  have h7 := h6.tail (.receiveErr rfl rfl)
  have h8 := h7.tail (.signal rfl)
  have h9 := h8.tail (.join rfl rfl)
  exact ⟨_, h9, rfl, rfl⟩

/-! ## The report is the outcome of the setup -/

section

variable {J K V σ F : Type} [DecidableEq J] [DecidableEq K] {launch : Launch J V σ F}
  {sqlite : Sqlite σ F}

/-- What the spawner receives when the setup has ended. -/
def Launch.verdict (launch : Launch J V σ F) (sqlite : Sqlite σ F) : Response Unit :=
  match launch.setup sqlite with
  | .returned (.ok _) => .answered (.ok ())
  | .returned (.error e) => .answered (.error (.sqlite e))
  | .panicked _ => .dropped

/-- What the setup has led to where the thread is. -/
def Boot.Fits (launch : Launch J V σ F) (sqlite : Sqlite σ F) (report : Response Unit) :
    Boot σ → Prop
  | unborn | opening => report = .pending
  | busyTimeout conn =>
    report = .pending ∧
      sqlite.opened launch.builder.openFlags launch.target = .returned (.ok conn)
  | init conn => report = .pending ∧ ∃ conn',
      sqlite.opened launch.builder.openFlags launch.target = .returned (.ok conn') ∧
      sqlite.setBusyTimeout conn' launch.builder.busyTimeout = (.returned (.ok ()), conn)
  | reporting r => report = .pending ∧ launch.setup sqlite = .returned r
  | signalling => report = launch.verdict sqlite ∧ ∃ e, launch.setup sqlite = .returned (.error e)
  | unwinding payload => report = .pending ∧ launch.setup sqlite = .panicked payload
  | looping conn => report = launch.verdict sqlite ∧ launch.setup sqlite = .returned (.ok conn)
  | ended => report = launch.verdict sqlite ∧ ∀ conn, launch.setup sqlite ≠ .returned (.ok conn)

lemma Boot.Fits.looping_of_report {boot : Boot σ} {report : Response Unit}
    (h : boot.Fits launch sqlite report) (hreport : report.wait = some (.ok ())) :
    ∃ conn, boot = .looping conn := by
  have bad {r : Response Unit} (hr : report = r) (hne : r.wait ≠ some (.ok ())) :
      ∃ conn, boot = .looping conn := absurd (hr ▸ hreport) hne
  cases boot with
  | unborn | opening => exact bad h (by simp [Response.wait])
  | busyTimeout | init | reporting | unwinding => exact bad h.1 (by simp [Response.wait])
  | looping conn => exact ⟨conn, rfl⟩
  | signalling =>
    obtain ⟨hverdict, e, hsetup⟩ := h
    exact bad hverdict (by simp [Launch.verdict, hsetup, Response.wait])
  | ended =>
    obtain ⟨hverdict, hsetup⟩ := h
    refine bad hverdict ?_
    unfold Launch.verdict
    split
    · next conn hconn => exact absurd hconn (hsetup conn)
    · simp [Response.wait]
    · simp [Response.wait]

/-- What the spawner knows of the thread. -/
def Spawner.Fits (s : LaunchState J K V σ) : Spawner → Prop
  | channels | thread | unwound => s.boot = .unborn
  | awaiting => s.boot ≠ .unborn
  | joining e => s.boot ≠ .unborn ∧ s.report.wait = some (.error e)
  | returned (.ok ()) => ∃ conn, s.boot = .looping conn
  | returned (.error e) =>
    s.boot = .unborn ∧ e = .closed ∨ s.boot = .ended ∧ s.report.wait = some (.error e)
  | dropped => True

/-- An isle to which nothing was ever submitted. -/
structure Unused (s : State J K V) : Prop where
  sent : s.chan.sent = []
  jobs : ∀ j, s.jobs j = Job.unborn
  history : ∀ j, s.history j = History.blank
  pc : s.pc = .next ∨ s.pc.exit?.isSome = true

lemma unused_init (cfg : Config J V) : Unused (State.init cfg : State J K V) :=
  ⟨rfl, fun _ => rfl, fun _ => rfl, Or.inl rfl⟩

lemma Unused.thread {cfg : Config J V} {s t : State J K V} {l : Label J K V} (hu : Unused s)
    (hl : l.onThread = true) (hs : Step cfg s l t) : Unused t := by
  have hbuf : s.chan.buffer = [] := by
    have h := s.chan.history
    rw [hu.sent] at h
    simp_all
  have elsewhere {pc : Pc J V} (hpc : s.pc = pc) (hnext : pc ≠ .next)
      (hexit : pc.exit? = none) : Unused t := by
    rcases hu.pc with h | h
    · exact absurd (hpc.symm.trans h) hnext
    · rw [hpc, hexit] at h
      cases h
  cases hs with
  | recvJob hpc hpop | recvShutdown hpc hpop =>
    rw [(Fifo.pop?_some hpop).buffer] at hbuf
    cases hbuf
  | recvDisconnected => exact ⟨hu.sent, hu.jobs, hu.history, Or.inr rfl⟩
  | signalDone => exact ⟨hu.sent, hu.jobs, hu.history, Or.inr rfl⟩
  | threadFinish =>
    refine ⟨hu.sent, fun j => ?_, hu.history, Or.inr rfl⟩
    simp [State.dropQueued, hbuf, hu.jobs]
  | loadAbort hpc | discard hpc | queuedCheck hpc | attachStore hpc | attachCheckNone hpc
  | attachCheckFired hpc | attachInterrupt hpc | stmtStart hpc | stmtComplete hpc | stmtFail hpc
  | stmtAbort hpc | closureRet hpc | closurePanic hpc | detach hpc | normalizeToken hpc
  | normalizeAbort hpc | respond hpc | healthStart hpc | healthPass hpc | healthFail hpc =>
    exact elsewhere hpc (by simp) rfl
  | _ => cases hl

/-- The invariant of a launch. -/
structure LaunchInv (launch : Launch J V σ F) (sqlite : Sqlite σ F) (s : LaunchState J K V σ) :
    Prop where
  boot : s.boot.Fits launch sqlite s.report
  spawner : s.spawner.Fits s
  unused : s.spawner ≠ .returned (.ok ()) → Unused s.isle
  untouched : s.spawner ≠ .returned (.ok ()) → s.spawner ≠ .dropped →
    s.isle = State.init launch.config
  gone : s.spawner = .dropped → s.boot = .unborn ∨ s.isle.sendersGone = true

lemma LaunchInv.spawns {s : LaunchState J K V σ} (hi : LaunchInv launch sqlite s)
    {spawner : Spawner} (hfits : spawner.Fits s) (hold : s.spawner ≠ .returned (.ok ()))
    (hdropped : s.spawner ≠ .dropped) (hboot : spawner = .dropped → s.boot = .unborn) :
    LaunchInv launch sqlite { s with spawner := spawner } := by
  refine ⟨hi.boot, ?_, fun _ => hi.unused hold, fun _ _ => hi.untouched hold hdropped,
    fun h => Or.inl (hboot h)⟩
  cases spawner <;> exact hfits

lemma LaunchInv.boots {s : LaunchState J K V σ} (hi : LaunchInv launch sqlite s) {boot : Boot σ}
    {report : Response Unit} (hfits : boot.Fits launch sqlite report) (hold : s.boot ≠ .unborn)
    (hloop : ∀ conn, s.boot ≠ .looping conn) (hended : s.boot ≠ .ended) (hboot : boot ≠ .unborn)
    (hreport : report = s.report ∨ s.report = .pending) :
    LaunchInv launch sqlite { s with boot := boot, report := report } := by
  refine ⟨hfits, ?_, hi.unused, hi.untouched, fun h => Or.inr ((hi.gone h).resolve_left hold)⟩
  have hspawner := hi.spawner
  cases hs : s.spawner with
  | channels | thread | unwound =>
    rw [hs] at hspawner
    exact absurd hspawner hold
  | awaiting => exact hboot
  | dropped => trivial
  | joining e =>
    rw [hs] at hspawner
    refine ⟨hboot, ?_⟩
    rcases hreport with h | h
    · rw [h]
      exact hspawner.2
    · have hwait := hspawner.2
      rw [h] at hwait
      cases hwait
  | returned r =>
    rw [hs] at hspawner
    cases r with
    | ok =>
      obtain ⟨conn, hconn⟩ := hspawner
      exact absurd hconn (hloop conn)
    | error e =>
      rcases hspawner with ⟨h, -⟩ | ⟨h, -⟩
      · exact absurd h hold
      · exact absurd h hended

lemma launchInv_boot {s t : LaunchState J K V σ} (hi : LaunchInv launch sqlite s)
    (hs : LaunchStep launch sqlite s .boot t) : LaunchInv launch sqlite t := by
  have hboot := hi.boot
  cases hs with
  | opened h =>
    rw [h] at hboot
    refine hi.boots ?_ (by simp [h]) (by simp [h]) (by simp [h]) ?_ (Or.inl rfl)
    · split
      · next hopened => exact ⟨hboot, hopened⟩
      · next hopened => exact ⟨hboot, by simp [Launch.setup, hopened]⟩
      · next hopened => exact ⟨hboot, by simp [Launch.setup, hopened]⟩
    · split <;> simp
  | @busyTimeout conn h =>
    rw [h] at hboot
    obtain ⟨hpending, hopened⟩ := hboot
    refine hi.boots ?_ (by simp [h]) (by simp [h]) (by simp [h]) ?_ (Or.inl rfl)
    · rcases hset : sqlite.setBusyTimeout conn launch.builder.busyTimeout with
        ⟨(e | ⟨⟨⟩⟩) | payload, conn'⟩
      · exact ⟨hpending, by simp [Launch.setup, hopened, hset]⟩
      · exact ⟨hpending, conn, hopened, hset⟩
      · exact ⟨hpending, by simp [Launch.setup, hopened, hset]⟩
    · rcases sqlite.setBusyTimeout conn launch.builder.busyTimeout with
        ⟨(e | ⟨⟨⟩⟩) | payload, conn'⟩ <;> simp [Boot.onResult]
  | @init conn h =>
    rw [h] at hboot
    obtain ⟨hpending, conn', hopened, hset⟩ := hboot
    refine hi.boots ?_ (by simp [h]) (by simp [h]) (by simp [h]) ?_ (Or.inl rfl)
    · rcases hinit : launch.init conn with ⟨(e | ⟨⟨⟩⟩) | payload, conn''⟩ <;>
        exact ⟨hpending, by simp [Launch.setup, hopened, hset, hinit]⟩
    · rcases launch.init conn with ⟨(e | ⟨⟨⟩⟩) | payload, conn''⟩ <;> simp [Boot.onResult]
  | @reportOk conn h =>
    rw [h] at hboot
    obtain ⟨hpending, hsetup⟩ := hboot
    exact hi.boots ⟨by simp [Launch.verdict, hsetup], hsetup⟩ (by simp [h]) (by simp [h])
      (by simp [h]) (by simp) (Or.inr hpending)
  | @reportErr e h =>
    rw [h] at hboot
    obtain ⟨hpending, hsetup⟩ := hboot
    have hverdict : .answered (.error (.sqlite e)) = launch.verdict sqlite := by
      simp [Launch.verdict, hsetup]
    refine hi.boots ?_ (by simp [h]) (by simp [h]) (by simp [h]) ?_ (Or.inr hpending)
    · split
      · exact ⟨hverdict, by simp [hsetup]⟩
      · exact ⟨hverdict, e, hsetup⟩
    · split <;> simp
  | signal h =>
    rw [h] at hboot
    obtain ⟨hverdict, e, hsetup⟩ := hboot
    exact hi.boots ⟨hverdict, by simp [hsetup]⟩ (by simp [h]) (by simp [h]) (by simp [h]) (by simp)
      (Or.inl rfl)
  | unwind h =>
    rw [h] at hboot
    obtain ⟨hpending, hsetup⟩ := hboot
    exact hi.boots ⟨by simp [Launch.verdict, hsetup], by simp [hsetup]⟩ (by simp [h]) (by simp [h])
      (by simp [h]) (by simp) (Or.inr hpending)

lemma launchInv_isle {s t : LaunchState J K V σ} {l : Label J K V}
    (hi : LaunchInv launch sqlite s) (hs : LaunchStep launch sqlite s (.isle l) t) :
    LaunchInv launch sqlite t := by
  have hspawner := hi.spawner
  cases hs with
  | isle h hmay hstep =>
    refine ⟨hi.boot, ?_, fun hne => ?_, fun hne hdropped => ?_,
      fun hdropped => (hi.gone hdropped).imp_right (gone_step hstep)⟩
    · cases hs : s.spawner <;> rw [hs] at hspawner <;> exact hspawner
    · exact (hi.unused hne).thread (hmay.resolve_right hne) hstep
    · have hidle : ¬ (isle launch.config).Enabled (fun l => l.onThread = true) s.isle := by
        rw [hi.untouched hne hdropped]
        exact not_thread_enabled (Or.inr ⟨rfl, rfl, by simp [State.sendersGone, State.init]⟩)
      exact absurd ⟨_, _, hmay.resolve_right hne, hstep⟩ hidle

lemma launchInv_step {s t : LaunchState J K V σ} {l : LaunchLabel J K V}
    (hi : LaunchInv launch sqlite s) (hs : LaunchStep launch sqlite s l t) :
    LaunchInv launch sqlite t := by
  have hstep := hs
  have hboot := hi.boot
  have hspawner := hi.spawner
  cases hs with
  | makeChannels h =>
    rw [h] at hspawner
    refine hi.spawns ?_ (by simp [h]) (by simp [h]) (fun _ => hspawner)
    split <;> exact hspawner
  | spawnThread h =>
    rw [h] at hspawner
    rw [show s.boot = .unborn from hspawner] at hboot
    refine ⟨hboot, by simp [Spawner.Fits], fun _ => hi.unused (by simp [h]),
      fun _ _ => hi.untouched (by simp [h]) (by simp [h]), fun h => by cases h⟩
  | spawnFails h =>
    rw [h] at hspawner
    exact hi.spawns (Or.inl ⟨hspawner, rfl⟩) (by simp [h]) (by simp [h]) (fun _ => hspawner)
  | spawnPanics h =>
    rw [h] at hspawner
    exact hi.spawns hspawner (by simp [h]) (by simp [h]) (fun _ => hspawner)
  | receiveOk h hreport =>
    exact ⟨hboot, hboot.looping_of_report hreport, fun hne => absurd rfl hne,
      fun hne => absurd rfl hne, fun h => by cases h⟩
  | receiveErr h hreport =>
    rw [h] at hspawner
    exact hi.spawns ⟨hspawner, hreport⟩ (by simp [h]) (by simp [h]) (fun h => by cases h)
  | join h hended =>
    rw [h] at hspawner
    exact hi.spawns (Or.inr ⟨hended, hspawner.2⟩) (by simp [h]) (by simp [h]) (fun h => by cases h)
  | dropUnpolled _ h =>
    rw [h] at hspawner
    exact hi.spawns trivial (by simp [h]) (by simp [h]) (fun _ => hspawner)
  | dropAwaiting _ h =>
    have hu := hi.unused (by simp [h])
    exact ⟨hboot, trivial, fun _ => ⟨hu.sent, hu.jobs, hu.history, hu.pc⟩,
      fun _ hne => absurd rfl hne, fun _ => Or.inr rfl⟩
  | opened | busyTimeout | init | reportOk | reportErr | signal | unwind =>
    exact launchInv_boot hi hstep
  | isle => exact launchInv_isle hi hstep

theorem launchInv_reachable {s : LaunchState J K V σ}
    (h : (launched launch sqlite).Reachable s) : LaunchInv launch sqlite s := by
  refine TransitionSystem.Reachable.invariant (I := LaunchInv launch sqlite) ?_
    (fun _ _ _ => launchInv_step) h
  exact ⟨rfl, rfl, fun _ => unused_init _, fun _ _ => rfl, fun h => by cases h⟩

/-- What a returned `spawn` says: the setup went well and the thread is in its loop, or there is no
thread any more, and the error is the first one of the setup, or `Closed` after a panic or without
a thread. -/
def LaunchState.Truthful (launch : Launch J V σ F) (sqlite : Sqlite σ F)
    (s : LaunchState J K V σ) : Except IsleError Unit → Prop
  | .ok () => ∃ conn, launch.setup sqlite = .returned (.ok conn) ∧ s.boot = .looping conn
  | .error e =>
    s.boot = .unborn ∧ e = .closed ∨ s.boot = .ended ∧
      ((∃ e', launch.setup sqlite = .returned (.error e') ∧ e = .sqlite e') ∨
        ∃ payload, launch.setup sqlite = .panicked payload ∧ e = .closed)

/-- `spawn` returns an isle exactly if opening, busy timeout and `init` succeeded one after the other;
otherwise it returns the first error when the thread has ended. No closure is ever run before `spawn`
has returned, or on a connection that was not set up. -/
theorem launch_truthful {s : LaunchState J K V σ} (h : (launched launch sqlite).Reachable s) :
    (∀ r, s.spawner = .returned r → s.Truthful launch sqlite r) ∧
      ∀ j, 0 < (s.isle.history j).invoked → s.spawner = .returned (.ok ()) ∧
        ∃ conn, launch.setup sqlite = .returned (.ok conn) ∧ s.boot = .looping conn := by
  have hi := launchInv_reachable h
  have hspawner := hi.spawner
  have hboot := hi.boot
  have hok (hret : s.spawner = .returned (.ok ())) :
      ∃ conn, launch.setup sqlite = .returned (.ok conn) ∧ s.boot = .looping conn := by
    rw [hret] at hspawner
    obtain ⟨conn, hconn⟩ := hspawner
    rw [hconn] at hboot
    exact ⟨conn, hboot.2, hconn⟩
  refine ⟨fun r hret => ?_, fun j hinvoked => ?_⟩
  · cases r with
    | ok => exact hok hret
    | error e =>
      rw [hret] at hspawner
      refine Or.imp_right (fun ⟨hended, hwait⟩ => ⟨hended, ?_⟩) hspawner
      rw [hended] at hboot
      obtain ⟨hverdict, hsetup⟩ := hboot
      rw [hverdict, Launch.verdict] at hwait
      split at hwait
      · next conn hconn => exact absurd hconn (hsetup conn)
      · next e' he' =>
        cases hwait
        exact Or.inl ⟨e', he', rfl⟩
      · next payload hpayload =>
        cases hwait
        exact Or.inr ⟨payload, hpayload, rfl⟩
  · by_cases hret : s.spawner = .returned (.ok ())
    · exact ⟨hret, hok hret⟩
    · rw [(hi.unused hret).history j] at hinvoked
      cases hinvoked

theorem launch_truthful_init : ∃ s : LaunchState Unit Unit ℕ Unit,
    s.spawner = .returned (.error (.sqlite interruptError)) ∧
      s.Truthful (inMemory (.returned (.error interruptError))) openable
        (.error (.sqlite interruptError)) := by
  obtain ⟨s, hs, hret, -⟩ := init_fails interruptError
  exact ⟨s, hret, (launch_truthful hs).1 _ hret⟩

/-! ## A launched isle is an isle -/

/-- The steps of the isle of a launch, and of its abandoned launch, are steps of an isle. -/
lemma isle_of_launched {s : LaunchState J K V σ} (h : (launched launch sqlite).Reachable s) :
    (isle launch.config).Reachable s.isle := by
  refine TransitionSystem.ReachableVia.invariant_of (J := LaunchInv launch sqlite)
    (I := fun s => (isle launch.config).Reachable s.isle) (fun _ => launchInv_reachable)
    .refl ?_ h
  intro s l t hi hr _ hs
  cases hs with
  | isle _ _ hstep => exact hr.tail hstep
  | dropAwaiting hfront h =>
    have huntouched := hi.untouched (by simp [h]) (by simp [h])
    have h0 := TransitionSystem.Reachable.refl (T := isle (K := K) launch.config)
    have h1 := h0.tail (.dropHandle hfront Nat.zero_lt_one (Or.inl rfl))
    have h2 := h1.tail (.driverDrop (Or.inl ?_))
    · dsimp only
      rw [huntouched]
      exact h2
    · simp [isle, State.init, Launch.config, hfront]
  | _ => exact hr

lemma Launch.setup_ok {conn : σ} (h : launch.setup sqlite = .returned (.ok conn)) :
    ∃ c₀ c₁, sqlite.opened launch.builder.openFlags launch.target = .returned (.ok c₀) ∧
      sqlite.setBusyTimeout c₀ launch.builder.busyTimeout = (.returned (.ok ()), c₁) ∧
      launch.init c₁ = (.returned (.ok ()), conn) := by
  unfold Launch.setup at h
  split at h
  · cases h
  · cases h
  · next c₀ hopened =>
    split at h
    · cases h
    · cases h
    · next c₁ hset =>
      split at h
      · cases h
      · cases h
      · next c₂ hinit =>
        cases h
        exact ⟨c₀, c₁, hopened, hset, hinit⟩

lemma launched_init (hchannel : launch.hasChannel = true) (hname : launch.hasName = true) {conn : σ}
    (hsetup : launch.setup sqlite = .returned (.ok conn)) :
    (launched (K := K) launch sqlite).Reachable
      ⟨.returned (.ok ()), .looping conn, .answered (.ok ()), State.init launch.config⟩ := by
  obtain ⟨c₀, c₁, hopened, hset, hinit⟩ := Launch.setup_ok hsetup
  have h0 := TransitionSystem.Reachable.refl (T := launched (K := K) launch sqlite)
  have h1 := h0.tail (.makeChannels rfl)
  rw [if_pos hchannel] at h1
  have h2 := h1.tail (.spawnThread rfl hname)
  have h3 := h2.tail (.opened rfl)
  simp only [hopened] at h3
  have h4 := h3.tail (.busyTimeout rfl)
  simp only [hset, Boot.onResult] at h4
  have h5 := h4.tail (.init rfl)
  simp only [hinit, Boot.onResult] at h5
  exact (h5.tail (.reportOk rfl)).tail (.receiveOk rfl rfl)

/-- The isles of a launch that went well are those of the isle's own runs. -/
theorem launched_iff (hchannel : launch.hasChannel = true) (hname : launch.hasName = true) {conn : σ}
    (hsetup : launch.setup sqlite = .returned (.ok conn)) (s : State J K V) :
    (isle launch.config).Reachable s ↔ ∃ t, (launched launch sqlite).Reachable t ∧
      t.spawner = .returned (.ok ()) ∧ t.boot = .looping conn ∧ t.isle = s := by
  constructor
  · intro h
    refine ⟨⟨.returned (.ok ()), .looping conn, .answered (.ok ()), s⟩, ?_, rfl, rfl, rfl⟩
    have hrun := TransitionSystem.RunVia.map (A := launched launch sqlite) (Q := fun _ _ => True)
      (f := fun s => ⟨.returned (.ok ()), .looping conn, .answered (.ok ()), s⟩)
      (fun s l t _ hs => ⟨.isle l, trivial, .isle rfl (Or.inr rfl) hs⟩) h
    exact (launched_init hchannel hname hsetup).run hrun
  · rintro ⟨t, ht, -, -, rfl⟩
    exact isle_of_launched ht

theorem launched_iff_init : ∃ t : LaunchState Unit Unit ℕ Unit,
    t.spawner = .returned (.ok ()) ∧ t.isle.pc = .next := by
  have hsetup : (inMemory (.returned (.ok ()))).setup openable = .returned (.ok ()) := rfl
  obtain ⟨hchannel, hname⟩ := (inMemory (.returned (.ok ()))).default_starts (Or.inr rfl)
  obtain ⟨t, -, hret, -, ht⟩ :=
    (launched_iff (K := Unit) hchannel hname hsetup _).mp TransitionSystem.Reachable.refl
  exact ⟨t, hret, by rw [ht]; rfl⟩

end

end RusqliteIsle
