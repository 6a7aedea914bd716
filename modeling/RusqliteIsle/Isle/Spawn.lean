import RusqliteIsle.Isle.Launch

/-!
# `spawn` returns

The spawner and the thread of a launch each take at most a few steps of their own before the spawner
is done, and each of them waits for the other at one place only: the spawner for the report, and,
after a bad one, for the end of the thread. A thread whose spawner has dropped the future finds no
handle left and ends.
-/

namespace RusqliteIsle

set_option linter.unusedSectionVars false

variable {J K V σ F : Type} [DecidableEq J] [DecidableEq K] {launch : Launch J V σ F}
  {sqlite : Sqlite σ F}

/-- The actions of the spawner, apart from the drop of its future. -/
def LaunchLabel.ofSpawner : LaunchLabel J K V → Bool
  | makeChannels | spawnThread | receive | join => true
  | _ => false

/-- The actions of the thread. -/
def LaunchLabel.ofThread : LaunchLabel J K V → Bool
  | boot => true
  | isle l => l.onThread
  | _ => false

/-- How many steps the spawner takes at most before it is done. -/
def Spawner.stage : Spawner → ℕ
  | channels => 4
  | thread => 3
  | awaiting => 2
  | joining _ => 1
  | _ => 0

def Spawner.done : Spawner → Bool
  | returned _ | dropped | unwound => true
  | _ => false

/-- How many steps the thread takes at most before the setup is over. -/
def Boot.stage : Boot σ → ℕ
  | unborn => 6
  | opening => 5
  | busyTimeout _ => 4
  | init _ => 3
  | reporting _ => 2
  | signalling | unwinding _ => 1
  | looping _ | ended => 0

def Boot.over : Boot σ → Bool
  | looping _ | ended => true
  | _ => false

lemma Boot.onResult_forward (next : σ → Boot σ) (n : ℕ)
    (hnext : ∀ conn, (next conn).stage < n ∧ next conn ≠ .unborn) (hn : 2 < n)
    (r : Caught Unit × σ) : (onResult next r).stage < n ∧ onResult next r ≠ .unborn := by
  rcases r with ⟨(e | ⟨⟨⟩⟩) | payload, conn⟩
  · exact ⟨hn, by simp [onResult]⟩
  · exact hnext conn
  · exact ⟨Nat.lt_of_succ_lt hn, by simp [onResult]⟩

lemma boot_step {s t : LaunchState J K V σ} {l : LaunchLabel J K V}
    (hi : LaunchInv launch sqlite s) (hs : LaunchStep launch sqlite s l t) (hborn : s.boot ≠ .unborn) :
    t.boot.stage < s.boot.stage ∧ t.boot ≠ .unborn ∨
      t.boot = s.boot ∧ (s.boot.over = false → l.ofThread = false) := by
  cases hs with
  | spawnThread h =>
    have hspawner := hi.spawner
    rw [h] at hspawner
    exact absurd hspawner hborn
  | opened h =>
    left
    rw [h]
    dsimp only
    split <;> simp [Boot.stage]
  | busyTimeout h =>
    left
    rw [h]
    exact Boot.onResult_forward _ 4 (fun conn => ⟨by simp [Boot.stage], by simp⟩) (by simp) _
  | init h =>
    left
    rw [h]
    exact Boot.onResult_forward _ 3 (fun conn => ⟨by simp [Boot.stage], by simp⟩) (by simp) _
  | reportOk h | signal h | unwind h => exact Or.inl (by simp [h, Boot.stage])
  | reportErr h =>
    left
    rw [h]
    dsimp only
    split <;> simp [Boot.stage]
  | isle h => exact Or.inr ⟨rfl, by simp [h, Boot.over]⟩
  | _ => exact Or.inr ⟨rfl, fun _ => rfl⟩

variable {e : (launched (K := K) launch sqlite).Execution}

lemma setup_ends (hthread : e.WeaklyFair (fun l => l.ofThread = true)) :
    e.LeadsTo (fun s => s.boot ≠ .unborn) (fun s => s.boot.over = true) := by
  refine hthread.leadsTo (fun s => s.boot.stage) wellFounded_lt ?_ ?_
  · intro s _ hborn hover
    have enabled {t : LaunchState J K V σ} (hs : LaunchStep launch sqlite s .boot t) :
        (launched launch sqlite).Enabled (fun l => l.ofThread = true) s := ⟨_, t, rfl, hs⟩
    cases hboot : s.boot with
    | unborn => exact absurd hboot hborn
    | opening => exact enabled (.opened hboot)
    | busyTimeout conn => exact enabled (.busyTimeout hboot)
    | init conn => exact enabled (.init hboot)
    | reporting r =>
      cases r with
      | ok conn => exact enabled (.reportOk hboot)
      | error e => exact enabled (.reportErr hboot)
    | signalling => exact enabled (.signal hboot)
    | unwinding payload => exact enabled (.unwind hboot)
    | looping conn | ended => exact absurd (by rw [hboot]; rfl) hover
  · intro s l t h hborn hover hs
    rcases boot_step (launchInv_reachable h) hs hborn with ⟨hlt, hborn'⟩ | ⟨heq, hl⟩
    · exact Or.inr ⟨hborn', Or.inl hlt⟩
    · exact Or.inr ⟨heq ▸ hborn, Or.inr ⟨by rw [heq], by simp [hl (by simpa using hover)]⟩⟩

lemma spawner_step {s t : LaunchState J K V σ} {l : LaunchLabel J K V}
    (hs : LaunchStep launch sqlite s l t) :
    t.spawner.done = true ∨ t.spawner.stage < s.spawner.stage ∨
      t.spawner = s.spawner ∧ l.ofSpawner = false := by
  cases hs with
  | makeChannels h =>
    dsimp only
    rw [h]
    split
    · exact Or.inr (Or.inl (by simp [Spawner.stage]))
    · exact Or.inl rfl
  | spawnThread h | receiveErr h =>
    rw [h]
    exact Or.inr (Or.inl (by simp [Spawner.stage]))
  | spawnFails | spawnPanics | receiveOk | join | dropUnpolled | dropAwaiting => exact Or.inl rfl
  | _ => exact Or.inr (Or.inr ⟨rfl, rfl⟩)

lemma done_step {s t : LaunchState J K V σ} {l : LaunchLabel J K V}
    (hs : LaunchStep launch sqlite s l t) (hdone : s.spawner.done = true) :
    t.spawner = s.spawner := by
  cases hs with
  | makeChannels h | spawnThread h | spawnFails h | spawnPanics h | receiveOk h | receiveErr h
  | join h | dropUnpolled _ h | dropAwaiting _ h =>
    rw [h] at hdone
    cases hdone
  | _ => rfl

lemma awaits_step {s t : LaunchState J K V σ} {l : LaunchLabel J K V}
    (hs : LaunchStep launch sqlite s l t) (hwaits : s.spawner.stage ≤ 2) : t.spawner.stage ≤ 2 := by
  rcases spawner_step hs with hdone | hlt | ⟨heq, -⟩
  · cases h : t.spawner <;> simp_all [Spawner.done, Spawner.stage]
  · omega
  · rwa [heq]

lemma over_step {s t : LaunchState J K V σ} {l : LaunchLabel J K V}
    (hi : LaunchInv launch sqlite s) (hs : LaunchStep launch sqlite s l t)
    (hover : s.boot.over = true) : t.boot.over = true := by
  have hborn : s.boot ≠ .unborn := by
    intro h
    rw [h] at hover
    cases hover
  rcases boot_step hi hs hborn with ⟨hlt, -⟩ | ⟨heq, -⟩
  · cases h : s.boot <;> simp_all [Boot.over, Boot.stage]
  · rwa [heq]

lemma spawn_starts (hspawner : e.WeaklyFair (fun l => l.ofSpawner = true)) :
    e.LeadsTo (fun _ => True) (fun s => s.spawner.stage ≤ 2) := by
  refine hspawner.leadsTo (fun s => s.spawner.stage) wellFounded_lt ?_ ?_
  · intro s _ _ hstage
    cases h : s.spawner with
    | channels => exact ⟨_, _, rfl, .makeChannels h⟩
    | thread =>
      cases hname : launch.hasName with
      | true => exact ⟨_, _, rfl, .spawnThread h hname⟩
      | false => exact ⟨_, _, rfl, .spawnPanics h hname⟩
    | _ => simp [h, Spawner.stage] at hstage
  · intro s l t _ _ _ hs
    rcases spawner_step hs with hdone | hlt | ⟨heq, hl⟩
    · left
      cases h : t.spawner <;> simp_all [Spawner.done, Spawner.stage]
    · exact Or.inr ⟨trivial, Or.inl hlt⟩
    · exact Or.inr ⟨trivial, Or.inr ⟨by rw [heq], by simp [hl]⟩⟩

lemma spawn_receives (hspawner : e.WeaklyFair (fun l => l.ofSpawner = true)) :
    e.LeadsTo (fun s => s.spawner.stage ≤ 2 ∧ s.boot.over = true)
      (fun s => s.spawner.done = true) := by
  refine hspawner.leadsTo (fun s => s.spawner.stage) wellFounded_lt ?_ ?_
  · rintro s hr ⟨hstage, hover⟩ hdone
    have hi := launchInv_reachable hr
    have hboot := hi.boot
    have hfits := hi.spawner
    cases h : s.spawner with
    | channels | thread => simp [h, Spawner.stage] at hstage
    | awaiting =>
      have hverdict : s.report = launch.verdict sqlite := by
        cases hb : s.boot <;> rw [hb] at hboot hover <;> first | exact hboot.1 | cases hover
      have hwait : s.report.wait ≠ none := by
        rw [hverdict, Launch.verdict]
        split <;> simp [Response.wait]
      obtain ⟨r, hr⟩ := Option.ne_none_iff_exists'.mp hwait
      cases r with
      | ok => exact ⟨_, _, rfl, .receiveOk h hr⟩
      | error e => exact ⟨_, _, rfl, .receiveErr h hr⟩
    | joining e =>
      rw [h] at hfits
      cases hb : s.boot with
      | looping conn =>
        rw [hb] at hboot
        obtain ⟨hverdict, hsetup⟩ := hboot
        have hwait := hfits.2
        simp [hverdict, Launch.verdict, hsetup, Response.wait] at hwait
      | ended => exact ⟨_, _, rfl, .join h hb⟩
      | _ =>
        rw [hb] at hover
        cases hover
    | returned | dropped | unwound => exact absurd (by rw [h]; rfl) hdone
  · rintro s l t hr ⟨hstage, hover⟩ _ hs
    have hover' := over_step (launchInv_reachable hr) hs hover
    rcases spawner_step hs with hdone | hlt | ⟨heq, hl⟩
    · exact Or.inl hdone
    · exact Or.inr ⟨⟨awaits_step hs hstage, hover'⟩, Or.inl hlt⟩
    · exact Or.inr ⟨⟨awaits_step hs hstage, hover'⟩, Or.inr ⟨by rw [heq], by simp [hl]⟩⟩

lemma abandoned_finishes (hthread : e.WeaklyFair (fun l => l.ofThread = true)) :
    e.LeadsTo (fun s => s.spawner = .dropped ∧ ∃ conn, s.boot = .looping conn)
      (fun s => s.isle.pc.isFinished = true) := by
  refine hthread.leadsTo (fun s => s.isle.pc) Pc.after_wf ?_ ?_
  · rintro s hr ⟨hdropped, conn, hboot⟩ hfin
    have hgone := ((launchInv_reachable hr).gone hdropped).resolve_left (by simp [hboot])
    obtain ⟨l, t, hl, hs⟩ : (isle launch.config).Enabled (fun l => l.onThread = true) s.isle :=
      thread_enabled (by simpa using hfin) (fun _ => Or.inr hgone)
    exact ⟨.isle l, _, hl, .isle hboot (Or.inl hl) hs⟩
  · rintro s l t hr ⟨hdropped, conn, hboot⟩ hfin hs
    have hi := launchInv_reachable hr
    have hspawner := done_step hs (by rw [hdropped]; rfl)
    cases hs with
    | isle h hmay hstep =>
      have hl := hmay.resolve_right (by simp [hdropped])
      cases moves_step (link_reachable (isle_of_launched hr)) hstep with
      | aside hl' | sent hl' =>
        rw [hl] at hl'
        cases hl'
      | received _ _ _ hpop =>
        have hbuf : s.isle.chan.buffer = [] := by
          have h := s.isle.chan.history
          rw [(hi.unused (by simp [hdropped])).sent] at h
          simp_all
        rw [(Fifo.pop?_some hpop).buffer] at hbuf
        cases hbuf
      | forward _ hafter => exact Or.inr ⟨⟨hdropped, conn, hboot⟩, Or.inl hafter⟩
      | ended _ hfin' => exact Or.inl hfin'
    | makeChannels h | spawnThread h | spawnFails h | spawnPanics h | receiveOk h | receiveErr h
    | join h | dropUnpolled _ h | dropAwaiting _ h =>
      rw [hdropped] at h
      cases h
    | opened h | busyTimeout h | init h | reportOk h | reportErr h | signal h | unwind h =>
      rw [hboot] at h
      cases h

/-- `spawn` returns or unwinds, unless its future is dropped, and a thread whose spawner dropped the
future ends by itself, if the spawner and the thread act whenever they can. -/
theorem launch_returns (hspawner : e.WeaklyFair (fun l => l.ofSpawner = true))
    (hthread : e.WeaklyFair (fun l => l.ofThread = true)) :
    e.LeadsTo (fun _ => True) (fun s => s.spawner.done = true) ∧
      e.LeadsTo (fun s => s.spawner = .dropped) (fun s => s.boot = .unborn ∨ s.boot = .ended ∨
        s.isle.pc.isFinished = true) := by
  refine ⟨(spawn_starts hspawner).trans (fun n hn => ?_), fun n hn => ?_⟩
  · by_cases hdone : (e.state n).spawner.done = true
    · exact ⟨n, le_rfl, hdone⟩
    have hborn : (e.state n).boot ≠ .unborn := by
      have hfits := (launchInv_reachable (e.reachable n)).spawner
      cases h : (e.state n).spawner with
      | channels | thread => simp [h, Spawner.stage] at hn
      | awaiting =>
        rw [h] at hfits
        exact hfits
      | joining =>
        rw [h] at hfits
        exact hfits.1
      | returned | dropped | unwound => exact absurd (by rw [h]; rfl) hdone
    obtain ⟨m, hm, hover⟩ := setup_ends hthread n hborn
    have hstage := e.stays (I := fun s => s.spawner.stage ≤ 2)
      (fun s l t _ hI hs => awaits_step hs hI) hm hn
    obtain ⟨k, hk, hdone'⟩ := spawn_receives hspawner m ⟨hstage, hover⟩
    exact ⟨k, hm.trans hk, hdone'⟩
  · by_cases hborn : (e.state n).boot = .unborn
    · exact ⟨n, le_rfl, Or.inl hborn⟩
    obtain ⟨m, hm, hover⟩ := setup_ends hthread n hborn
    have hdropped := e.stays (I := fun s => s.spawner = .dropped)
      (fun s l t _ hI hs => (done_step hs (by rw [hI]; rfl)).trans hI) hm hn
    cases hb : (e.state m).boot with
    | looping conn =>
      obtain ⟨k, hk, hfin⟩ := abandoned_finishes hthread m ⟨hdropped, conn, hb⟩
      exact ⟨k, hm.trans hk, Or.inr (Or.inr hfin)⟩
    | ended => exact ⟨m, hm, Or.inr (Or.inl hb)⟩
    | _ =>
      rw [hb] at hover
      cases hover

theorem launch_returns_init : ∃ e : (launched (K := Unit)
    (inMemory (.returned (.error interruptError))) openable).Execution,
    (e.state 0).spawner = .channels ∧ ∃ n, (e.state n).spawner.done = true := by
  obtain ⟨s, hs, hret, hboot⟩ := init_fails interruptError
  obtain ⟨e, h0, hstops⟩ := TransitionSystem.Execution.exists_stops .refl hs
  have hspawner := hstops.stronglyFair (A := fun l => l.ofSpawner = true) (by
    rintro ⟨l, t, hl, hstep⟩
    cases hstep <;> simp_all)
  have hthread := hstops.stronglyFair (A := fun l => l.ofThread = true) (by
    rintro ⟨l, t, hl, hstep⟩
    cases hstep <;> simp_all)
  obtain ⟨n, -, hn⟩ := (launch_returns hspawner.weaklyFair hthread.weaklyFair).1 0 trivial
  exact ⟨e, by rw [h0]; rfl, n, hn⟩

end RusqliteIsle
