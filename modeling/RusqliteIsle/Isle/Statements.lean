import RusqliteIsle.Isle.Window

/-!
# Closures that run a list of statements

A closure that runs its statements one after the other and returns the first error is at
all times before a statement, in a statement, or at its end. `Progress` says which, given
how many of the statements were started and completed.
-/

namespace RusqliteIsle

set_option linter.unusedSectionVars false

variable {J K V : Type} [DecidableEq J] [DecidableEq K] {cfg : Config J V}

namespace Closure

/-- What `ofStmts` does at the end of a statement. -/
def afterStmt (out : List V → V) (done : List V) (rest : List String) :
    Except RusqliteError V → Closure V
  | .ok v => ofStmts out (done ++ [v]) rest
  | .error e => ret (.error e)

lemma ofStmts_cons (out : List V → V) (done : List V) (sql : String) (rest : List String) :
    ofStmts out done (sql :: rest) = start sql (finish (afterStmt out done rest)) := rfl

lemma ofStmts_atEnd {out : List V → V} {done : List V} {stmts : List String} (h : stmts ≠ []) :
    (ofStmts out done stmts).atEnd = false := by
  obtain ⟨sql, rest, rfl⟩ := List.exists_cons_of_ne_nil h
  rfl

end Closure

/-- Of `n` statements, this many have been started and completed when the closure `c` is left. -/
inductive Progress (out : List V → V) (n : ℕ) : ℕ → ℕ → Closure V → Prop
  | ready {k : ℕ} (done : List V) (rest : List String) (h : k + rest.length = n) :
      Progress out n k k (.ofStmts out done rest)
  | busy {k : ℕ} (done : List V) (rest : List String) (h : k + 1 + rest.length = n) :
      Progress out n (k + 1) k (.finish (.afterStmt out done rest))
  | failed {k : ℕ} (e : RusqliteError) (h : k < n) : Progress out n (k + 1) k (.ret (.error e))

namespace Progress

variable {out : List V → V} {n k m : ℕ}

lemma of_start {sql : String} {c : Closure V} (h : Progress out n k m (.start sql c)) :
    k = m ∧ c.atEnd = false ∧ Progress out n (k + 1) m c := by
  generalize hc : Closure.start sql c = c' at h
  cases h with
  | ready done rest hn =>
    cases rest with
    | nil => cases hc
    | cons sql' rest =>
      rw [Closure.ofStmts_cons] at hc
      cases hc
      rw [List.length_cons] at hn
      exact ⟨rfl, rfl, .busy done rest (by omega)⟩
  | busy => cases hc
  | failed => cases hc

lemma of_finish {next : Except RusqliteError V → Closure V}
    (h : Progress out n k m (.finish next)) :
    k = m + 1 ∧ m < n ∧ (∀ v, Progress out n k (m + 1) (next (.ok v))) ∧
      ∀ e, next (.error e) = .ret (.error e) := by
  generalize hc : Closure.finish next = c' at h
  cases h with
  | ready done rest hn => cases rest <;> cases hc
  | busy done rest hn =>
    cases hc
    exact ⟨rfl, by omega, fun v => .ready (done ++ [v]) rest hn, fun _ => rfl⟩
  | failed => cases hc

lemma bounds {c : Closure V} (h : Progress out n k m c) : m ≤ k ∧ k ≤ n := by
  cases h <;> omega

lemma depth_of_start {sql : String} {c : Closure V} {depth : ℕ}
    (h : Progress out n k m (.start sql c)) (hbal : (Closure.start sql c).Balanced depth) :
    depth = 0 := by
  generalize hc : Closure.start sql c = c' at h
  cases h with
  | ready done rest hn =>
    cases rest with
    | nil => cases hc
    | cons sql' rest =>
      rw [Closure.ofStmts_cons] at hc
      cases hc
      -- a statement that fails is the end of the closure
      exact hbal (.error interruptError)
  | busy => cases hc
  | failed => cases hc

end Progress

/-- The history of `j` counts the statements of its closure. -/
structure Counted (out : List V → V) (n : ℕ) (s : State J K V) (j : J) : Prop where
  running : ∀ c, s.pc = .closure j c →
    Progress out n (s.history j).started (s.history j).completed c
  ordered : (s.history j).completed ≤ (s.history j).started
  bounded : (s.history j).started ≤ n

namespace Counted

variable {out : List V → V} {n : ℕ} {s t : State J K V} {j : J}

lemma of_frame (hi : Counted out n s j) (hf : Frame s t j) : Counted out n t j := by
  refine ⟨fun c hpc => ?_, by rw [hf.history]; exact hi.ordered, by rw [hf.history]; exact hi.bounded⟩
  rw [hf.history]
  refine hi.running c ?_
  rw [← hf.pc (hf.current (by rw [hpc]; rfl)), hpc]

lemma keep (hi : Counted out n s j) (hstarted : (t.history j).started = (s.history j).started)
    (hcompleted : (t.history j).completed = (s.history j).completed)
    (hpc : ∀ c, t.pc = .closure j c → s.pc = .closure j c) : Counted out n t j := by
  refine ⟨fun c hc => ?_, ?_, ?_⟩
  · rw [hstarted, hcompleted]
    exact hi.running c (hpc c hc)
  · rw [hstarted, hcompleted]
    exact hi.ordered
  · rw [hstarted]
    exact hi.bounded

end Counted

lemma Pc.afterDetach_ne_closure (j i : J) (result : Caught V) (c : Closure V) :
    Pc.afterDetach j result ≠ .closure i c := by
  intro h
  have hatt := Pc.afterDetach_attached? j result
  rw [h] at hatt
  cases hatt

lemma counted_step {out : List V → V} {stmts : List String} {s t : State J K V}
    {l : Label J K V} {j : J} (hprog : cfg.prog j = .ofStmts out [] stmts) (hlife : Life s j)
    (hi : Counted out stmts.length s j) (hs : Step cfg s l t) :
    Counted out stmts.length t j := by
  obtain rfl | hf | hl := step_about hs j
  · cases hs with
    | threadFinish => exact hi.keep rfl rfl (by simp)
  · exact hi.of_frame hf
  cases hs with
  | attachCheckNone hpc | attachInterrupt hpc =>
    cases hl
    have hun : (s.history j).Unrun 1 := (hlife.at_pc hpc rfl).2
    refine ⟨fun c hc => ?_, by simpa [State.invoke] using hi.ordered,
      by simpa [State.invoke] using hi.bounded⟩
    cases hc
    simp only [State.invoke, Function.update_self, hun.started, hun.completed, hprog]
    exact .ready [] stmts (Nat.zero_add _)
  | stmtStart hpc =>
    cases hl
    obtain ⟨hk, -, hp⟩ := (hi.running _ hpc).of_start
    refine ⟨fun c hc => ?_, by simp [hk], by simpa using hp.bounds.2⟩
    cases hc
    simpa using hp
  | stmtComplete hpc =>
    cases hl
    obtain ⟨hk, -, hok, -⟩ := (hi.running _ hpc).of_finish
    refine ⟨fun c hc => ?_, by simp [hk], by simpa using hi.bounded⟩
    cases hc
    simpa using hok _
  | stmtFail hpc | stmtAbort hpc =>
    cases hl
    obtain ⟨hk, hm, -, herr⟩ := (hi.running _ hpc).of_finish
    refine ⟨fun c hc => ?_, hi.ordered, hi.bounded⟩
    cases hc
    rw [hk, herr]
    exact .failed _ hm
  | loadAbort | queuedCheck | normalizeToken =>
    cases hl
    refine hi.keep (by simp) (by simp) (fun c hc => ?_)
    dsimp only at hc
    split at hc <;> cases hc
  | detach =>
    exact hi.keep rfl rfl (fun c hc => absurd hc (Pc.afterDetach_ne_closure _ _ _ _))
  | @respond _ _ outcome =>
    cases hl
    exact hi.keep (by simp) (by simp) (by cases outcome <;> simp [Pc.afterJob])
  | recvJob | discard | attachStore | attachCheckFired | closureRet | closurePanic
  | normalizeAbort =>
    cases hl
    exact hi.keep (by simp) (by simp) (by simp)
  | submit | enqueue | refuseClosed | refuseFull | abandon | observe | dropSyncTask
  | detachTask => exact hi.keep rfl rfl (fun _ => id)
  | deadline | cancel | dropAsyncTask | fireInterrupt =>
    cases hl
    exact hi.keep (by simp [State.beginFire]) (by simp [State.beginFire]) (fun _ => id)
  | _ => cases hl

theorem counted_reachable {out : List V → V} {stmts : List String} {j : J}
    (hprog : cfg.prog j = .ofStmts out [] stmts) {s : State J K V}
    (h : (isle cfg).Reachable s) : Counted out stmts.length s j := by
  refine TransitionSystem.ReachableVia.invariant_of (J := fun s => Life s j)
    (I := fun s => Counted out stmts.length s j) (fun s hs => life_reachable hs j) ?_ ?_ h
  · exact ⟨fun c hc => (by cases hc), le_rfl, Nat.zero_le _⟩
  · exact fun s l t hJ hi _ hs => counted_step hprog hJ hi hs

/-! ## Interrupts that find a statement in progress -/

/-- A mark is set that will abort the statement in progress, or the next one that is started. -/
def Struck (conn : Engine (Source J)) : Prop := conn.marked = true ∧ 0 < conn.inProgress

namespace Struck

variable {conn : Engine (Source J)}

lemma interrupt {conn' : Engine (Source J)} (h : Struck conn)
    (hc : conn' = conn ∨ ∃ source, conn' = conn.interrupt source) : Struck conn' := by
  rcases hc with rfl | ⟨source, rfl⟩
  · exact h
  · exact ⟨rfl, h.2⟩

lemma start (h : Struck conn) : Struck conn.start :=
  ⟨(Engine.start_marked_of_busy h.2).trans h.1, Nat.succ_pos _⟩

end Struck

lemma Attached.struck {s : State J K V} {j : J} (hi : Attached s j)
    (hatt : s.pc.attached? = some j) (hpos : 0 < s.conn.inProgress) :
    Struck ((s.jobs j).token.interruptVia (.token j) s.conn) := by
  obtain ⟨i, hh⟩ := Option.ne_none_iff_exists'.mp (hi.handle.mpr hatt)
  rw [CancelToken.interruptVia_of_some hh]
  exact ⟨rfl, hpos⟩

/-- The closure of `j`, while it runs, has no statement left or is about to be aborted. -/
def Stopping (s : State J K V) (j : J) : Prop :=
  ∀ c, s.pc = .closure j c → c.atEnd = true ∨ Struck s.conn

/-- A closure that is about to be aborted stays so; what is left is how it was entered. -/
lemma stopping_step {out : List V → V} {n : ℕ} {s t : State J K V} {l : Label J K V} {j : J}
    (hcount : Counted out n s j) (hi : Stopping s j)
    (hcheck : l = .attachCheck j → s.pc = .attachCheck j → (s.jobs j).token.state = none →
      (cfg.prog j).atEnd = true ∨ Struck s.conn)
    (hinterrupt : l = .attachInterrupt j → s.pc = .attachInterrupt j →
      (cfg.prog j).atEnd = true ∨ Struck ((s.jobs j).token.interruptVia (.token j) s.conn))
    (hs : Step cfg s l t) : Stopping t j := by
  intro c hc
  obtain rfl | hf | hl := step_about hs j
  · cases hs with
    | threadFinish => cases hc
  · have hcur : s.pc.job? = some j := hf.current (by rw [hc]; rfl)
    rw [hf.pc hcur] at hc
    exact (hi c hc).imp_right (fun h => h.interrupt (hf.conn hcur))
  cases hs with
  | attachCheckNone hpc hstate =>
    cases hl
    cases hc
    exact hcheck rfl hpc hstate
  | attachInterrupt hpc =>
    cases hl
    cases hc
    exact hinterrupt rfl hpc
  | stmtStart hpc =>
    cases hl
    rcases hi _ hpc with hend | hstruck
    · cases hend
    · exact Or.inr hstruck.start
  | stmtComplete hpc hmark | stmtFail hpc hmark =>
    cases hl
    rcases hi _ hpc with hend | hstruck
    · cases hend
    · rw [hstruck.1] at hmark
      cases hmark
  | stmtAbort hpc =>
    cases hl
    cases hc
    obtain ⟨-, -, -, herr⟩ := (hcount.running _ hpc).of_finish
    rw [herr]
    exact Or.inl rfl
  | loadAbort | queuedCheck | normalizeToken =>
    dsimp only at hc
    split at hc <;> cases hc
  | detach => exact absurd hc (Pc.afterDetach_ne_closure _ _ _ _)
  | @respond _ _ outcome => cases outcome <;> cases hc
  | recvJob | discard | attachStore | attachCheckFired | closureRet | closurePanic
  | normalizeAbort => cases hc
  | fireInterrupt =>
    exact (hi c hc).imp_right (fun h => h.interrupt (CancelToken.interruptVia_eq _ _ _))
  | submit | enqueue | refuseClosed | refuseFull | abandon | observe | dropSyncTask
  | detachTask | deadline | cancel | dropAsyncTask => exact hi c hc
  | _ => cases hl

lemma completed_of_stopping {s t : State J K V} {l : Label J K V} {j : J} (hi : Stopping s j)
    (hs : Step cfg s l t) : (t.history j).completed = (s.history j).completed := by
  cases hs with
  | @stmtComplete i v k hpc hmark =>
    by_cases hij : i = j
    · subst hij
      rcases hi _ hpc with hend | hstruck
      · cases hend
      · rw [hstruck.1] at hmark
        cases hmark
    · simp [Ne.symm hij]
  | deadline | cancel | dropAsyncTask => exact update_field History.completed _ (by rfl) j
  | attachCheckNone | attachInterrupt | queuedCheck | stmtStart | closureRet | closurePanic
  | normalizeToken | normalizeAbort | respond | fireInterrupt =>
    exact update_field History.completed _ (by rfl) j
  | _ => rfl

/-- Where a job with an interrupted statement can be: its closure ends with `SQLITE_INTERRUPT`
and its response is one of `accept`. -/
def FallsAt (accept : Except IsleError V → Prop) (abort : Bool) (j : J) : Pc J V → Prop
  | .closure i c => i = j → c.atEnd = true →
      ∃ e, IsleError.isInterrupt e = true ∧ c = .ret (.error e)
  | .detach i result => i = j →
      ∃ e, IsleError.isInterrupt e = true ∧ result = .returned (.error e)
  | .normalizeAbort i _ => i = j → abort = true ∧ accept (.error .closed)
  | .respond i r _ => i = j → accept r
  | _ => True

structure Falls (accept : Except IsleError V → Prop) (s : State J K V) (j : J) : Prop where
  position : FallsAt accept s.abort j s.pc
  answered : ∀ r, (s.jobs j).response = .answered r → accept r

namespace Falls

variable {accept : Except IsleError V → Prop} {s t : State J K V} {j : J}

lemma of_frame (hi : Falls accept s j) (hf : Frame s t j) : Falls accept t j := by
  refine ⟨?_, by rw [hf.job]; exact hi.answered⟩
  by_cases hcur : s.pc.job? = some j
  · have hp := hi.position
    rw [hf.pc hcur]
    cases hpc : s.pc with
    | normalizeAbort =>
      rw [hpc] at hp
      exact fun hij => (hp hij).imp_left hf.abort
    | _ =>
      rw [hpc] at hp
      exact hp
  · have hcur' : t.pc.job? ≠ some j := fun h => hcur (hf.current h)
    cases hpc : t.pc with
    | closure | detach | normalizeAbort | respond =>
      rw [hpc] at hcur'
      exact fun hij => absurd (congrArg some hij) hcur'
    | _ => trivial

lemma keep (hi : Falls accept s j) (hpos : FallsAt accept t.abort j t.pc)
    (hresp : (t.jobs j).response = (s.jobs j).response ∨ (t.jobs j).response = .dropped) :
    Falls accept t j := by
  refine ⟨hpos, fun r hr => ?_⟩
  rcases hresp with h | h
  · rw [h] at hr
    exact hi.answered r hr
  · rw [h] at hr
    cases hr

lemma at_pc (hi : Falls accept s j) {pc : Pc J V} (hpc : s.pc = pc) :
    FallsAt accept s.abort j pc :=
  hpc ▸ hi.position

end Falls

lemma falls_serve {out : List V → V} {n : ℕ} {accept : Except IsleError V → Prop}
    {s t : State J K V} {l : Label J K V} {j : J} (hcount : Counted out n s j)
    (hstop : Stopping s j)
    (henter : s.pc = .attachCheck j ∨ s.pc = .attachInterrupt j → (cfg.prog j).atEnd = false)
    (hfired : ∀ err, (s.jobs j).token.fired = some err → accept (.error err))
    (hunfired : (s.jobs j).token.fired = none → s.abort = true ∧ accept (.error .closed))
    (hi : Falls accept s j) (hs : Step cfg s l t) (hl : l.job? = some j)
    (hserves : l.serves = true) : Falls accept t j := by
  cases hs with
  | attachCheckNone hpc | attachInterrupt hpc =>
    cases hl
    refine hi.keep (fun _ hend => ?_) (Or.inl rfl)
    rw [henter (by simp [hpc])] at hend
    cases hend
  | stmtStart hpc =>
    cases hl
    obtain ⟨-, hend, -⟩ := (hcount.running _ hpc).of_start
    refine hi.keep (fun _ h => ?_) (Or.inl rfl)
    rw [hend] at h
    cases h
  | stmtComplete hpc hmark | stmtFail hpc hmark =>
    cases hl
    rcases hstop _ hpc with hend | hstruck
    · cases hend
    · rw [hstruck.1] at hmark
      cases hmark
  | stmtAbort hpc =>
    cases hl
    obtain ⟨-, -, -, herr⟩ := (hcount.running _ hpc).of_finish
    exact hi.keep (fun _ _ => ⟨_, isInterrupt_interruptError, herr _⟩) (Or.inl rfl)
  | closureRet hpc =>
    cases hl
    obtain ⟨e, he, hc⟩ := hi.at_pc hpc rfl rfl
    cases hc
    exact hi.keep (fun _ => ⟨e, he, rfl⟩) (Or.inl rfl)
  | closurePanic hpc =>
    cases hl
    obtain ⟨e, he, hc⟩ := hi.at_pc hpc rfl rfl
    cases hc
  | detach hpc =>
    cases hl
    obtain ⟨e, he, hr⟩ := hi.at_pc hpc rfl
    cases hr
    refine hi.keep ?_ (Or.inl (by simp))
    simp only [Pc.afterDetach, he, if_true]
    trivial
  | queuedCheck hpc =>
    cases hl
    refine hi.keep ?_ (Or.inl rfl)
    cases herr : (s.jobs j).token.fired with
    | some err => exact fun _ => hfired err herr
    | none => trivial
  | normalizeToken hpc =>
    cases hl
    refine hi.keep ?_ (Or.inl rfl)
    cases herr : (s.jobs j).token.fired with
    | some err => exact fun _ => hfired err herr
    | none => exact fun _ => hunfired herr
  | normalizeAbort hpc =>
    cases hl
    obtain ⟨habort, hclosed⟩ := hi.at_pc hpc rfl
    refine hi.keep (fun _ => ?_) (Or.inl rfl)
    simpa only [habort, if_true] using hclosed
  | @respond _ _ outcome hpc =>
    cases hl
    have hr := hi.at_pc hpc rfl
    refine ⟨?_, fun r h => ?_⟩
    · cases outcome <;> trivial
    · simp only [Function.update_self] at h
      cases h
      exact hr
  | loadAbort hpc =>
    refine hi.keep ?_ (Or.inl rfl)
    dsimp only
    split <;> trivial
  | attachCheckFired => exact hi.keep trivial (Or.inl rfl)
  | attachStore =>
    cases hl
    exact hi.keep trivial (Or.inl (by simp))
  | discard =>
    cases hl
    exact hi.keep trivial (Or.inr (by simp))
  | _ => cases hserves

lemma falls_step {out : List V → V} {n : ℕ} {accept : Except IsleError V → Prop}
    {s t : State J K V} {l : Label J K V} {j : J} (hcount : Counted out n s j)
    (hstop : Stopping s j)
    (henter : s.pc = .attachCheck j ∨ s.pc = .attachInterrupt j → (cfg.prog j).atEnd = false)
    (hfired : ∀ err, (s.jobs j).token.fired = some err → accept (.error err))
    (hunfired : (s.jobs j).token.fired = none → s.abort = true ∧ accept (.error .closed))
    (hi : Falls accept s j) (hs : Step cfg s l t) : Falls accept t j := by
  have hstep := hs
  obtain rfl | hf | hl := step_about hs j
  · cases hs with
    | threadFinish =>
      refine hi.keep trivial ?_
      dsimp only [State.dropQueued]
      split
      · exact Or.inr rfl
      · exact Or.inl rfl
  · exact hi.of_frame hf
  cases hs with
  | recvJob => exact hi.keep trivial (Or.inl rfl)
  | submit | enqueue | observe | dropSyncTask | detachTask | fireInterrupt | deadline | cancel
  | dropAsyncTask =>
    cases hl
    exact hi.keep hi.position (Or.inl (by simp [State.beginFire]))
  | refuseClosed | refuseFull | abandon =>
    cases hl
    exact hi.keep hi.position (Or.inr (by simp [State.refuse]))
  | loadAbort | discard | queuedCheck | attachStore | attachCheckNone | attachCheckFired
  | attachInterrupt | stmtStart | stmtComplete | stmtFail | stmtAbort | closureRet | closurePanic
  | detach | normalizeToken | normalizeAbort | respond =>
    exact falls_serve hcount hstop henter hfired hunfired hi hstep hl rfl
  | _ => cases hl

end RusqliteIsle
