import RusqliteIsle.Isle.CallTimeout

/-!
# The two `call_timeout`s agree

For the same events of the job, whatever their order, the two calls give the same value, enter the
closure equally often and interrupt the connection equally often, and every order that one of them
meets is met by the other. A response that was sent is what the call returns, and a job that was
dropped without one gives `Closed`, wherever the deadline falls. The drop of the finished task
changes nothing.
-/

namespace RusqliteIsle

set_option linter.unusedSectionVars false

variable {P J K V : Type} [DecidableEq J] [DecidableEq K] {cfg : Config J V}

/-- What a call gives: its value, how often the closure was entered, and how often the connection
was interrupted through the token of the call. -/
structure CallOutcome (V : Type) where
  value : Except IsleError V
  invoked : ℕ
  interrupts : ℕ

/-- The call returns with the outcome `o` in a run with these events of its job. -/
def Yields (T : TransitionSystem (CallState P J K V) (CallLabel J K V))
    (returned : Except IsleError V → P) (j : J) (events : List (JobEvent V)) (o : CallOutcome V) :
    Prop :=
  ∃ c, T.Shows (CallState.shown j) events c ∧ c.pc = returned o.value ∧
    (c.isle.history j).invoked = o.invoked ∧ c.interrupts = o.interrupts

/-! ## From the asynchronous call to the synchronous one -/

lemma drop_step {j : J} {a b : CallState (AsyncPc V) J K V} {l : CallLabel J K V}
    (hsound : Sound a.isle) (hfits : a.pc.Fits (a.isle.jobs j)) (hs : AsyncStep cfg j a l b)
    (hdrop : a.pc.isDropped = true ∨ l.isDrop = true) :
    a.shown j l = [] ∧ b.pc.sync = a.pc.sync ∧ b.pc.isDropped = true := by
  have undropped {pc : AsyncPc V} {p : Prop} (hpc : a.pc = pc) (h : pc.isDropped = false)
      (hl : l.isDrop = false) : p := by
    rw [hpc, h, hl] at hdrop
    rcases hdrop with h | h <;> cases h
  cases hs with
  | @other l _ hother hs =>
    have hdropped : a.pc.isDropped = true := hdrop.resolve_right (by simp [CallLabel.isDrop])
    obtain ⟨r, hvalue⟩ := AsyncPc.value?_of_isDropped hdropped
    obtain ⟨front, hs⟩ := hs
    exact ⟨events_of_final hsound hs hother (ne_pending_of_wait (hfits.wait hvalue)), rfl, hdropped⟩
  | elapse => exact ⟨rfl, rfl, hdrop.resolve_right (by simp [CallLabel.isDrop])⟩
  | submit hpc | sent hpc | sendError hpc | ready hpc | pending hpc | again hpc | timeout hpc
  | expire hpc | interrupt hpc | await hpc => exact undropped hpc rfl rfl
  | drop hpc | dropInterrupt hpc => exact ⟨rfl, by rw [hpc]; rfl, rfl⟩

lemma sync_shows {j : J} {events : List (JobEvent V)} {a : CallState (AsyncPc V) J K V}
    (h : (asyncCall cfg j).Shows (CallState.shown j) events a) :
    ∃ c : CallState (SyncPc V) J K V, (syncCall cfg j).Shows (CallState.shown j) events c ∧
      c.pc = a.pc.sync ∧ (a.pc.isDropped = false → c = a.map AsyncPc.sync) := by
  refine TransitionSystem.Shows.invariant_of
    (J := fun a => Sound a.isle ∧ a.pc.Fits (a.isle.jobs j))
    (I := fun events a => ∃ c, (syncCall cfg j).Shows (CallState.shown j) events c ∧
      c.pc = a.pc.sync ∧ (a.pc.isDropped = false → c = a.map AsyncPc.sync))
    (fun a h => ⟨sound_of_asyncCall h, fits_reachable h⟩) ⟨_, .init, rfl, fun _ => rfl⟩ ?_ h
  rintro events a l b ⟨hsound, hfits⟩ ⟨c, hc, hpc, hsame⟩ hs
  by_cases hdrop : a.pc.isDropped = true ∨ l.isDrop = true
  · -- the synchronous call has returned, and waits
    obtain ⟨hshown, hvalue, hdropped⟩ := drop_step hsound hfits hs hdrop
    rw [hshown, List.append_nil]
    refine ⟨c, hc, hpc.trans hvalue.symm, fun h => ?_⟩
    rw [hdropped] at h
    cases h
  · obtain ⟨ha, hl⟩ := not_or.mp hdrop
    obtain rfl := hsame (Bool.eq_false_of_not_eq_true ha)
    have hshown : (a.map AsyncPc.sync).shown j l = a.shown j l := by cases l <;> rfl
    rw [← hshown]
    have hstep := syncStep_of_asyncStep hs (Bool.eq_false_of_not_eq_true hl)
    exact ⟨_, hc.step hstep, rfl, fun _ => rfl⟩

/-! ## Until the call returns -/

/-- What the call does itself. -/
def CallLabel.Own (j : J) : CallLabel J K V → Prop
  | .elapse => False
  | .look => True
  | .step l => l.caller? = some j
  | .drop _ => True

lemma wait_kept {j : J} {a b : CallState (AsyncPc V) J K V} {l : CallLabel J K V}
    {r : Except IsleError V} (ha : (asyncCall cfg j).Reachable a) (hs : AsyncStep cfg j a l b)
    (hwait : (a.isle.jobs j).response.wait = some r) :
    (b.isle.jobs j).response.wait = some r := by
  rcases isle_of_asyncStep hs with hsame | ⟨l', front, hstep⟩
  · rwa [hsame]
  · rwa [final_step ((sound_of_asyncCall ha).life j) hstep (ne_pending_of_wait hwait)]

lemma value_of_run {j : J} {a b : CallState (AsyncPc V) J K V} {r r' : Except IsleError V}
    (ha : (asyncCall cfg j).Reachable a) (hwait : (a.isle.jobs j).response.wait = some r)
    (hrun : (asyncCall cfg j).Run a b) (hvalue : b.pc.value? = some r') : r' = r := by
  have hkept : (asyncCall cfg j).Reachable b ∧ (b.isle.jobs j).response.wait = some r := by
    refine TransitionSystem.Run.invariant
      (I := fun b => (asyncCall cfg j).Reachable b ∧ (b.isle.jobs j).response.wait = some r)
      ?_ hrun ⟨ha, hwait⟩
    exact fun _ _ _ hi hs => ⟨hi.1.tail hs, wait_kept hi.1 hs hi.2⟩
  have hgot := (fits_reachable hkept.1).wait hvalue
  rw [hkept.2] at hgot
  exact (Option.some.inj hgot).symm

/-- The call gets the result `r` by its own steps. -/
def Gets (cfg : Config J V) (j : J) (a : CallState (AsyncPc V) J K V)
    (r : Except IsleError V) : Prop :=
  ∃ b, (asyncCall cfg j).RunVia (fun _ l => l.Own j ∧ l.isDrop = false) a b ∧ b.pc = .dropping r

section

variable {j : J} {a b : CallState (AsyncPc V) J K V} {r : Except IsleError V}

lemma Gets.head {l : CallLabel J K V} (h : Gets cfg j b r) (hs : AsyncStep cfg j a l b)
    (hown : l.Own j) (hl : l.isDrop = false) : Gets cfg j a r := by
  obtain ⟨d, hd, hpc⟩ := h
  exact ⟨d, .head hs ⟨hown, hl⟩ hd, hpc⟩

lemma fits_at {pc : AsyncPc V} (ha : (asyncCall cfg j).Reachable a) (hpc : a.pc = pc) :
    pc.Fits (a.isle.jobs j) :=
  hpc ▸ fits_reachable ha

lemma gets_polling (ha : (asyncCall cfg j).Reachable a)
    (hwait : (a.isle.jobs j).response.wait = some r) (hpc : a.pc = .polling) :
    Gets cfg j a r := by
  have hopen : OpenCall (a.isle.jobs j) .accepted false := fits_at ha hpc
  have hs : AsyncStep cfg j a _ _ := .ready hpc hwait
    (.observe hopen.submission hopen.holder hopen.observed hwait)
  exact ⟨_, .head hs ⟨rfl, rfl⟩ (.refl _), rfl⟩

lemma gets_awaiting (ha : (asyncCall cfg j).Reachable a)
    (hwait : (a.isle.jobs j).response.wait = some r) (hpc : a.pc = .awaiting) :
    Gets cfg j a r := by
  have hopen : OpenCall (a.isle.jobs j) .accepted true := fits_at ha hpc
  have hs : AsyncStep cfg j a _ _ := .await hpc hwait
    (.observe hopen.submission hopen.holder hopen.observed hwait)
  exact ⟨_, .head hs ⟨rfl, rfl⟩ (.refl _), rfl⟩

lemma gets_interrupting (ha : (asyncCall cfg j).Reachable a)
    (hwait : (a.isle.jobs j).response.wait = some r) (hpc : a.pc = .interrupting) :
    Gets cfg j a r := by
  have hfiring : 0 < (a.isle.jobs j).firing := (fits_at ha hpc).2
  have hs : AsyncStep cfg j a _ _ := .interrupt hpc (.fireInterrupt hfiring)
  exact (gets_awaiting (ha.tail hs) (wait_kept ha hs hwait) rfl).head hs rfl rfl

lemma gets_expiring (hapi : cfg.api j = .callTimeout) (ha : (asyncCall cfg j).Reachable a)
    (hwait : (a.isle.jobs j).response.wait = some r) (hpc : a.pc = .expiring) :
    Gets cfg j a r := by
  have hopen : OpenCall (a.isle.jobs j) .accepted false := fits_at ha hpc
  have hs : AsyncStep cfg j a _ _ := .expire hpc
    (.deadline hapi hopen.submission hopen.holder hopen.observed hopen.expired)
  exact (gets_interrupting (ha.tail hs) (wait_kept ha hs hwait) rfl).head hs rfl rfl

lemma gets_pollingTimer (hapi : cfg.api j = .callTimeout) (ha : (asyncCall cfg j).Reachable a)
    (hwait : (a.isle.jobs j).response.wait = some r) (hpc : a.pc = .pollingTimer) :
    Gets cfg j a r := by
  cases hclock : a.elapsed with
  | false =>
    have hs : AsyncStep cfg j a _ _ := .again hpc hclock
    exact (gets_polling (ha.tail hs) (wait_kept ha hs hwait) rfl).head hs trivial rfl
  | true =>
    have hs : AsyncStep cfg j a _ _ := .timeout hpc hclock
    exact (gets_expiring hapi (ha.tail hs) (wait_kept ha hs hwait) rfl).head hs trivial rfl

lemma gets (hapi : cfg.api j = .callTimeout) (ha : (asyncCall cfg j).Reachable a)
    (hwait : (a.isle.jobs j).response.wait = some r) (hdropped : a.pc.isDropped = false) :
    Gets cfg j a r := by
  have hfinal := ne_pending_of_wait hwait
  have hunsent := ((sound_of_asyncCall ha).life j).unsent
  cases hpc : a.pc with
  | start => exact absurd (hunsent (Or.inl (fits_at ha hpc).submission)).1 hfinal
  | sending => exact absurd (hunsent (Or.inr (fits_at ha hpc).submission)).1 hfinal
  | polling => exact gets_polling ha hwait hpc
  | pollingTimer => exact gets_pollingTimer hapi ha hwait hpc
  | expiring => exact gets_expiring hapi ha hwait hpc
  | interrupting => exact gets_interrupting ha hwait hpc
  | awaiting => exact gets_awaiting ha hwait hpc
  | dropping r' =>
    have hgot : (a.isle.jobs j).response.wait = some r' := (fits_at ha hpc).1
    rw [hwait] at hgot
    cases hgot
    exact ⟨a, .refl a, hpc⟩
  | dropInterrupting | returned =>
    rw [hpc] at hdropped
    cases hdropped

lemma exists_dropInterrupt (ha : (asyncCall cfg j).Reachable a) (hpc : a.pc = .dropInterrupting r) :
    ∃ b, AsyncStep cfg j a (.drop (.fireInterrupt j)) b ∧ b.pc = .returned r :=
  ⟨_, .dropInterrupt hpc (.fireInterrupt (fits_at ha hpc).2), rfl⟩

lemma exists_drop (ha : (asyncCall cfg j).Reachable a) (hpc : a.pc = .dropping r) :
    ∃ b d, AsyncStep cfg j a (.drop (.dropTask j)) b ∧
      AsyncStep cfg j b (.drop (.fireInterrupt j)) d ∧ d.pc = .returned r := by
  obtain ⟨-, hborn, hsent, hheld⟩ := fits_at ha hpc
  have hs : AsyncStep cfg j a _ _ := .drop hpc (.dropAsyncTask rfl hborn hsent hheld)
  obtain ⟨d, hd, hret⟩ := exists_dropInterrupt (ha.tail hs) rfl
  exact ⟨_, d, hs, hd, hret⟩

end

/-- From `c` the call returns `r` by its own steps, and never anything else. -/
structure Returns (T : TransitionSystem (CallState P J K V) (CallLabel J K V))
    (returned : Except IsleError V → P) (j : J) (c : CallState P J K V) (r : Except IsleError V) :
    Prop where
  only : ∀ d r', T.Run c d → d.pc = returned r' → r' = r
  can : ∃ d, T.RunVia (fun _ l => l.Own j) c d ∧ d.pc = returned r

/-- A response that was sent is returned unchanged, and a job that was dropped without a response
gives `Closed`. -/
structure Honours (T : TransitionSystem (CallState P J K V) (CallLabel J K V))
    (returned : Except IsleError V → P) (j : J) (c : CallState P J K V) : Prop where
  answered : ∀ r, (c.isle.jobs j).response = .answered r → Returns T returned j c r
  dropped : (c.isle.jobs j).response = .dropped → Returns T returned j c (.error .closed)

lemma Honours.of_wait {T : TransitionSystem (CallState P J K V) (CallLabel J K V)}
    {returned : Except IsleError V → P} {j : J} {c : CallState P J K V}
    (h : ∀ r, (c.isle.jobs j).response.wait = some r → Returns T returned j c r) :
    Honours T returned j c :=
  ⟨fun r hr => h r (by rw [hr]; rfl), fun hd => h _ (by rw [hd]; rfl)⟩

lemma async_honours {j : J} {a : CallState (AsyncPc V) J K V} (hapi : cfg.api j = .callTimeout)
    (ha : (asyncCall cfg j).Reachable a) : Honours (asyncCall cfg j) .returned j a := by
  refine .of_wait (fun r hwait => ⟨fun d r' hrun hpc => ?_, ?_⟩)
  · exact value_of_run ha hwait hrun (by rw [hpc]; rfl)
  cases hdropped : a.pc.isDropped with
  | false =>
    obtain ⟨b, hb, hpc⟩ := gets hapi ha hwait hdropped
    obtain ⟨d, e, hd, he, hret⟩ := exists_drop (ha.run hb.run) hpc
    have hrun : (asyncCall cfg j).RunVia (fun _ l => l.Own j) a b := hb.mono (fun _ _ h => h.1)
    exact ⟨e, (hrun.tail hd trivial).tail he trivial, hret⟩
  | true =>
    have hvalue {r' : Except IsleError V} : a.pc.value? = some r' → r' = r :=
      value_of_run ha hwait (.refl a)
    cases hpc : a.pc with
    | dropInterrupting r' =>
      obtain rfl := hvalue (by rw [hpc]; rfl)
      obtain ⟨d, hd, hret⟩ := exists_dropInterrupt ha hpc
      exact ⟨d, .head hd trivial (.refl d), hret⟩
    | returned r' =>
      obtain rfl := hvalue (by rw [hpc]; rfl)
      exact ⟨a, .refl a, hpc⟩
    | _ =>
      rw [hpc] at hdropped
      cases hdropped

lemma async_reachable {j : J} {c : CallState (SyncPc V) J K V}
    (hc : (syncCall cfg j).Reachable c) : (asyncCall cfg j).Reachable (c.map SyncPc.async) := by
  obtain ⟨events, hevents⟩ := hc.shows (CallState.shown j)
  exact (async_shows hevents).reachable

lemma sync_honours {j : J} {c : CallState (SyncPc V) J K V} (hapi : cfg.api j = .callTimeout)
    (hc : (syncCall cfg j).Reachable c) : Honours (syncCall cfg j) .returned j c := by
  have ha := async_reachable hc
  refine .of_wait (fun r hwait => ⟨fun d r' hrun hpc => ?_, ?_⟩)
  · have hrun' : (asyncCall cfg j).Run (c.map SyncPc.async) (d.map SyncPc.async) :=
      TransitionSystem.RunVia.map (fun _ l _ _ hs => ⟨l, trivial, asyncStep_of_syncStep hs⟩) hrun
    exact value_of_run ha hwait hrun' (by rw [CallState.map, hpc]; rfl)
  · have hundropped : (c.map SyncPc.async).pc.isDropped = false := by
      rw [CallState.map]
      cases c.pc <;> rfl
    obtain ⟨b, hb, hpc⟩ := gets hapi ha hwait hundropped
    have hrun : (syncCall cfg j).RunVia (fun _ l => l.Own j)
        ((c.map SyncPc.async).map AsyncPc.sync) (b.map AsyncPc.sync) :=
      hb.map (fun _ l _ hl hs => ⟨l, hl.1, syncStep_of_asyncStep hs hl.2⟩)
    rw [c.map_async_sync] at hrun
    exact ⟨_, hrun, by rw [CallState.map, hpc]; rfl⟩

/-! ## The drop of the task -/

/-- The drop of the finished task changes nothing but the token of its own job, which nobody reads
any more. -/
structure DropSpares (a b : CallState (AsyncPc V) J K V) (j : J) : Prop where
  isle : Spares a.isle b.isle j
  conn : b.isle.conn = a.isle.conn
  response : (b.isle.jobs j).response = (a.isle.jobs j).response
  invoked : (b.isle.history j).invoked = (a.isle.history j).invoked
  interrupts : b.interrupts = a.interrupts
  value : b.pc.value? = a.pc.value?

lemma drop_spares {j : J} {a b : CallState (AsyncPc V) J K V} {l : Label J K V}
    (ha : (asyncCall cfg j).Reachable a) (hs : AsyncStep cfg j a (.drop l) b) :
    DropSpares a b j := by
  have hsound := sound_of_asyncCall ha
  have final {r : Except IsleError V} (hvalue : a.pc.value? = some r) :
      (a.isle.jobs j).response ≠ .pending :=
    ne_pending_of_wait ((fits_reachable ha).wait hvalue)
  cases hs with
  | @drop t r hpc hs =>
    obtain ⟨hspares, hconn⟩ := spares_of_drop hs (Or.inl rfl)
    have hq := quiet_of_final hsound hs (final (by rw [hpc]; rfl))
    exact ⟨hspares, hconn, hq.response, hq.invoked, rfl, by rw [hpc]; rfl⟩
  | @dropInterrupt t r hpc hs =>
    have hfinal := final (r := r) (by rw [hpc]; rfl)
    have hq := quiet_of_final hsound hs hfinal
    refine ⟨spares_of_fire hs, ?_, hq.response, hq.invoked, ?_, by rw [hpc]; rfl⟩
    · cases hs with
      | fireInterrupt => exact CancelToken.interruptVia_of_none (over_of_final hsound hfinal).handle _ _
    · rw [CallState.act_interrupts, hq.issued, Nat.add_zero]

/-! ## The interrupts of a call -/

/-- The interrupts that are counted are those that reach the connection through the token. -/
structure Counts (c d : CallState P J K V) (j : J) : Prop where
  hit : IssuesInterrupt c.isle d.isle j → d.interrupts = c.interrupts + 1
  miss : ¬ IssuesInterrupt c.isle d.isle j → d.interrupts = c.interrupts

lemma counts_act {front : FrontEnd} {c : CallState P J K V} {l : Label J K V} {t : State J K V}
    {j : J} (hs : Step { cfg with front := front } c.isle l t) (pc : P) :
    Counts c (c.act j l t pc) j := by
  have hissued := issued_eq_one_iff hs (j := j)
  refine ⟨fun hhit => ?_, fun hmiss => ?_⟩
  · rw [CallState.act_interrupts, hissued.mpr hhit]
  · have hzero : c.isle.issued j l = 0 :=
      Nat.lt_one_iff.mp (lt_of_le_of_ne (issued_le_one _ _ _) (fun h => hmiss (hissued.mp h)))
    rw [CallState.act_interrupts, hzero, Nat.add_zero]

lemma counts_of_eq {c d : CallState P J K V} {j : J} (hisle : d.isle = c.isle)
    (hinterrupts : d.interrupts = c.interrupts) : Counts c d j := by
  refine ⟨fun hhit => ?_, fun _ => hinterrupts⟩
  rw [hisle] at hhit
  exact absurd hhit (Engine.interrupt_ne_of_mark rfl _)

lemma async_counts {j : J} {a b : CallState (AsyncPc V) J K V} {l : CallLabel J K V}
    (hs : AsyncStep cfg j a l b) : Counts a b j := by
  cases hs with
  | elapse | pending | again | timeout => exact counts_of_eq rfl rfl
  | other _ hs =>
    obtain ⟨front, hs⟩ := hs
    exact counts_act hs _
  | submit _ hs | sent _ hs | sendError _ hs | ready _ _ hs | expire _ hs | interrupt _ hs
  | await _ _ hs | drop _ hs | dropInterrupt _ hs => exact counts_act hs _

lemma sync_counts {j : J} {c d : CallState (SyncPc V) J K V} {l : CallLabel J K V}
    (hs : SyncStep cfg j c l d) : Counts c d j := by
  have hcounts := async_counts (asyncStep_of_syncStep hs)
  exact ⟨hcounts.hit, hcounts.miss⟩

/-! ## Agreement -/

/-- What the two calls have in common after the same events of their jobs. -/
structure CallsAgree (c : CallState (SyncPc V) J K V) (a : CallState (AsyncPc V) J K V) (i j : J) :
    Prop where
  response : (c.isle.jobs i).response = (a.isle.jobs j).response
  invoked : (c.isle.history i).invoked = (a.isle.history j).invoked
  interrupts : c.interrupts = a.interrupts
  value : ∀ r r', c.pc = .returned r → a.pc = .returned r' → r = r'

lemma calls_agree {cfg' : Config J V} {i j : J} (hprog : cfg'.prog j = cfg.prog i)
    {events : List (JobEvent V)} {c : CallState (SyncPc V) J K V} {a : CallState (AsyncPc V) J K V}
    (hc : (syncCall cfg i).Shows (CallState.shown i) events c)
    (ha : (asyncCall cfg' j).Shows (CallState.shown j) events a) : CallsAgree c a i j := by
  have hc' := async_shows hc
  have htc := tracks_of_shows hc'
  have hta := tracks_of_shows ha
  rw [hprog] at hta
  have hresponse : (c.isle.jobs i).response = (a.isle.jobs j).response :=
    htc.response.trans hta.response.symm
  refine ⟨hresponse, htc.invoked.trans hta.invoked.symm, htc.interrupts.trans hta.interrupts.symm,
    fun r r' hr hr' => ?_⟩
  have hwait : (c.isle.jobs i).response.wait = some r :=
    (fits_reachable hc'.reachable).wait (by rw [CallState.map, hr]; rfl)
  have hwait' := (fits_reachable ha.reachable).wait (by rw [hr']; rfl : a.pc.value? = some r')
  rw [← hresponse, hwait] at hwait'
  exact Option.some.inj hwait'

lemma yields_iff {j : J} {events : List (JobEvent V)} {o : CallOutcome V} :
    Yields (syncCall (K := K) cfg j) .returned j events o ↔
      Yields (asyncCall (K := K) cfg j) .returned j events o := by
  constructor
  · rintro ⟨c, hc, hpc, hinvoked, hinterrupts⟩
    have ha := async_shows hc
    have hpc' : (c.map SyncPc.async).pc = .dropping o.value := by
      rw [CallState.map, hpc]
      rfl
    obtain ⟨b, d, hb, hd, hret⟩ := exists_drop ha.reachable hpc'
    have hshown := (ha.step hb).step hd
    simp only [CallState.shown, List.append_nil] at hshown
    have hagree := calls_agree rfl hc hshown
    exact ⟨d, hshown, hret, hagree.invoked.symm.trans hinvoked,
      hagree.interrupts.symm.trans hinterrupts⟩
  · rintro ⟨a, ha, hpc, hinvoked, hinterrupts⟩
    obtain ⟨c, hc, hvalue, -⟩ := sync_shows ha
    have hagree := calls_agree rfl hc ha
    refine ⟨c, hc, ?_, hagree.invoked.trans hinvoked, hagree.interrupts.trans hinterrupts⟩
    rw [hvalue, hpc]
    rfl

/-- The two calls agree. The runs of the one and of the other in which the call returns have the
same events of the job with the same outcomes. After the same events of two jobs with one closure,
also in different isles and before the calls have returned, the two agree on the response, on how
often the closure was entered, and on how often the connection was interrupted. Both calls return a
response that was sent, before or after the deadline, and `Closed` if there will be none. The drop of
the finished task changes none of this. What is counted as an interrupt is one of the connection. -/
theorem call_timeouts_agree {i : J} (hapi : cfg.api i = .callTimeout) :
    (∀ events o, Yields (syncCall (K := K) cfg i) .returned i events o ↔
      Yields (asyncCall (K := K) cfg i) .returned i events o) ∧
    (∀ (cfg' : Config J V) (j : J), cfg'.prog j = cfg.prog i →
      ∀ events (c : CallState (SyncPc V) J K V) (a : CallState (AsyncPc V) J K V),
        (syncCall cfg i).Shows (CallState.shown i) events c →
        (asyncCall cfg' j).Shows (CallState.shown j) events a → CallsAgree c a i j) ∧
    (∀ c, (syncCall (K := K) cfg i).Reachable c → Honours (syncCall cfg i) .returned i c) ∧
    (∀ a, (asyncCall (K := K) cfg i).Reachable a → Honours (asyncCall cfg i) .returned i a) ∧
    (∀ (a b : CallState (AsyncPc V) J K V) l, (asyncCall cfg i).Reachable a →
      AsyncStep cfg i a (.drop l) b → DropSpares a b i) ∧
    (∀ (c d : CallState (SyncPc V) J K V) l, SyncStep cfg i c l d → Counts c d i) ∧
    (∀ (a b : CallState (AsyncPc V) J K V) l, AsyncStep cfg i a l b → Counts a b i) :=
  ⟨fun _ _ => yields_iff, fun _ _ hprog _ _ _ hc ha => calls_agree hprog hc ha,
    fun _ hc => sync_honours hapi hc, fun _ ha => async_honours hapi ha,
    fun _ _ _ ha hs => drop_spares ha hs, fun _ _ _ hs => sync_counts hs,
    fun _ _ _ hs => async_counts hs⟩

/-- One call with a timeout, which runs one statement. -/
def oneTimeout : Config Unit ℕ := { oneJob with api := fun _ => .callTimeout }

/-- The deadline falls while the statement is in progress. -/
def timeoutEvents : List (JobEvent ℕ) :=
  [.enqueue, .take, .abortCheck false, .queuedCheck, .attachStore, .attachCheck, .stmtStart,
    .deadline, .interrupt, .stmtFinish (.error interruptError), .closureEnd, .detach,
    .normalizeToken, .respond]

/-- The synchronous call times out, and with it the asynchronous one. -/
theorem call_timeouts_agree_timeout : Yields (asyncCall (K := Unit) oneTimeout ()) .returned ()
    timeoutEvents ⟨.error .timeout, 1, 1⟩ := by
  have h0 : (syncCall (K := Unit) oneTimeout ()).Shows (CallState.shown ()) [] _ := .init
  have h1 := h0.step (.submit rfl (.submit rfl (by decide) rfl))
  have h2 := h1.step (.sent rfl (.enqueue rfl rfl))
  have h3 := h2.step (.other (by decide) ⟨.sync, .recvJob (j := ()) rfl rfl⟩)
  have h4 := h3.step (.other (by decide) ⟨.sync, .loadAbort (j := ()) rfl⟩)
  have h5 := h4.step (.other (by decide) ⟨.sync, .queuedCheck (j := ()) rfl⟩)
  have h6 := h5.step (.other (by decide) ⟨.sync, .attachStore (j := ()) rfl⟩)
  have h7 := h6.step (.other (by decide) ⟨.sync, .attachCheckNone (j := ()) rfl rfl⟩)
  have h8 := h7.step (.other (by decide) ⟨.sync, .stmtStart (j := ()) rfl⟩)
  have h9 := h8.step (.elapse rfl)
  have h10 := h9.step (.empty rfl rfl)
  have h11 := h10.step (.timeout rfl rfl)
  have h12 := h11.step (.expire rfl (.deadline rfl rfl rfl rfl rfl))
  have h13 := h12.step (.interrupt rfl (.fireInterrupt (by decide)))
  have h14 := h13.step (.other (by decide) ⟨.sync, .stmtAbort (j := ()) rfl rfl⟩)
  have h15 := h14.step (.other (by decide) ⟨.sync, .closureRet (j := ()) rfl⟩)
  have h16 := h15.step (.other (by decide) ⟨.sync, .detach (j := ()) rfl⟩)
  have h17 := h16.step (.other (by decide) ⟨.sync, .normalizeToken (j := ()) rfl⟩)
  have h18 := h17.step (.other (by decide) ⟨.sync, .respond (j := ()) rfl⟩)
  have h19 := h18.step (.wait rfl rfl (.observe rfl rfl rfl rfl))
  exact ((call_timeouts_agree rfl).1 timeoutEvents ⟨.error .timeout, 1, 1⟩).mp
    ⟨_, h19, rfl, rfl, rfl⟩

end RusqliteIsle
