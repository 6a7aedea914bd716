import RusqliteIsle.Lib.TransitionSystem
import Mathlib.Order.WellFounded

/-!
# Progress

What has to happen is a claim about unbounded runs. An action that is possible from some instant
on, or again and again, is taken at last if the run is fair to it. The rules below turn a rank
that the fair actions lower, and that no other action raises, into progress.
-/

namespace RusqliteIsle

namespace TransitionSystem

variable {S L : Type*} (T : TransitionSystem S L)

/-- An unbounded run from a reachable state. Nothing happens at an instant without a label, so
that a run that stops is one that stays in its last state. -/
structure Execution where
  state : ℕ → S
  label : ℕ → Option L
  start : T.Reachable (state 0)
  idle : ∀ n, label n = none → state (n + 1) = state n
  move : ∀ n l, label n = some l → T.step (state n) l (state (n + 1))

/-- Some action of `A` is possible. -/
def Enabled (A : L → Prop) (s : S) : Prop := ∃ l t, A l ∧ T.step s l t

/-- A component of a system: what it sees of a state, and what it sees of an action, which may be
nothing. -/
structure Component {S' L' : Type*} (C : TransitionSystem S' L') where
  state : S → S'
  label : L → Option L'
  reachable : ∀ s, T.Reachable s → C.Reachable (state s)
  idle : ∀ s l t, T.Reachable s → T.step s l t → label l = none → state t = state s
  move : ∀ s l t l', T.Reachable s → T.step s l t → label l = some l' →
    C.step (state s) l' (state t)

namespace Execution

variable {T} (e : T.Execution)

/-- An action of `A` is taken at the instant `n`. -/
def Takes (A : L → Prop) (n : ℕ) : Prop := ∃ l, A l ∧ e.label n = some l

/-- If from some instant on an action of `A` is always possible, then one is taken. -/
def WeaklyFair (A : L → Prop) : Prop :=
  ∀ n, (∀ m, n ≤ m → T.Enabled A (e.state m)) → ∃ m, n ≤ m ∧ e.Takes A m

/-- If an action of `A` is possible again and again, then one is taken. -/
def StronglyFair (A : L → Prop) : Prop :=
  ∀ n, (∀ m, n ≤ m → ∃ k, m ≤ k ∧ T.Enabled A (e.state k)) → ∃ m, n ≤ m ∧ e.Takes A m

/-- Whenever `P` holds, `Q` holds then or later. -/
def LeadsTo (P Q : S → Prop) : Prop := ∀ n, P (e.state n) → ∃ m, n ≤ m ∧ Q (e.state m)

variable {e} {A : L → Prop} {P Q R : S → Prop}

lemma next (e : T.Execution) (n : ℕ) :
    e.label n = none ∧ e.state (n + 1) = e.state n ∨
      ∃ l, e.label n = some l ∧ T.step (e.state n) l (e.state (n + 1)) := by
  cases h : e.label n with
  | none => exact Or.inl ⟨rfl, e.idle n h⟩
  | some l => exact Or.inr ⟨l, rfl, e.move n l h⟩

lemma run (e : T.Execution) {n m : ℕ} (h : n ≤ m) : T.Run (e.state n) (e.state m) := by
  induction m, h using Nat.le_induction with
  | base => exact Run.refl _
  | succ m _ ih =>
    obtain ⟨-, heq⟩ | ⟨l, -, hs⟩ := e.next m
    · rw [heq]
      exact ih
    · exact ih.tail hs

lemma reachable (e : T.Execution) (n : ℕ) : T.Reachable (e.state n) :=
  e.start.run (e.run (Nat.zero_le n))

lemma stays (e : T.Execution) {I : S → Prop}
    (hI : ∀ s l t, T.Reachable s → I s → T.step s l t → I t) {n m : ℕ} (h : n ≤ m)
    (hn : I (e.state n)) : I (e.state m) :=
  RunVia.invariant_of (J := T.Reachable) (fun _ hr => hr) (fun s l t hr hs _ => hI s l t hr hs)
    (e.reachable n) (e.run h) hn

lemma LeadsTo.of_imp (h : ∀ s, T.Reachable s → P s → Q s) : e.LeadsTo P Q :=
  fun n hn => ⟨n, le_rfl, h _ (e.reachable n) hn⟩

lemma LeadsTo.trans (h : e.LeadsTo P Q) (h' : e.LeadsTo Q R) : e.LeadsTo P R := by
  intro n hn
  obtain ⟨m, hm, hQ⟩ := h n hn
  obtain ⟨k, hk, hR⟩ := h' m hQ
  exact ⟨k, hm.trans hk, hR⟩

lemma LeadsTo.mono (h : e.LeadsTo P Q) (hQ : ∀ s, T.Reachable s → Q s → R s) : e.LeadsTo P R :=
  h.trans (.of_imp hQ)

lemma LeadsTo.or {P' : S → Prop} (h : e.LeadsTo P Q) (h' : e.LeadsTo P' Q) :
    e.LeadsTo (fun s => P s ∨ P' s) Q :=
  fun n hn => hn.elim (h n) (h' n)

lemma keeps_or_reaches (hkeep : ∀ s l t, T.Reachable s → P s → T.step s l t → P t ∨ Q t) {n m : ℕ}
    (hm : n ≤ m) (hP : P (e.state n)) : P (e.state m) ∨ ∃ k, n ≤ k ∧ Q (e.state k) := by
  induction m, hm using Nat.le_induction with
  | base => exact Or.inl hP
  | succ m hm ih =>
    obtain hPm | hQ := ih
    · obtain ⟨-, heq⟩ | ⟨l, -, hs⟩ := e.next m
      · exact Or.inl (heq ▸ hPm)
      · exact (hkeep _ l _ (e.reachable m) hPm hs).imp_right (fun hQ => ⟨m + 1, by omega, hQ⟩)
    · exact Or.inr hQ

/-- From `n` on, either `Q` is reached, or the rank falls, or neither has happened yet and no
action of `A` was taken. -/
lemma lowers_or_waits {α : Type*} {r : α → α → Prop} {rank : S → α}
    (hstep : ∀ s l t, T.Reachable s → P s → ¬ Q s → T.step s l t →
      Q t ∨ P t ∧ (r (rank t) (rank s) ∨ rank t = rank s ∧ ¬ A l)) {n : ℕ} (hP : P (e.state n))
    (k : ℕ) :
    (∃ m, n ≤ m ∧ (Q (e.state m) ∨ P (e.state m) ∧ r (rank (e.state m)) (rank (e.state n)))) ∨
      P (e.state (n + k)) ∧ rank (e.state (n + k)) = rank (e.state n) ∧
        ∀ m, n ≤ m → m < n + k → ¬ e.Takes A m := by
  induction k with
  | zero => exact Or.inr ⟨hP, rfl, fun m hm hm' => absurd hm' (by omega)⟩
  | succ k ih =>
    obtain hdone | ⟨hPk, hrank, hnone⟩ := ih
    · exact Or.inl hdone
    obtain ⟨hl, heq⟩ | ⟨l, hl, hs⟩ := e.next (n + k)
    · refine Or.inr ⟨by rwa [← Nat.add_assoc, heq], by rw [← Nat.add_assoc, heq, hrank], ?_⟩
      intro m hm hm' ⟨l, hA, hlm⟩
      obtain hlt | rfl := Nat.lt_or_eq_of_le (show m ≤ n + k by omega)
      · exact hnone m hm hlt ⟨l, hA, hlm⟩
      · rw [hl] at hlm
        cases hlm
    · by_cases hQ : Q (e.state (n + k))
      · exact Or.inl ⟨n + k, by omega, Or.inl hQ⟩
      obtain hQt | ⟨hPt, hlow | ⟨hsame, hA⟩⟩ := hstep _ l _ (e.reachable _) hPk hQ hs
      · exact Or.inl ⟨n + k + 1, by omega, Or.inl hQt⟩
      · exact Or.inl ⟨n + k + 1, by omega, Or.inr ⟨hPt, hrank ▸ hlow⟩⟩
      · refine Or.inr ⟨hPt, hsame.trans hrank, ?_⟩
        intro m hm hm' ⟨l', hA', hlm⟩
        obtain hlt | rfl := Nat.lt_or_eq_of_le (show m ≤ n + k by omega)
        · exact hnone m hm hlt ⟨l', hA', hlm⟩
        · rw [hl] at hlm
          cases hlm
          exact hA hA'

/-- Progress by rank: if an action of `A` is possible for as long as `Q` has not been reached,
and until then every action of `A` lowers the rank and no other action raises it, then `Q` is
reached. -/
theorem WeaklyFair.leadsTo {α : Type*} {r : α → α → Prop} (hfair : e.WeaklyFair A) (rank : S → α)
    (hr : WellFounded r) (henabled : ∀ s, T.Reachable s → P s → ¬ Q s → T.Enabled A s)
    (hstep : ∀ s l t, T.Reachable s → P s → ¬ Q s → T.step s l t →
      Q t ∨ P t ∧ (r (rank t) (rank s) ∨ rank t = rank s ∧ ¬ A l)) : e.LeadsTo P Q := by
  intro n hn
  induction hrank : rank (e.state n) using hr.induction generalizing n with
  | _ a ih =>
    subst hrank
    by_contra hnone
    have hwait (k : ℕ) : P (e.state (n + k)) ∧ ∀ m, n ≤ m → m < n + k → ¬ e.Takes A m := by
      obtain ⟨m, hm, hQ | ⟨hP, hlow⟩⟩ | ⟨hP, -, htakes⟩ := e.lowers_or_waits hstep hn k
      · exact absurd ⟨m, hm, hQ⟩ hnone
      · obtain ⟨m', hm', hQ⟩ := ih _ hlow m hP rfl
        exact absurd ⟨m', hm.trans hm', hQ⟩ hnone
      · exact ⟨hP, htakes⟩
    obtain ⟨m, hm, htakes⟩ := hfair n (fun m hm => by
      obtain ⟨k, rfl⟩ := Nat.exists_eq_add_of_le hm
      exact henabled _ (e.reachable _) (hwait k).1 (fun hQ => hnone ⟨_, hm, hQ⟩))
    exact (hwait (m - n + 1)).2 m hm (by omega) htakes

/-- Progress by one action that is possible again and again until then. -/
theorem StronglyFair.leadsTo (hfair : e.StronglyFair A)
    (hrecurs : ∀ n, (∀ m, n ≤ m → P (e.state m) ∧ ¬ Q (e.state m)) →
      ∃ m, n ≤ m ∧ T.Enabled A (e.state m))
    (hkeep : ∀ s l t, T.Reachable s → P s → ¬ Q s → T.step s l t → Q t ∨ P t)
    (htake : ∀ s l t, T.Reachable s → P s → ¬ Q s → A l → T.step s l t → Q t) :
    e.LeadsTo P Q := by
  intro n hn
  by_contra hnone
  have hQ (m : ℕ) (hm : n ≤ m) : ¬ Q (e.state m) := fun h => hnone ⟨m, hm, h⟩
  have hP (m : ℕ) (hm : n ≤ m) : P (e.state m) := by
    induction m, hm using Nat.le_induction with
    | base => exact hn
    | succ m hm ih =>
      obtain ⟨-, heq⟩ | ⟨l, -, hs⟩ := e.next m
      · rwa [heq]
      · exact (hkeep _ l _ (e.reachable m) ih (hQ m hm) hs).resolve_left (hQ _ (by omega))
  obtain ⟨m, hm, l, hA, hl⟩ :=
    hfair n (fun m hm => hrecurs m (fun k hk => ⟨hP k (hm.trans hk), hQ k (hm.trans hk)⟩))
  exact hQ (m + 1) (by omega)
    (htake _ l _ (e.reachable m) (hP m hm) (hQ m hm) hA (e.move m l hl))

/-- A part of the state that is `c` is left by its own actions, if they are possible again and again
while it is `c`. -/
theorem StronglyFair.leaves {β : Type*} {f : S → β} {c : β} (hfair : e.StronglyFair A)
    (hrecurs : ∀ n, (∀ m, n ≤ m → f (e.state m) = c) → ∃ m, n ≤ m ∧ T.Enabled A (e.state m))
    (hact : ∀ s l t, f s = c → A l → T.step s l t → f t ≠ c)
    (hleave : ∀ s l t, f s = c → T.step s l t → f t ≠ c → Q t) :
    e.LeadsTo (fun s => f s = c) Q := by
  refine hfair.leadsTo (fun n hn => hrecurs n (fun m hm => (hn m hm).1)) ?_ ?_
  · intro s l t _ hc _ hs
    by_cases hct : f t = c
    · exact Or.inr hct
    · exact Or.inl (hleave s l t hc hs hct)
  · exact fun s l t _ hc _ hA hs => hleave s l t hc hs (hact s l t hc hA hs)

/-- A part of the state that does not stay `c` is left by a step, and what is kept until then can be
used there. -/
theorem LeadsTo.change {β : Type*} {f : S → β} {c : β}
    (h : e.LeadsTo (fun s => f s = c) (fun s => f s ≠ c))
    (hstep : ∀ s l t, T.Reachable s → P s → f s = c → T.step s l t → f t = c ∧ P t ∨ Q t) :
    e.LeadsTo (fun s => P s ∧ f s = c) Q := by
  intro n hn
  obtain ⟨m, hm, hne⟩ := h n hn.2
  by_contra hnone
  have hstays (k : ℕ) (hk : n ≤ k) : P (e.state k) ∧ f (e.state k) = c := by
    induction k, hk using Nat.le_induction with
    | base => exact hn
    | succ k hk ih =>
      obtain ⟨-, heq⟩ | ⟨l, -, hs⟩ := e.next k
      · rwa [heq]
      · obtain ⟨hc, hP⟩ | hQ := hstep _ l _ (e.reachable k) ih.1 ih.2 hs
        · exact ⟨hP, hc⟩
        · exact absurd ⟨k + 1, by omega, hQ⟩ hnone
  exact hne (hstays m hm).2

/-- Progress by a rank that falls step by step, whatever it is that makes it fall. -/
theorem LeadsTo.of_rank {α : Type*} {r : α → α → Prop} (hr : WellFounded r) (rank : S → α)
    (h : ∀ a, e.LeadsTo (fun s => P s ∧ rank s = a) (fun s => Q s ∨ P s ∧ r (rank s) a)) :
    e.LeadsTo P Q := by
  intro n hn
  induction hrank : rank (e.state n) using hr.induction generalizing n with
  | _ a ih =>
    obtain ⟨m, hm, hQ | ⟨hP, hlow⟩⟩ := h a n ⟨hn, hrank⟩
    · exact ⟨m, hm, hQ⟩
    · obtain ⟨k, hk, hQ⟩ := ih _ hlow m hP rfl
      exact ⟨k, hm.trans hk, hQ⟩

/-! ## Parts of an execution -/

/-- The execution from the instant `n` on. -/
def after (e : T.Execution) (n : ℕ) : T.Execution where
  state m := e.state (n + m)
  label m := e.label (n + m)
  start := e.reachable n
  idle m h := e.idle (n + m) h
  move m l h := e.move (n + m) l h

lemma takes_after {n m : ℕ} : (e.after n).Takes A m ↔ e.Takes A (n + m) := Iff.rfl

lemma WeaklyFair.after (h : e.WeaklyFair A) (n : ℕ) : (e.after n).WeaklyFair A := by
  intro m hm
  obtain ⟨k, hk, htakes⟩ := h (n + m) (fun k hk => by
    obtain ⟨d, rfl⟩ := Nat.exists_eq_add_of_le hk
    exact Nat.add_assoc n m d ▸ hm (m + d) (Nat.le_add_right m d))
  obtain ⟨d, rfl⟩ := Nat.exists_eq_add_of_le hk
  exact ⟨m + d, Nat.le_add_right m d, takes_after.mpr (Nat.add_assoc n m d ▸ htakes)⟩

lemma StronglyFair.after (h : e.StronglyFair A) (n : ℕ) : (e.after n).StronglyFair A := by
  intro m hm
  obtain ⟨k, hk, htakes⟩ := h (n + m) (fun k hk => by
    obtain ⟨d, rfl⟩ := Nat.exists_eq_add_of_le hk
    obtain ⟨i, hi, henabled⟩ := hm (m + d) (Nat.le_add_right m d)
    exact ⟨n + i, by omega, henabled⟩)
  obtain ⟨d, rfl⟩ := Nat.exists_eq_add_of_le hk
  exact ⟨m + d, Nat.le_add_right m d, takes_after.mpr (Nat.add_assoc n m d ▸ htakes)⟩

section

variable {S' L' : Type*} {C : TransitionSystem S' L'} (c : Component T C) {A' : L' → Prop}

/-- The execution as the component sees it. -/
def project (e : T.Execution) : C.Execution where
  state n := c.state (e.state n)
  label n := (e.label n).bind c.label
  start := c.reachable _ e.start
  idle n h := by
    obtain ⟨-, heq⟩ | ⟨l, hl, hs⟩ := e.next n
    · rw [heq]
    · rw [hl] at h
      exact c.idle _ l _ (e.reachable n) hs h
  move n l' h := by
    obtain ⟨l, hl, hl'⟩ := Option.bind_eq_some_iff.mp h
    exact c.move _ l _ l' (e.reachable n) (e.move n l hl) hl'

variable {c}

lemma Takes.project {n : ℕ} (h : e.Takes A n)
    (hsee : ∀ l, e.label n = some l → A l → ∃ l', c.label l = some l' ∧ A' l') :
    (e.project c).Takes A' n := by
  obtain ⟨l, hA, hl⟩ := h
  obtain ⟨l', hl', hA'⟩ := hsee l hl hA
  exact ⟨l', hA', Option.bind_eq_some_iff.mpr ⟨l, hl, hl'⟩⟩

/-- The component is treated fairly if the system is, and the system can act when the component
can. -/
lemma WeaklyFair.project (hfair : e.WeaklyFair A)
    (henabled : ∀ n, C.Enabled A' (c.state (e.state n)) → T.Enabled A (e.state n))
    (hsee : ∀ n l, e.label n = some l → A l → ∃ l', c.label l = some l' ∧ A' l') :
    (e.project c).WeaklyFair A' := by
  intro n hn
  obtain ⟨m, hm, htakes⟩ := hfair n (fun m hm => henabled m (hn m hm))
  exact ⟨m, hm, htakes.project (hsee m)⟩

/-- A component whose actions the system only holds up for a while is treated fairly if the system
is treated strongly fairly. -/
lemma StronglyFair.project_weaklyFair (hfair : e.StronglyFair A)
    (henabled : ∀ n, (∀ m, n ≤ m → C.Enabled A' (c.state (e.state m))) →
      ∃ m, n ≤ m ∧ T.Enabled A (e.state m))
    (hsee : ∀ n l, e.label n = some l → A l → ∃ l', c.label l = some l' ∧ A' l') :
    (e.project c).WeaklyFair A' := by
  intro n hn
  obtain ⟨m, hm, htakes⟩ := hfair n (fun m hm => henabled m (fun k hk => hn k (hm.trans hk)))
  exact ⟨m, hm, htakes.project (hsee m)⟩

lemma StronglyFair.project (hfair : e.StronglyFair A)
    (henabled : ∀ n, C.Enabled A' (c.state (e.state n)) → T.Enabled A (e.state n))
    (hsee : ∀ n l, e.label n = some l → A l → ∃ l', c.label l = some l' ∧ A' l') :
    (e.project c).StronglyFair A' := by
  intro n hn
  obtain ⟨m, hm, htakes⟩ := hfair n (fun m hm => by
    obtain ⟨k, hk, hen⟩ := hn m hm
    exact ⟨k, hk, henabled k hen⟩)
  exact ⟨m, hm, htakes.project (hsee m)⟩

end

/-! ## Runs that stop -/

/-- The execution stays in `t` from some instant on. -/
def Stops (e : T.Execution) (t : S) : Prop := ∃ n, ∀ m, n ≤ m → e.state m = t

lemma Stops.stronglyFair {t : S} (h : e.Stops t) (ht : ¬ T.Enabled A t) : e.StronglyFair A := by
  intro n hn
  obtain ⟨k, hk⟩ := h
  obtain ⟨m, hm, hen⟩ := hn (max n k) (le_max_left n k)
  rw [hk m ((le_max_right n k).trans hm)] at hen
  exact absurd hen ht

lemma StronglyFair.weaklyFair (h : e.StronglyFair A) : e.WeaklyFair A :=
  fun n hn => h n (fun m hm => ⟨m, le_rfl, hn m hm⟩)

/-- Every run through states of `I` is the beginning of an execution that stops where it ends and
goes through states of `I` only. -/
theorem exists_stops_within {I : S → Prop} {s t : S} (hs : T.Reachable s)
    (h : T.RunVia (fun s _ => I s) s t) (ht : I t) :
    ∃ e : T.Execution, e.state 0 = s ∧ e.Stops t ∧ ∀ n, I (e.state n) := by
  induction h using Relation.ReflTransGen.head_induction_on with
  | refl =>
    refine ⟨⟨fun _ => t, fun _ => none, hs, fun _ _ => rfl, fun _ _ h => by cases h⟩, rfl, ⟨0, ?_⟩,
      fun _ => ht⟩
    exact fun _ _ => rfl
  | @head s u hstep _ ih =>
    obtain ⟨l, hI, hl⟩ := hstep
    obtain ⟨e, h0, ⟨k, hk⟩, hIe⟩ := ih (hs.tail hl)
    refine ⟨⟨fun n => n.casesOn s e.state, fun n => n.casesOn (some l) e.label, hs, ?_, ?_⟩, rfl,
      ⟨k + 1, ?_⟩, ?_⟩
    · rintro (_ | n) hn
      · cases hn
      · exact e.idle n hn
    · rintro (_ | n) l' hn
      · cases hn
        change T.step _ l (e.state 0)
        rwa [h0]
      · exact e.move n l' hn
    · rintro (_ | m) hm
      · omega
      · exact hk m (by omega)
    · rintro (_ | n)
      · exact hI
      · exact hIe n

/-- Every run is the beginning of an execution that stops where it ends. -/
theorem exists_stops {s t : S} (hs : T.Reachable s) (h : T.Run s t) :
    ∃ e : T.Execution, e.state 0 = s ∧ e.Stops t := by
  obtain ⟨e, h0, hstops, -⟩ := exists_stops_within (I := fun _ => True) hs h trivial
  exact ⟨e, h0, hstops⟩

lemma Stops.leadsTo {t : S} (h : e.Stops t) (hQ : Q t) : e.LeadsTo P Q := by
  intro n _
  obtain ⟨k, hk⟩ := h
  exact ⟨max n k, le_max_left n k, by rwa [hk _ (le_max_right n k)]⟩

end Execution

end TransitionSystem

end RusqliteIsle
