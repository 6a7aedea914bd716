import Mathlib.Logic.Relation
import Mathlib.Order.Basic

/-!
# Transition systems

A system has one initial state and a labelled step relation. Claims about every
interleaving are claims about the states reached by `Run`; claims about the runs
whose steps all meet a condition `P` are claims about `RunVia P`. The rules below
lift what one step preserves to what a whole run preserves.
-/

namespace RusqliteIsle

/-- A labelled transition system with a single initial state. -/
structure TransitionSystem (S L : Type*) where
  init : S
  step : S → L → S → Prop

namespace TransitionSystem

variable {S L : Type*} (T : TransitionSystem S L) (P : S → L → Prop)

/-- The states reached from `s` by steps that meet `P` in the state they leave. -/
def RunVia (s t : S) : Prop :=
  Relation.ReflTransGen (fun u v => ∃ l, P u l ∧ T.step u l v) s t

/-- The states reached from `s` by arbitrary steps. -/
def Run (s t : S) : Prop := T.RunVia (fun _ _ => True) s t

/-- The states reached from the initial state by steps that meet `P`. -/
def ReachableVia (t : S) : Prop := T.RunVia P T.init t

/-- The states reached from the initial state. -/
def Reachable (t : S) : Prop := T.Run T.init t

variable {T P}

lemma RunVia.refl (s : S) : T.RunVia P s s := Relation.ReflTransGen.refl

lemma RunVia.tail {s t u : S} {l : L} (h : T.RunVia P s t) (hs : T.step t l u) (hP : P t l) :
    T.RunVia P s u :=
  Relation.ReflTransGen.tail h ⟨l, hP, hs⟩

lemma RunVia.trans {s t u : S} (h : T.RunVia P s t) (h' : T.RunVia P t u) : T.RunVia P s u :=
  Relation.ReflTransGen.trans h h'

lemma RunVia.here {s t : S} (_ : T.RunVia P s t) : T.RunVia P t t := RunVia.refl t

/-- The empty run at the end of a run, to be continued by steps that meet `Q`. -/
lemma RunVia.here_via (Q : S → L → Prop) {s t : S} (_ : T.RunVia P s t) : T.RunVia Q t t :=
  RunVia.refl t

lemma RunVia.mono {Q : S → L → Prop} (hPQ : ∀ s l, P s l → Q s l) {s t : S}
    (h : T.RunVia P s t) : T.RunVia Q s t :=
  Relation.ReflTransGen.mono (fun u _ ⟨l, hl, hs⟩ => ⟨l, hPQ u l hl, hs⟩) _ _ h

lemma RunVia.map {S' L' : Type*} {A : TransitionSystem S' L'} {Q : S' → L' → Prop} {f : S → S'}
    (hstep : ∀ s l t, P s l → T.step s l t → ∃ l', Q (f s) l' ∧ A.step (f s) l' (f t)) {s t : S}
    (h : T.RunVia P s t) : A.RunVia Q (f s) (f t) :=
  Relation.ReflTransGen.lift f (fun u v ⟨l, hl, hs⟩ => hstep u l v hl hs) _ _ h

lemma RunVia.head {s t u : S} {l : L} (hs : T.step s l t) (hP : P s l) (h : T.RunVia P t u) :
    T.RunVia P s u :=
  Relation.ReflTransGen.head ⟨l, hP, hs⟩ h

lemma RunVia.run {s t : S} (h : T.RunVia P s t) : T.Run s t :=
  h.mono (fun _ _ _ => trivial)

lemma Run.refl (s : S) : T.Run s s := RunVia.refl s

lemma Run.tail {s t u : S} {l : L} (h : T.Run s t) (hs : T.step t l u) : T.Run s u :=
  RunVia.tail h hs trivial

lemma Run.trans {s t u : S} (h : T.Run s t) (h' : T.Run t u) : T.Run s u :=
  RunVia.trans h h'

lemma Reachable.refl : T.Reachable T.init := Run.refl _

lemma Reachable.run {s t : S} (h : T.Reachable s) (h' : T.Run s t) : T.Reachable t :=
  Run.trans h h'

lemma Reachable.tail {s t : S} {l : L} (h : T.Reachable s) (hs : T.step s l t) : T.Reachable t :=
  Run.tail h hs

lemma ReachableVia.reachable {s : S} (h : T.ReachableVia P s) : T.Reachable s := RunVia.run h

lemma ReachableVia.run {s t : S} (h : T.ReachableVia P s) (h' : T.RunVia P s t) :
    T.ReachableVia P t :=
  RunVia.trans h h'

/-- What holds in a state and is kept by every step that meets `P` holds along the run. -/
theorem RunVia.invariant {I : S → Prop} (hstep : ∀ s l t, I s → P s l → T.step s l t → I t)
    {s t : S} (h : T.RunVia P s t) (hs : I s) : I t := by
  induction h with
  | refl => exact hs
  | tail _ hst ih =>
    obtain ⟨l, hP, hl⟩ := hst
    exact hstep _ l _ ih hP hl

theorem Run.invariant {I : S → Prop} (hstep : ∀ s l t, I s → T.step s l t → I t)
    {s t : S} (h : T.Run s t) (hs : I s) : I t :=
  RunVia.invariant (fun s l t hI _ => hstep s l t hI) h hs

theorem ReachableVia.invariant {I : S → Prop} (hinit : I T.init)
    (hstep : ∀ s l t, I s → P s l → T.step s l t → I t) {t : S} (h : T.ReachableVia P t) : I t :=
  RunVia.invariant hstep h hinit

theorem Reachable.invariant {I : S → Prop} (hinit : I T.init)
    (hstep : ∀ s l t, I s → T.step s l t → I t) {t : S} (h : T.Reachable t) : I t :=
  Run.invariant hstep h hinit

/-- An invariant relative to facts known of all reachable states. -/
theorem ReachableVia.invariant_of {J I : S → Prop} (hJ : ∀ s, T.Reachable s → J s)
    (hinit : I T.init) (hstep : ∀ s l t, J s → I s → P s l → T.step s l t → I t) {t : S}
    (h : T.ReachableVia P t) : I t := by
  have hboth : T.Reachable t ∧ I t := by
    refine ReachableVia.invariant (I := fun s => T.Reachable s ∧ I s) ⟨Reachable.refl, hinit⟩ ?_ h
    rintro s l u ⟨hr, hI⟩ hP hs
    exact ⟨hr.tail hs, hstep s l u (hJ s hr) hI hP hs⟩
  exact hboth.2

/-- Along a run from a reachable state, what every step keeps, given facts known of all
reachable states, is kept. -/
theorem RunVia.invariant_of {J I : S → Prop} (hJ : ∀ s, T.Reachable s → J s)
    (hstep : ∀ s l t, J s → I s → P s l → T.step s l t → I t) {s t : S} (hr : T.Reachable s)
    (h : T.RunVia P s t) (hs : I s) : I t := by
  have hboth : T.Reachable t ∧ I t := by
    refine RunVia.invariant (I := fun s => T.Reachable s ∧ I s) ?_ h ⟨hr, hs⟩
    rintro s l u ⟨hr, hI⟩ hP hs
    exact ⟨hr.tail hs, hstep s l u (hJ s hr) hI hP hs⟩
  exact hboth.2

section

variable {E : Type*} (T) (obs : S → L → List E)

/-- A run from the initial state, and the events that its steps show: a step labelled `l` that
leaves `s` shows `obs s l`. -/
inductive Shows : List E → S → Prop
  | init : Shows [] T.init
  | step {trace : List E} {s t : S} {l : L} (h : Shows trace s) (hs : T.step s l t) :
      Shows (trace ++ obs s l) t

variable {T obs}

lemma Shows.reachable {trace : List E} {s : S} (h : T.Shows obs trace s) : T.Reachable s := by
  induction h with
  | init => exact Reachable.refl
  | step _ hs ih => exact ih.tail hs

lemma Reachable.shows {s : S} (h : T.Reachable s) (obs : S → L → List E) :
    ∃ trace, T.Shows obs trace s := by
  refine Reachable.invariant (I := fun s => ∃ trace, T.Shows obs trace s) ⟨[], .init⟩ ?_ h
  rintro s l t ⟨trace, htrace⟩ hs
  exact ⟨trace ++ obs s l, htrace.step hs⟩

/-- An invariant of the states and of what has been shown. -/
theorem Shows.invariant {I : List E → S → Prop} (hinit : I [] T.init)
    (hstep : ∀ trace s l t, I trace s → T.step s l t → I (trace ++ obs s l) t) {trace : List E}
    {s : S} (h : T.Shows obs trace s) : I trace s := by
  induction h with
  | init => exact hinit
  | step _ hs ih => exact hstep _ _ _ _ ih hs

/-- An invariant of the states and of what has been shown, relative to facts known of all
reachable states. -/
theorem Shows.invariant_of {J : S → Prop} {I : List E → S → Prop} (hJ : ∀ s, T.Reachable s → J s)
    (hinit : I [] T.init)
    (hstep : ∀ trace s l t, J s → I trace s → T.step s l t → I (trace ++ obs s l) t)
    {trace : List E} {s : S} (h : T.Shows obs trace s) : I trace s := by
  induction h with
  | init => exact hinit
  | step h hs ih => exact hstep _ _ _ _ (hJ _ h.reachable) ih hs

/-- What `T` shows is shown by `A`, if every step of `T` is a step of `A` between the images of its
states that shows the same events. -/
theorem Shows.map {S' L' : Type*} {A : TransitionSystem S' L'} {obs' : S' → L' → List E} {f : S → S'}
    (hinit : f T.init = A.init)
    (hstep : ∀ s l t, T.step s l t → ∃ l', A.step (f s) l' (f t) ∧ obs' (f s) l' = obs s l)
    {trace : List E} {s : S} (h : T.Shows obs trace s) : A.Shows obs' trace (f s) := by
  induction h with
  | init =>
    rw [hinit]
    exact .init
  | step _ hs ih =>
    obtain ⟨l', hs', hobs⟩ := hstep _ _ _ hs
    rw [← hobs]
    exact ih.step hs'

end

/-- `f` abstracts the states of `T` to states of `A` for as long as `W` holds: on states that
satisfy `I`, every step of `T` to a state of `W` is a step of `A` or leaves the abstract state as
it was. Once `W` fails it does not hold again. -/
structure Simulation {S' L' : Type*} (T : TransitionSystem S L) (A : TransitionSystem S' L')
    (f : S → S') (I W : S → Prop) : Prop where
  init : f T.init = A.init
  back : ∀ s l t, T.step s l t → W t → W s
  step : ∀ s l t, I s → W t → T.step s l t → f t = f s ∨ ∃ e, A.step (f s) e (f t)

/-- The abstraction of a reachable state of `W` is reachable. -/
theorem Simulation.reachable {S' L' : Type*} {A : TransitionSystem S' L'} {f : S → S'}
    {I W : S → Prop} (h : Simulation T A f I W) (hI : ∀ s, T.Reachable s → I s) {s : S}
    (hs : T.Reachable s) (hW : W s) : A.Reachable (f s) := by
  refine ReachableVia.invariant_of (J := I) hI (I := fun s => W s → A.Reachable (f s)) ?_ ?_ hs hW
  · intro _
    rw [h.init]
    exact Reachable.refl
  · intro s l t hIs hr _ hst hWt
    have habs := hr (h.back s l t hst hWt)
    rcases h.step s l t hIs hWt hst with heq | ⟨e, he⟩
    · rw [heq]
      exact habs
    · exact habs.tail he

end TransitionSystem

end RusqliteIsle
