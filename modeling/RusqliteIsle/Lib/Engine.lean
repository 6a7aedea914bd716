import Mathlib.Data.List.Basic

/-!
# Interruptible engines

An engine runs statements, possibly nested, and has one interrupt mark for the
whole connection. Interrupting sets the mark at any time; the mark aborts the
statements in progress; starting a statement while none is in progress clears it.
The mark remembers who set it.
-/

namespace RusqliteIsle

/-- The statements in progress and the callers that have set the interrupt mark. -/
structure Engine (σ : Type*) where
  inProgress : ℕ
  mark : List σ

namespace Engine

variable {σ : Type*}

def idle : Engine σ := ⟨0, []⟩

/-- Whether the interrupt mark is set. -/
def marked (e : Engine σ) : Bool := !e.mark.isEmpty

/-- Set the interrupt mark. -/
def interrupt (e : Engine σ) (source : σ) : Engine σ := { e with mark := source :: e.mark }

/-- Start a statement. -/
def start (e : Engine σ) : Engine σ :=
  ⟨e.inProgress + 1, if e.inProgress = 0 then [] else e.mark⟩

/-- A statement ends, by completion or by an error. -/
def finish (e : Engine σ) : Engine σ := { e with inProgress := e.inProgress - 1 }

@[simp] lemma idle_inProgress : (idle : Engine σ).inProgress = 0 := rfl
@[simp] lemma idle_mark : (idle : Engine σ).mark = [] := rfl
@[simp] lemma interrupt_inProgress (e : Engine σ) (source : σ) :
    (e.interrupt source).inProgress = e.inProgress := rfl
@[simp] lemma interrupt_mark (e : Engine σ) (source : σ) :
    (e.interrupt source).mark = source :: e.mark := rfl
@[simp] lemma start_inProgress (e : Engine σ) : e.start.inProgress = e.inProgress + 1 := rfl
@[simp] lemma finish_inProgress (e : Engine σ) : e.finish.inProgress = e.inProgress - 1 := rfl
@[simp] lemma finish_mark (e : Engine σ) : e.finish.mark = e.mark := rfl

@[simp] lemma interrupt_marked (e : Engine σ) (source : σ) :
    (e.interrupt source).marked = true := rfl

lemma start_mark_of_idle {e : Engine σ} (h : e.inProgress = 0) : e.start.mark = [] := by
  simp [start, h]

lemma interrupt_ne_of_mark {e e' : Engine σ} (h : e'.mark = e.mark) (source : σ) :
    e' ≠ e.interrupt source := by
  intro heq
  have hm := congrArg Engine.mark heq
  rw [h, interrupt_mark] at hm
  exact List.cons_ne_self _ _ hm.symm

lemma start_ne_interrupt (e : Engine σ) (source : σ) : e.start ≠ e.interrupt source := by
  intro heq
  have hn := congrArg Engine.inProgress heq
  simp at hn

lemma start_mark_of_busy {e : Engine σ} (h : 0 < e.inProgress) : e.start.mark = e.mark := by
  simp [start, Nat.ne_of_gt h]

lemma start_marked_of_busy {e : Engine σ} (h : 0 < e.inProgress) :
    e.start.marked = e.marked := by
  rw [marked, start_mark_of_busy h, marked]

/-- A mark that survives the start of a statement was set during another one. -/
lemma mem_mark_of_start {e : Engine σ} {source : σ} (h : source ∈ e.start.mark) :
    source ∈ e.mark ∧ 0 < e.inProgress := by
  by_cases h0 : e.inProgress = 0
  · rw [start_mark_of_idle h0] at h
    cases h
  · simp only [start, h0, if_false] at h
    exact ⟨h, Nat.pos_of_ne_zero h0⟩

end Engine

end RusqliteIsle
