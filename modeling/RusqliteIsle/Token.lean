import RusqliteIsle.Error
import RusqliteIsle.Lib.Engine

/-!
# Cancellation tokens

A token holds an atomic state and, behind a mutex, the interrupt handle of the
connection that runs its job. `fire` is two atomic actions, a compare-exchange of
the state and an interrupt under the lock of the handle; `attach` is three, a
store of the handle, a load of the state and an interrupt under the lock. Each
action is one definition here, and the steps of the isle interleave them.
-/

namespace RusqliteIsle

/-- The reasons a token can be fired for: `STATE_CANCELLED` and `STATE_TIMEOUT`. -/
inductive FireReason where
  | cancelled
  | timeout
  deriving DecidableEq, Repr

/-- The error a fire reason maps to. -/
def FireReason.error : FireReason → IsleError
  | .cancelled => .cancelled
  | .timeout => .timeout

/-- The handle of the one connection of an isle. -/
abbrev InterruptHandle := Unit

/-- `TokenInner`: `state` is `none` for `STATE_NONE`. -/
structure CancelToken where
  state : Option FireReason
  handle : Option InterruptHandle

namespace CancelToken

def new : CancelToken := ⟨none, none⟩

/-- The compare-exchange of `fire`: the first reason is kept. -/
def compareExchange (t : CancelToken) (reason : FireReason) : CancelToken :=
  match t.state with
  | none => { t with state := some reason }
  | some _ => t

/-- `if let Some(h) = guard.as_ref() { h.interrupt() }`, under the lock of the handle. -/
def interruptVia {σ : Type*} (t : CancelToken) (source : σ) (conn : Engine σ) : Engine σ :=
  match t.handle with
  | some _ => conn.interrupt source
  | none => conn

def isCancelled (t : CancelToken) : Bool := t.state = some .cancelled

/-- The error this token maps to, if it has fired. -/
def fired (t : CancelToken) : Option IsleError := t.state.map FireReason.error

/-- The store of `attach`. -/
def attach (t : CancelToken) (handle : InterruptHandle) : CancelToken :=
  { t with handle := some handle }

def detach (t : CancelToken) : CancelToken := { t with handle := none }

@[simp] lemma new_state : new.state = none := rfl
@[simp] lemma new_handle : new.handle = none := rfl
@[simp] lemma attach_state (t : CancelToken) (h : InterruptHandle) :
    (t.attach h).state = t.state := rfl
@[simp] lemma attach_handle (t : CancelToken) (h : InterruptHandle) :
    (t.attach h).handle = some h := rfl
@[simp] lemma detach_state (t : CancelToken) : t.detach.state = t.state := rfl
@[simp] lemma detach_handle (t : CancelToken) : t.detach.handle = none := rfl

@[simp] lemma compareExchange_handle (t : CancelToken) (r : FireReason) :
    (t.compareExchange r).handle = t.handle := by
  unfold compareExchange
  cases t.state <;> rfl

lemma compareExchange_state (t : CancelToken) (r : FireReason) :
    (t.compareExchange r).state = some (t.state.getD r) := by
  unfold compareExchange
  cases h : t.state with
  | none => rfl
  | some r' => simp [h]

lemma compareExchange_state_of_fired {t : CancelToken} {r r' : FireReason}
    (h : t.state = some r) : (t.compareExchange r').state = some r := by
  rw [compareExchange_state, h]
  rfl

lemma fired_eq_none {t : CancelToken} : t.fired = none ↔ t.state = none := by
  simp [fired]

lemma fired_eq_some {t : CancelToken} {err : IsleError} :
    t.fired = some err ↔ ∃ reason, t.state = some reason ∧ reason.error = err := by
  simp [fired]

lemma interruptVia_of_none {σ : Type*} {t : CancelToken} (h : t.handle = none) (source : σ)
    (conn : Engine σ) : t.interruptVia source conn = conn := by
  simp [interruptVia, h]

lemma interruptVia_of_some {σ : Type*} {t : CancelToken} {i : InterruptHandle}
    (h : t.handle = some i) (source : σ) (conn : Engine σ) :
    t.interruptVia source conn = conn.interrupt source := by
  simp [interruptVia, h]

lemma interruptVia_eq {σ : Type*} (t : CancelToken) (source : σ) (conn : Engine σ) :
    t.interruptVia source conn = conn ∨ ∃ x, t.interruptVia source conn = conn.interrupt x := by
  unfold interruptVia
  cases t.handle with
  | none => exact Or.inl rfl
  | some i => exact Or.inr ⟨source, rfl⟩

@[simp] lemma interruptVia_inProgress {σ : Type*} (t : CancelToken) (source : σ)
    (conn : Engine σ) : (t.interruptVia source conn).inProgress = conn.inProgress := by
  unfold interruptVia
  cases t.handle <;> rfl

lemma mem_mark_interruptVia {σ : Type*} {t : CancelToken} {source x : σ} {conn : Engine σ}
    (h : x ∈ (t.interruptVia source conn).mark) :
    x ∈ conn.mark ∨ x = source ∧ t.handle ≠ none := by
  unfold interruptVia at h
  cases ht : t.handle with
  | none =>
    rw [ht] at h
    exact Or.inl h
  | some i =>
    rw [ht] at h
    rcases List.mem_cons.mp h with rfl | hm
    · exact Or.inr ⟨rfl, by simp⟩
    · exact Or.inl hm

lemma eq_of_interruptVia {σ : Type*} {t : CancelToken} {source x : σ} {conn : Engine σ}
    (h : t.interruptVia source conn = conn.interrupt x) : source = x ∧ t.handle ≠ none := by
  cases ht : t.handle with
  | none =>
    rw [interruptVia_of_none ht] at h
    exact absurd h (Engine.interrupt_ne_of_mark rfl x)
  | some i =>
    rw [interruptVia_of_some ht] at h
    exact ⟨(List.cons.inj (congrArg Engine.mark h)).1, by simp⟩

lemma interruptVia_eq_interrupt_iff {σ : Type*} {t : CancelToken} {source x : σ}
    {conn : Engine σ} :
    t.interruptVia source conn = conn.interrupt x ↔ source = x ∧ t.handle ≠ none := by
  refine ⟨eq_of_interruptVia, ?_⟩
  rintro ⟨rfl, hhandle⟩
  obtain ⟨i, hi⟩ := Option.ne_none_iff_exists'.mp hhandle
  exact interruptVia_of_some hi source conn

end CancelToken

end RusqliteIsle
