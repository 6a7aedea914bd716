import Mathlib.Data.List.Basic
import Mathlib.Data.List.Nodup

/-!
# Bounded channels

A bounded first-in-first-out channel with many senders and one receiver. The
channel carries its history: what was ever sent is what was received, followed by
what is buffered, followed by what was dropped together with the receiver. A
channel of capacity zero hands a message over only to a receiver that is waiting.
-/

namespace RusqliteIsle

/-- A bounded channel with the history of its messages. -/
structure Fifo (α : Type*) where
  cap : ℕ
  alive : Bool
  buffer : List α
  sent : List α
  received : List α
  lost : List α
  history : sent = received ++ buffer ++ lost
  lost_nil : alive = true → lost = []
  buffer_nil : alive = false → buffer = []

namespace Fifo

variable {α : Type*}

/-- A fresh channel whose receiver is alive. -/
def empty (cap : ℕ) : Fifo α := ⟨cap, true, [], [], [], [], rfl, fun _ => rfl, fun _ => rfl⟩

/-- Whether one more message fits. -/
def hasRoom (q : Fifo α) (waiting : Bool) : Bool :=
  if q.cap = 0 then waiting && q.buffer.isEmpty else q.buffer.length < q.cap

/-- Send a message: it fails when the receiver is gone and does not happen while full. -/
def push? (q : Fifo α) (waiting : Bool) (a : α) : Option (Fifo α) :=
  if h : q.alive = true ∧ q.hasRoom waiting = true then
    some { q with
      buffer := q.buffer ++ [a]
      sent := q.sent ++ [a]
      history := by rw [q.history, q.lost_nil h.1]; simp
      buffer_nil := fun hd => by rw [h.1] at hd; cases hd }
  else none

/-- Receive the oldest message. -/
def pop? (q : Fifo α) : Option (α × Fifo α) :=
  match h : q.buffer with
  | [] => none
  | a :: rest => some (a, { q with
      received := q.received ++ [a]
      buffer := rest
      history := by rw [q.history, h]; simp
      buffer_nil := fun hd => by rw [q.buffer_nil hd] at h; cases h })

/-- Drop the receiver and every buffered message with it. -/
def close (q : Fifo α) : Fifo α :=
  { q with
    alive := false
    buffer := []
    lost := q.buffer ++ q.lost
    history := by rw [q.history]; simp
    lost_nil := fun h => by cases h
    buffer_nil := fun _ => rfl }

@[simp] lemma empty_alive (cap : ℕ) : (empty cap : Fifo α).alive = true := rfl
@[simp] lemma empty_buffer (cap : ℕ) : (empty cap : Fifo α).buffer = [] := rfl
@[simp] lemma empty_sent (cap : ℕ) : (empty cap : Fifo α).sent = [] := rfl
@[simp] lemma empty_lost (cap : ℕ) : (empty cap : Fifo α).lost = [] := rfl
@[simp] lemma empty_received (cap : ℕ) : (empty cap : Fifo α).received = [] := rfl

@[simp] lemma close_alive (q : Fifo α) : q.close.alive = false := rfl
@[simp] lemma close_buffer (q : Fifo α) : q.close.buffer = [] := rfl
@[simp] lemma close_sent (q : Fifo α) : q.close.sent = q.sent := rfl
@[simp] lemma close_lost (q : Fifo α) : q.close.lost = q.buffer ++ q.lost := rfl
@[simp] lemma close_received (q : Fifo α) : q.close.received = q.received := rfl

/-- What a successful send did. -/
structure Pushed (q : Fifo α) (a : α) (q' : Fifo α) : Prop where
  was_alive : q.alive = true
  alive : q'.alive = true
  buffer : q'.buffer = q.buffer ++ [a]
  sent : q'.sent = q.sent ++ [a]
  received : q'.received = q.received
  lost : q'.lost = q.lost

lemma push?_some {q q' : Fifo α} {waiting : Bool} {a : α} (h : q.push? waiting a = some q') :
    Pushed q a q' := by
  unfold push? at h
  split at h
  · rename_i hroom
    cases h
    exact ⟨hroom.1, hroom.1, rfl, rfl, rfl, rfl⟩
  · cases h

lemma hasRoom_of_push? {q q' : Fifo α} {waiting : Bool} {a : α}
    (h : q.push? waiting a = some q') : q.hasRoom waiting = true := by
  unfold push? at h
  split at h
  · next hroom => exact hroom.2
  · cases h

lemma cap_of_push? {q q' : Fifo α} {waiting : Bool} {a : α} (h : q.push? waiting a = some q') :
    q'.cap = q.cap := by
  unfold push? at h
  split at h
  · cases h
    rfl
  · cases h

/-- A message that fits leaves no more than the capacity, or it is the only one and its receiver
is waiting. -/
lemma length_of_hasRoom {q : Fifo α} {waiting : Bool} (h : q.hasRoom waiting = true) :
    q.buffer.length + 1 ≤ q.cap ∨ q.buffer = [] ∧ waiting = true := by
  unfold hasRoom at h
  split at h
  · exact Or.inr (by simpa [and_comm] using h)
  · exact Or.inl (Nat.succ_le_of_lt (by simpa using h))

lemma exists_push? {q : Fifo α} {waiting : Bool} (halive : q.alive = true)
    (hroom : q.hasRoom waiting = true) (a : α) : ∃ q', q.push? waiting a = some q' :=
  ⟨_, dif_pos ⟨halive, hroom⟩⟩

/-- What a successful receive did. -/
structure Popped (q : Fifo α) (a : α) (q' : Fifo α) : Prop where
  alive : q'.alive = q.alive
  buffer : q.buffer = a :: q'.buffer
  sent : q'.sent = q.sent
  received : q'.received = q.received ++ [a]
  lost : q'.lost = q.lost

lemma pop?_some {q q' : Fifo α} {a : α} (h : q.pop? = some (a, q')) : Popped q a q' := by
  unfold pop? at h
  split at h
  · cases h
  · rename_i b rest hb
    cases h
    exact ⟨rfl, hb, rfl, rfl, rfl⟩

lemma cap_of_pop? {q q' : Fifo α} {a : α} (h : q.pop? = some (a, q')) : q'.cap = q.cap := by
  unfold pop? at h
  split at h
  · cases h
  · cases h
    rfl

lemma exists_pop? {q : Fifo α} {a : α} {rest : List α} (h : q.buffer = a :: rest) :
    ∃ q', q.pop? = some (a, q') := by
  unfold pop?
  split
  · next hnil =>
    rw [hnil] at h
    cases h
  · next b rest' hcons =>
    rw [hcons] at h
    cases h
    exact ⟨_, rfl⟩

/-- Messages are received in the order in which they were sent. -/
theorem received_append_buffer (q : Fifo α) (h : q.alive = true) :
    q.received ++ q.buffer = q.sent := by
  rw [q.history, q.lost_nil h, List.append_nil]

lemma mem_sent_of_received {q : Fifo α} {a : α} (h : a ∈ q.received) : a ∈ q.sent := by
  rw [q.history]
  simp [h]

lemma mem_sent_of_buffer {q : Fifo α} {a : α} (h : a ∈ q.buffer) : a ∈ q.sent := by
  rw [q.history]
  simp [h]

lemma mem_lost_of_sent {q : Fifo α} {a : α} (h : a ∈ q.sent) (hr : a ∉ q.received)
    (hb : a ∉ q.buffer) : a ∈ q.lost := by
  rw [q.history] at h
  simpa [hr, hb] using h

end Fifo

end RusqliteIsle
