import RusqliteIsle.Lib.TransitionSystem

/-!
# Counting monitors

A monitor guards a number of units. A process that finds none free goes to sleep; whoever gives
a unit back wakes one sleeper if there is one. A woken process runs for a unit against everyone
else. No wake-up is lost: while someone sleeps, there are at most as many free units as woken
processes.
-/

namespace RusqliteIsle

/-- The free units, and the processes that are asleep and on their way. -/
structure Monitor where
  free : ℕ
  asleep : ℕ
  awake : ℕ

namespace Monitor

inductive Event where
  | take
  | resume
  | giveUp
  | sleep
  | release
  | wake

/-- `take` is a process that was not asleep, `resume` and `giveUp` a woken one that finds a free
unit or none, `wake` a sleeper that wakes up by itself. -/
inductive Step : Monitor → Event → Monitor → Prop
  | take {m : Monitor} (hfree : 0 < m.free) : Step m .take { m with free := m.free - 1 }
  | resume {m : Monitor} (hfree : 0 < m.free) (hawake : 0 < m.awake) :
      Step m .resume { m with free := m.free - 1, awake := m.awake - 1 }
  | giveUp {m : Monitor} (hfree : m.free = 0) (hawake : 0 < m.awake) :
      Step m .giveUp { m with awake := m.awake - 1 }
  | sleep {m : Monitor} (hfree : m.free = 0) : Step m .sleep { m with asleep := m.asleep + 1 }
  | releaseWake {m : Monitor} (hasleep : 0 < m.asleep) :
      Step m .release ⟨m.free + 1, m.asleep - 1, m.awake + 1⟩
  | releaseLost {m : Monitor} (hasleep : m.asleep = 0) :
      Step m .release { m with free := m.free + 1 }
  | wake {m : Monitor} (hasleep : 0 < m.asleep) :
      Step m .wake { m with asleep := m.asleep - 1, awake := m.awake + 1 }

/-- A monitor with `n` units, all of them free. -/
def system (n : ℕ) : TransitionSystem Monitor Event where
  init := ⟨n, 0, 0⟩
  step := Step

/-- No sleeper is left behind. -/
def Served (m : Monitor) : Prop := 0 < m.asleep → m.free ≤ m.awake

lemma served_step {m n : Monitor} {e : Event} (hi : Served m) (hs : Step m e n) : Served n := by
  intro hsleep
  cases hs with
  | take hfree | resume hfree =>
    have hle := hi hsleep
    change m.free - 1 ≤ _
    dsimp only
    omega
  | giveUp hfree | sleep hfree =>
    change m.free ≤ _
    rw [hfree]
    exact Nat.zero_le _
  | releaseWake hasleep =>
    have hle := hi hasleep
    change m.free + 1 ≤ m.awake + 1
    omega
  | releaseLost hasleep => exact absurd hasleep (Nat.ne_of_gt hsleep)
  | wake hasleep =>
    have hle := hi hasleep
    change m.free ≤ m.awake + 1
    omega

theorem served_reachable {n : ℕ} {m : Monitor} (h : (system n).Reachable m) : Served m := by
  refine TransitionSystem.Reachable.invariant (I := Served) ?_ ?_ h
  · intro hsleep
    exact absurd rfl (Nat.ne_of_gt hsleep)
  · exact fun m e n hi hs => served_step hi hs

end Monitor

end RusqliteIsle
