import Mathlib.Data.List.Basic

/-!
# Recency

A log lists its entries in the order in which they were made. One element was logged later than
another if it has an entry after which the other one has none. A stack whose elements are logged
as they are pushed is sorted by recency: the element on top is the one that was pushed last.
-/

namespace RusqliteIsle

variable {α : Type*} {log stack : List α} {a b : α}

/-- The last entry of `b`, if there is one, comes before an entry of `a`. -/
def Later (log : List α) (a b : α) : Prop :=
  ∃ before after, log = before ++ a :: after ∧ b ∉ a :: after

lemma later_last (log : List α) (h : b ≠ a) : Later (log ++ [a]) a b :=
  ⟨log, [], rfl, by simpa using h⟩

lemma Later.append (h : Later log a b) {c : α} (hc : b ≠ c) : Later (log ++ [c]) a b := by
  obtain ⟨before, after, rfl, hb⟩ := h
  refine ⟨before, after ++ [c], by simp, ?_⟩
  rw [← List.cons_append, List.mem_append, List.mem_singleton]
  exact not_or.mpr ⟨hb, hc⟩

/-- The stack is sorted, with the element that was logged last on top. -/
def Recent (log stack : List α) : Prop := stack.Pairwise (Later log)

lemma Recent.nil (log : List α) : Recent log [] := List.Pairwise.nil

lemma Recent.sublist {stack' : List α} (h : Recent log stack) (hsub : stack'.Sublist stack) :
    Recent log stack' :=
  List.Pairwise.sublist hsub h

lemma Recent.note (h : Recent log stack) (hnew : a ∉ stack) : Recent (log ++ [a]) stack := by
  refine List.Pairwise.imp_of_mem (fun {b c} _ hc hlater => hlater.append ?_) h
  exact fun heq => hnew (heq ▸ hc)

lemma Recent.push (h : Recent log stack) (hnew : a ∉ stack) :
    Recent (log ++ [a]) (a :: stack) := by
  refine List.pairwise_cons.mpr ⟨fun b hb => later_last log ?_, h.note hnew⟩
  exact fun heq => hnew (heq ▸ hb)

lemma Recent.around {above below : List α} (h : Recent log (above ++ a :: below)) :
    (∀ b ∈ above, Later log b a) ∧ ∀ b ∈ below, Later log a b := by
  obtain ⟨-, hbelow, habove⟩ := List.pairwise_append.mp h
  exact ⟨fun b hb => habove b hb a List.mem_cons_self, (List.pairwise_cons.mp hbelow).1⟩

end RusqliteIsle
