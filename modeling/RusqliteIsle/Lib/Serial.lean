import Mathlib.Data.List.Basic
import Mathlib.Data.List.Nodup

/-!
# Serial executions

Operations on a shared state, executed one after the other. A concurrent execution is
explained by a list of its operations: their results and the state they leave are those of
the list, and an operation that had ended when another one began stands before it.
-/

namespace RusqliteIsle

variable {ι β σ : Type*} {op : ι → σ → β × σ}

/-- The operations of a list one after the other: their results, and the state they leave. -/
def serial (op : ι → σ → β × σ) : List ι → σ → List (ι × β) × σ
  | [], x => ([], x)
  | i :: rest, x =>
    let (b, y) := op i x
    let (results, z) := serial op rest y
    ((i, b) :: results, z)

@[simp] lemma serial_nil (x : σ) : serial op [] x = ([], x) := rfl

lemma serial_cons (i : ι) (rest : List ι) (x : σ) :
    serial op (i :: rest) x =
      ((i, (op i x).1) :: (serial op rest (op i x).2).1, (serial op rest (op i x).2).2) := rfl

lemma serial_concat (runs : List ι) (i : ι) (x : σ) :
    serial op (runs ++ [i]) x =
      ((serial op runs x).1 ++ [(i, (op i (serial op runs x).2).1)],
        (op i (serial op runs x).2).2) := by
  induction runs generalizing x with
  | nil => rfl
  | cons k runs ih => rw [List.cons_append, serial_cons, serial_cons, ih, List.cons_append]

lemma mem_of_mem_serial {runs : List ι} {x : σ} {i : ι} {b : β} (h : (i, b) ∈ (serial op runs x).1) :
    i ∈ runs := by
  induction runs generalizing x with
  | nil => cases h
  | cons k runs ih =>
    rw [serial_cons] at h
    rcases List.mem_cons.mp h with heq | htail
    · cases heq
      exact List.mem_cons_self
    · exact List.mem_cons_of_mem _ (ih htail)

lemma stands_before {α : Type*} {first later l : List α} {a b : α}
    (hnodup : (first ++ later).Nodup) (hl : l.Sublist (first ++ later)) (ha : a ∈ first)
    (hb : b ∉ first) (hal : a ∈ l) (hbl : b ∈ l) : [a, b].Sublist l := by
  obtain ⟨l₁, l₂, rfl, h₁, h₂⟩ := List.sublist_append_iff.mp hl
  have ha₁ : a ∈ l₁ := by
    refine (List.mem_append.mp hal).resolve_right (fun h => ?_)
    exact (List.nodup_append.mp hnodup).2.2 a ha a (h₂.subset h) rfl
  have hb₂ : b ∈ l₂ := (List.mem_append.mp hbl).resolve_left (fun h => hb (h₁.subset h))
  exact (List.singleton_sublist.mpr ha₁).append (List.singleton_sublist.mpr hb₂)

end RusqliteIsle
