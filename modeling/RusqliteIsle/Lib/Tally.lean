import Mathlib.Algebra.BigOperators.Group.Finset.Piecewise
import Mathlib.Algebra.Order.BigOperators.Group.Finset
import Mathlib.Data.Fintype.Defs

/-!
# Tallies

Each of finitely many processes is at a place, and a weight says what a place counts for. The
tally is the sum of the weights. A step that moves one process changes it by the weights of the
place it leaves and the place it comes to.
-/

namespace RusqliteIsle

variable {ι P : Type*} [Fintype ι]

/-- The sum over all processes of the weights of their places. -/
def tally (w : P → ℕ) (pc : ι → P) : ℕ := ∑ i, w (pc i)

section

variable {w v : P → ℕ} {pc pc' : ι → P}

lemma tally_congr (h : ∀ i, w (pc' i) = w (pc i)) : tally w pc' = tally w pc :=
  Finset.sum_congr rfl (fun i _ => h i)

lemma le_tally (w : P → ℕ) (pc : ι → P) (i : ι) : w (pc i) ≤ tally w pc := by
  change w (pc i) ≤ ∑ k, w (pc k)
  exact Finset.single_le_sum (fun k _ => Nat.zero_le (w (pc k))) (Finset.mem_univ i)

lemma tally_add : tally (fun p => w p + v p) pc = tally w pc + tally v pc :=
  Finset.sum_add_distrib

lemma tally_eq_zero : tally w pc = 0 ↔ ∀ i, w (pc i) = 0 := by
  rw [tally, Finset.sum_eq_zero_iff]
  exact ⟨fun h i => h i (Finset.mem_univ i), fun h i _ => h i⟩

lemma tally_le_tally (h : ∀ i, w (pc' i) ≤ w (pc i)) : tally w pc' ≤ tally w pc :=
  Finset.sum_le_sum (fun i _ => h i)

lemma tally_lt_tally (h : ∀ i, w (pc' i) ≤ w (pc i)) {i : ι} (hi : w (pc' i) < w (pc i)) :
    tally w pc' < tally w pc :=
  Finset.sum_lt_sum (fun k _ => h k) ⟨i, Finset.mem_univ i, hi⟩

lemma exists_of_tally_pos (h : 0 < tally w pc) : ∃ i, 0 < w (pc i) := by
  by_contra hnone
  have hzero : tally w pc = 0 :=
    tally_eq_zero.mpr (fun i => Nat.eq_zero_of_not_pos (fun hi => hnone ⟨i, hi⟩))
  omega

end

section

variable [DecidableEq ι] {w : P → ℕ} {pc : ι → P} {i : ι}

lemma tally_update (p : P) :
    tally w (Function.update pc i p) + w (pc i) = tally w pc + w p := by
  have hrest : ∑ k ∈ Finset.univ.erase i, w (Function.update pc i p k) =
      ∑ k ∈ Finset.univ.erase i, w (pc k) :=
    Finset.sum_congr rfl (fun k hk => by rw [Function.update_of_ne (Finset.ne_of_mem_erase hk)])
  have hnew := Finset.add_sum_erase Finset.univ (fun k => w (Function.update pc i p k))
    (Finset.mem_univ i)
  have hold := Finset.add_sum_erase Finset.univ (fun k => w (pc k)) (Finset.mem_univ i)
  rw [Function.update_self, hrest] at hnew
  rw [tally, tally]
  omega

lemma tally_update_of_eq {p : P} (h : w p = w (pc i)) :
    tally w (Function.update pc i p) = tally w pc := by
  have hmove : tally w (Function.update pc i p) + w (pc i) = tally w pc + w p := tally_update p
  omega

end

end RusqliteIsle
