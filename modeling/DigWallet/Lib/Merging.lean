import Mathlib.Algebra.BigOperators.Group.List.Basic
import Mathlib.Algebra.GroupWithZero.Nat
import Mathlib.Algebra.Order.Group.Nat
import Mathlib.Algebra.Order.BigOperators.Group.List
import Mathlib.Data.List.Basic

/-!
# DigWallet.Lib.Merging — the heaviest weights merged into one

Weights in descending order; a merge replaces the first `k` by their sum.  `sum_take_iterate`: after
`n` merges the first `m` weights are what the first `m + n * (k - 1)` were, so merging the heaviest
reaches any total that the weights reach at all.
-/

namespace DigWallet.Merging

/-- The first `k` weights become one. -/
def mergeFirst (k : ℕ) (weights : List ℕ) : List ℕ := (weights.take k).sum :: weights.drop k

variable {k : ℕ} {weights : List ℕ}

/-- The order that makes the first weights the heaviest. -/
def Descending (weights : List ℕ) : Prop := weights.Pairwise fun a b => b ≤ a

/-- The sum of some of the weights is no less than any weight after them. -/
theorem descending_mergeFirst (hk : 0 < k) (h : Descending weights) :
    Descending (mergeFirst k weights) := by
  refine List.pairwise_cons.mpr ⟨fun b hb => ?_, h.sublist (List.drop_sublist k weights)⟩
  cases weights with
  | nil =>
    rw [List.drop_nil] at hb
    cases hb
  | cons a weights =>
    obtain ⟨k, rfl⟩ := Nat.exists_eq_succ_of_ne_zero hk.ne'
    rw [List.drop_succ_cons] at hb
    have hhead : b ≤ a := (List.pairwise_cons.mp h).1 b (List.mem_of_mem_drop hb)
    rw [List.take_succ_cons, List.sum_cons]
    exact hhead.trans (Nat.le_add_right _ _)

theorem sum_take_mergeFirst (hk : 0 < k) {m : ℕ} (hm : 0 < m) (weights : List ℕ) :
    ((mergeFirst k weights).take m).sum = (weights.take (m + (k - 1))).sum := by
  obtain ⟨m, rfl⟩ := Nat.exists_eq_succ_of_ne_zero hm.ne'
  have hsplit : m + 1 + (k - 1) = k + m := by omega
  rw [mergeFirst, List.take_succ_cons, List.sum_cons, Nat.succ_eq_add_one, hsplit, List.take_add,
    List.sum_append]

/-- **What `n` merges bring to the front.** -/
theorem sum_take_iterate (hk : 0 < k) {m : ℕ} (hm : 0 < m) (n : ℕ) (weights : List ℕ) :
    (((mergeFirst k)^[n] weights).take m).sum = (weights.take (m + n * (k - 1))).sum := by
  induction n generalizing weights with
  | zero => rw [Nat.zero_mul, Nat.add_zero, Function.iterate_zero, id]
  | succ n ih =>
    have hmore : 0 < m + n * (k - 1) := Nat.lt_of_lt_of_le hm (Nat.le_add_right _ _)
    rw [Function.iterate_succ_apply, ih, sum_take_mergeFirst hk hmore, Nat.add_assoc, Nat.succ_mul]

/-- Weights in descending order are determined by what they are. -/
theorem Descending.eq_of_perm {weights' : List ℕ} (h : Descending weights)
    (h' : Descending weights') (hperm : weights.Perm weights') : weights = weights' := by
  refine hperm.eq_of_pairwise ?_ h h'
  intro a b _ _ hba hab
  exact Nat.le_antisymm hab hba

/-- Where there is any weight, the heaviest have some. -/
theorem Descending.sum_take_pos (h : Descending weights) (hk : 0 < k) (hpos : 0 < weights.sum) :
    0 < (weights.take k).sum := by
  cases weights with
  | nil => exact absurd hpos (Nat.lt_irrefl 0)
  | cons a weights =>
    obtain ⟨k, rfl⟩ := Nat.exists_eq_succ_of_ne_zero hk.ne'
    rw [List.take_succ_cons, List.sum_cons]
    by_contra hnone
    have hzero : a = 0 := by omega
    have hrest : ∀ b ∈ weights, b = 0 := by
      intro b hb
      have hle : b ≤ a := (List.pairwise_cons.mp h).1 b hb
      omega
    rw [List.sum_cons, List.sum_eq_zero hrest, hzero] at hpos
    exact absurd hpos (Nat.lt_irrefl 0)

end DigWallet.Merging
