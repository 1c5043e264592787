import Mathlib.Algebra.BigOperators.Group.List.Basic
import Mathlib.Algebra.Order.Monoid.Canonical.Defs
import Mathlib.Data.List.Perm.Subperm

/-!
# DigWallet.Lib.Largest — the heaviest part of a list

The elements of a list carry weights, the heaviest first.  `weight_le_take`: no part of the list of
`n` elements weighs more than its first `n`.
-/

namespace DigWallet.Largest

section Weight

variable {α M : Type} [AddCommMonoid M] (weight : α → M)

def weightOf (l : List α) : M := (l.map weight).sum

variable {weight}

@[simp] theorem weightOf_nil : weightOf weight ([] : List α) = 0 := rfl

@[simp] theorem weightOf_cons (a : α) (l : List α) :
    weightOf weight (a :: l) = weight a + weightOf weight l := by
  unfold weightOf
  rw [List.map_cons, List.sum_cons]

theorem weightOf_perm {l l' : List α} (h : l.Perm l') : weightOf weight l = weightOf weight l' :=
  (h.map _).sum_eq

end Weight

section Order

variable {α M : Type} [AddCommMonoid M] [PartialOrder M] {weight : α → M}

/-- No element is heavier than one before it. -/
def HeaviestFirst (weight : α → M) (l : List α) : Prop := l.Pairwise fun a b => weight b ≤ weight a

variable [IsOrderedAddMonoid M] [CanonicallyOrderedAdd M]

/-- A window that starts one element earlier weighs at least as much. -/
theorem weightOf_take_le_cons {a : α} {l : List α} (h : HeaviestFirst weight (a :: l)) (n : ℕ) :
    weightOf weight (l.take n) ≤ weightOf weight ((a :: l).take n) := by
  induction l generalizing a n with
  | nil =>
    rw [List.take_nil, weightOf_nil]
    exact zero_le
  | cons b l ih =>
    obtain ⟨hhead, htail⟩ := List.pairwise_cons.mp h
    cases n with
    | zero => exact le_refl _
    | succ n =>
      rw [List.take_succ_cons, List.take_succ_cons, weightOf_cons, weightOf_cons]
      exact add_le_add (hhead b List.mem_cons_self) (ih htail n)

theorem weight_le_take_of_sublist {part l : List α} (hl : HeaviestFirst weight l)
    (h : part.Sublist l) : weightOf weight part ≤ weightOf weight (l.take part.length) := by
  induction h with
  | slnil => exact le_refl _
  | cons a _ ih =>
    have htail : HeaviestFirst weight _ := (List.pairwise_cons.mp hl).2
    exact (ih htail).trans (weightOf_take_le_cons hl _)
  | cons_cons a _ ih =>
    have htail : HeaviestFirst weight _ := (List.pairwise_cons.mp hl).2
    rw [List.length_cons, List.take_succ_cons, weightOf_cons, weightOf_cons]
    exact add_le_add (le_refl _) (ih htail)

/-- **No part of the list weighs more than as many of its first elements.** -/
theorem weight_le_take {part l : List α} (hl : HeaviestFirst weight l) (h : part.Subperm l) :
    weightOf weight part ≤ weightOf weight (l.take part.length) := by
  obtain ⟨part', hperm, hsub⟩ := h
  rw [← weightOf_perm hperm, ← hperm.length_eq]
  exact weight_le_take_of_sublist hl hsub

end Order

end DigWallet.Largest
