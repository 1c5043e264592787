import Mathlib.Data.List.Lex
import Mathlib.Data.List.Sort
import Mathlib.Data.Prod.Lex
import Mathlib.Data.String.Basic
import Mathlib.Order.WithBot

/-!
# DigWallet.Lib.Sorting — comparing lists after sorting them

`sort` is a sort by a linear order.  `sort_eq_iff`: two lists sort to the same list iff one is a
permutation of the other.  The fixed-width integers are ordered as the numbers they hold.
-/

namespace DigWallet.Sorting

instance instLinearOrderUInt8 : LinearOrder UInt8 where
  le_refl a := UInt8.le_refl a
  le_trans _ _ _ := UInt8.le_trans
  le_antisymm _ _ := UInt8.le_antisymm
  le_total := UInt8.le_total
  lt_iff_le_not_ge a b := by
    rw [UInt8.lt_iff_toNat_lt, UInt8.le_iff_toNat_le, UInt8.le_iff_toNat_le]
    omega
  toDecidableLE := inferInstance

instance instLinearOrderUInt64 : LinearOrder UInt64 where
  le_refl a := UInt64.le_refl a
  le_trans _ _ _ := UInt64.le_trans
  le_antisymm _ _ := UInt64.le_antisymm
  le_total := UInt64.le_total
  lt_iff_le_not_ge a b := by
    rw [UInt64.lt_iff_toNat_lt, UInt64.le_iff_toNat_le, UInt64.le_iff_toNat_le]
    omega
  toDecidableLE := inferInstance

variable {α : Type} [LinearOrder α]

def sort (l : List α) : List α := l.insertionSort (· ≤ ·)

theorem sort_perm (l : List α) : (sort l).Perm l := List.perm_insertionSort (· ≤ ·) l

theorem sort_eq_iff {l l' : List α} : sort l = sort l' ↔ l.Perm l' := by
  constructor
  · intro h
    exact (sort_perm l).symm.trans (h ▸ sort_perm l')
  · intro h
    have hperm : (sort l).Perm (sort l') := (sort_perm l).trans (h.trans (sort_perm l').symm)
    exact hperm.eq_of_sortedLE List.sortedLE_insertionSort List.sortedLE_insertionSort

end DigWallet.Sorting
