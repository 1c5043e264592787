import Mathlib.Algebra.BigOperators.Group.List.Basic
import Mathlib.Algebra.GroupWithZero.Nat
import Mathlib.Data.List.Perm.Basic

/-!
# DigWallet.Lib.Totals — sums of `u64`s

`total` is the sum as a number.  `sumU64` is `Iterator::sum`: past `u64::MAX` a build with overflow
checks panics (`none`) and one without wraps.  `sumSaturating` stops at `u64::MAX`.
-/

namespace DigWallet.Totals

def total (amounts : List UInt64) : ℕ := (amounts.map UInt64.toNat).sum

@[simp] theorem total_nil : total [] = 0 := rfl

@[simp] theorem total_cons (a : UInt64) (amounts : List UInt64) :
    total (a :: amounts) = a.toNat + total amounts := by
  unfold total
  rw [List.map_cons, List.sum_cons]

theorem total_perm {amounts amounts' : List UInt64} (h : amounts.Perm amounts') :
    total amounts = total amounts' := (h.map _).sum_eq

/-- `a + b` on `u64`, checked or wrapping. -/
def addU64 (overflowChecks : Bool) (a b : UInt64) : Option UInt64 :=
  if overflowChecks = true ∧ 2 ^ 64 ≤ a.toNat + b.toNat then none else some (a + b)

def sumU64 (overflowChecks : Bool) (amounts : List UInt64) : Option UInt64 :=
  amounts.foldlM (addU64 overflowChecks) 0

/-- `a - b` on `u64`, checked or wrapping. -/
def subU64 (overflowChecks : Bool) (a b : UInt64) : Option UInt64 :=
  if overflowChecks = true ∧ a < b then none else some (a - b)

/-- `checked_add`. -/
def checkedAdd (a b : UInt64) : Option UInt64 :=
  if a.toNat + b.toNat < 2 ^ 64 then some (a + b) else none

/-- `checked_sub`. -/
def checkedSub (a b : UInt64) : Option UInt64 := if b ≤ a then some (a - b) else none

/-- `checked_mul`. -/
def checkedMul (a b : UInt64) : Option UInt64 :=
  if a.toNat * b.toNat < 2 ^ 64 then some (a * b) else none

/-- `saturating_add`. -/
def saturatingAdd (a b : UInt64) : UInt64 :=
  if a.toNat + b.toNat < 2 ^ 64 then a + b else UInt64.ofNat (2 ^ 64 - 1)

def sumSaturating (amounts : List UInt64) : UInt64 := amounts.foldl saturatingAdd 0

theorem toNat_add_of_lt {a b : UInt64} (h : a.toNat + b.toNat < 2 ^ 64) :
    (a + b).toNat = a.toNat + b.toNat := by
  rw [UInt64.toNat_add]
  omega

/-! ## What the sums are -/

theorem foldlM_addU64_unchecked (amounts : List UInt64) (acc : UInt64) :
    amounts.foldlM (addU64 false) acc = some (UInt64.ofNat (acc.toNat + total amounts)) := by
  induction amounts generalizing acc with
  | nil => simp
  | cons a amounts ih =>
    have hadd : addU64 false acc a = some (acc + a) := by simp [addU64]
    rw [List.foldlM_cons, hadd]
    show amounts.foldlM (addU64 false) (acc + a) = _
    rw [ih, total_cons, UInt64.toNat_add]
    congr 1
    apply UInt64.toNat_inj.mp
    rw [UInt64.toNat_ofNat', UInt64.toNat_ofNat']
    omega

theorem foldlM_addU64_checked (amounts : List UInt64) (acc : UInt64) :
    amounts.foldlM (addU64 true) acc =
      if acc.toNat + total amounts < 2 ^ 64 then some (UInt64.ofNat (acc.toNat + total amounts))
      else none := by
  induction amounts generalizing acc with
  | nil =>
    have hacc := acc.toNat_lt
    rw [total_nil, Nat.add_zero, if_pos (by omega), UInt64.ofNat_toNat]
    rfl
  | cons a amounts ih =>
    rw [List.foldlM_cons, total_cons]
    by_cases hover : 2 ^ 64 ≤ acc.toNat + a.toNat
    · have hadd : addU64 true acc a = none := if_pos ⟨rfl, hover⟩
      rw [hadd, if_neg (by omega)]
      rfl
    · have hadd : addU64 true acc a = some (acc + a) := if_neg fun h => hover h.2
      have htoNat := toNat_add_of_lt (a := acc) (b := a) (by omega)
      rw [hadd]
      show amounts.foldlM (addU64 true) (acc + a) = _
      rw [ih, htoNat, Nat.add_assoc]

theorem sumU64_unchecked (amounts : List UInt64) :
    sumU64 false amounts = some (UInt64.ofNat (total amounts)) := by
  have h := foldlM_addU64_unchecked amounts 0
  rwa [show (0 : UInt64).toNat = 0 from rfl, Nat.zero_add] at h

theorem sumU64_checked (amounts : List UInt64) :
    sumU64 true amounts =
      if total amounts < 2 ^ 64 then some (UInt64.ofNat (total amounts)) else none := by
  have h := foldlM_addU64_checked amounts 0
  rwa [show (0 : UInt64).toNat = 0 from rfl, Nat.zero_add] at h

theorem sumU64_perm (overflowChecks : Bool) {amounts amounts' : List UInt64}
    (h : amounts.Perm amounts') : sumU64 overflowChecks amounts = sumU64 overflowChecks amounts' := by
  cases overflowChecks with
  | false => rw [sumU64_unchecked, sumU64_unchecked, total_perm h]
  | true => rw [sumU64_checked, sumU64_checked, total_perm h]

/-- A sum that is computed is the total modulo `2 ^ 64`. -/
theorem toNat_sumU64 {overflowChecks : Bool} {amounts : List UInt64} {sum : UInt64}
    (h : sumU64 overflowChecks amounts = some sum) : sum.toNat = total amounts % 2 ^ 64 := by
  cases overflowChecks with
  | false =>
    rw [sumU64_unchecked] at h
    cases h
    exact UInt64.toNat_ofNat'
  | true =>
    rw [sumU64_checked] at h
    split_ifs at h
    cases h
    exact UInt64.toNat_ofNat'

theorem toNat_of_sumU64 {overflowChecks : Bool} {amounts : List UInt64} {sum : UInt64}
    (h : sumU64 overflowChecks amounts = some sum) (hfits : total amounts < 2 ^ 64) :
    sum.toNat = total amounts := by
  rw [toNat_sumU64 h, Nat.mod_eq_of_lt hfits]

theorem sumU64_of_lt (overflowChecks : Bool) {amounts : List UInt64}
    (hfits : total amounts < 2 ^ 64) : ∃ sum, sumU64 overflowChecks amounts = some sum := by
  cases overflowChecks with
  | false => exact ⟨_, sumU64_unchecked amounts⟩
  | true => exact ⟨_, (sumU64_checked amounts).trans (if_pos hfits)⟩

theorem eq_sub_of_subU64 {overflowChecks : Bool} {a b c : UInt64}
    (h : subU64 overflowChecks a b = some c) : c = a - b := by
  unfold subU64 at h
  split_ifs at h
  exact (Option.some.inj h).symm

theorem toNat_of_subU64 {overflowChecks : Bool} {a b c : UInt64}
    (h : subU64 overflowChecks a b = some c) (hle : b ≤ a) : c.toNat = a.toNat - b.toNat := by
  rw [eq_sub_of_subU64 h]
  exact UInt64.toNat_sub_of_le _ _ hle

theorem toNat_foldl_saturatingAdd (amounts : List UInt64) (acc : UInt64) :
    (amounts.foldl saturatingAdd acc).toNat = min (acc.toNat + total amounts) (2 ^ 64 - 1) := by
  induction amounts generalizing acc with
  | nil =>
    have hacc := acc.toNat_lt
    rw [List.foldl_nil, total_nil]
    omega
  | cons a amounts ih =>
    rw [List.foldl_cons, ih, total_cons]
    unfold saturatingAdd
    by_cases hfits : acc.toNat + a.toNat < 2 ^ 64
    · rw [if_pos hfits, toNat_add_of_lt hfits, Nat.add_assoc]
    · have hmax : (UInt64.ofNat (2 ^ 64 - 1)).toNat = 2 ^ 64 - 1 := rfl
      rw [if_neg hfits, hmax]
      omega

theorem toNat_sumSaturating (amounts : List UInt64) :
    (sumSaturating amounts).toNat = min (total amounts) (2 ^ 64 - 1) := by
  have h := toNat_foldl_saturatingAdd amounts 0
  rwa [show (0 : UInt64).toNat = 0 from rfl, Nat.zero_add] at h

theorem sumSaturating_perm {amounts amounts' : List UInt64} (h : amounts.Perm amounts') :
    sumSaturating amounts = sumSaturating amounts' := by
  apply UInt64.toNat_inj.mp
  rw [toNat_sumSaturating, toNat_sumSaturating, total_perm h]

/-- When the two sums agree: the total fits, or, without checks, it wraps to `u64::MAX`. -/
def SumsAgree (overflowChecks : Bool) (amounts : List UInt64) : Prop :=
  total amounts < 2 ^ 64 ∨ overflowChecks = false ∧ total amounts % 2 ^ 64 = 2 ^ 64 - 1

theorem sumU64_eq_saturating (overflowChecks : Bool) (amounts : List UInt64) :
    sumU64 overflowChecks amounts = some (sumSaturating amounts) ↔
      SumsAgree overflowChecks amounts := by
  have hsat := toNat_sumSaturating amounts
  have hwrap : UInt64.ofNat (total amounts) = sumSaturating amounts ↔
      total amounts % 2 ^ 64 = min (total amounts) (2 ^ 64 - 1) := by
    rw [← UInt64.toNat_inj, UInt64.toNat_ofNat', hsat]
  unfold SumsAgree
  cases overflowChecks with
  | false =>
    rw [sumU64_unchecked, Option.some.injEq, hwrap]
    simp only [true_and]
    omega
  | true =>
    rw [sumU64_checked]
    by_cases hfits : total amounts < 2 ^ 64
    · rw [if_pos hfits, Option.some.injEq, hwrap]
      simp only [hfits, true_or, iff_true]
      omega
    · rw [if_neg hfits]
      constructor
      · intro h
        cases h
      · rintro (h | ⟨h, -⟩)
        · exact absurd h hfits
        · cases h

/-! ## Totals that may be used -/

/-- The exact sum or the saturated one, never the sum reduced modulo `2 ^ 64`. -/
def Kept (amounts : List UInt64) (sum : UInt64) : Prop :=
  sum.toNat = total amounts ∨ sum = sumSaturating amounts ∧ sum.toNat ≠ total amounts % 2 ^ 64

/-- A sum that wraps is kept only where it does not. -/
theorem kept_iff_of_wraps {amounts : List UInt64} {sum : UInt64}
    (h : sum.toNat = total amounts % 2 ^ 64) : Kept amounts sum ↔ total amounts < 2 ^ 64 := by
  constructor
  · rintro (hexact | ⟨-, hnot⟩)
    · rw [← hexact]
      exact sum.toNat_lt
    · exact absurd h hnot
  · intro hfits
    rw [Nat.mod_eq_of_lt hfits] at h
    exact .inl h

theorem kept_iff_of_sumU64 {overflowChecks : Bool} {amounts : List UInt64} {sum : UInt64}
    (h : sumU64 overflowChecks amounts = some sum) : Kept amounts sum ↔ total amounts < 2 ^ 64 :=
  kept_iff_of_wraps (toNat_sumU64 h)

/-- The sum is computed and kept exactly when the total fits. -/
theorem sumKept_iff (overflowChecks : Bool) (amounts : List UInt64) :
    (∃ sum, sumU64 overflowChecks amounts = some sum ∧ Kept amounts sum) ↔
      total amounts < 2 ^ 64 := by
  constructor
  · rintro ⟨sum, hsum, hkept⟩
    exact (kept_iff_of_sumU64 hsum).mp hkept
  · intro hfits
    obtain ⟨sum, hsum⟩ := sumU64_of_lt overflowChecks hfits
    exact ⟨sum, hsum, (kept_iff_of_sumU64 hsum).mpr hfits⟩

end DigWallet.Totals
