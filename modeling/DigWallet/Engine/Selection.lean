import DigWallet.Lib.Totals
import DigWallet.Sdk
import Mathlib.Data.List.Sort

/-!
# DigWallet.Engine.Selection — coin selection

`engine::selection`.  A selection that panics is `none`.

`selectForSpend_selected`: a selection takes a prefix of the coins in descending order, the first
whose running total, as the machine computes it, reaches the target.
-/

namespace DigWallet

open Totals

inductive SelectionOutcome
  | selected (coins : List Coin) (total change : UInt64)
  | needsConsolidation (availableCoinCount : UInt32) (availableTotal required : UInt64) (cap : ℕ)
  | insufficientFunds (availableTotal required : UInt64)
deriving DecidableEq

/-- The amounts of some coins. -/
def coinAmounts (coins : List Coin) : List UInt64 := coins.map Coin.amount

section Selection

variable (sdk : Sdk)

/-- The larger amount first, then the smaller coin id. -/
def HighValueFirst (a b : Coin) : Prop :=
  b.amount < a.amount ∨ a.amount = b.amount ∧ ¬ (sdk.coinId b).bytes < (sdk.coinId a).bytes

instance : DecidableRel (HighValueFirst sdk) := fun a b =>
  inferInstanceAs (Decidable (b.amount < a.amount ∨
    a.amount = b.amount ∧ ¬ (sdk.coinId b).bytes < (sdk.coinId a).bytes))

def orderedHighValueFirst (coins : List Coin) : List Coin :=
  coins.insertionSort (HighValueFirst sdk)

theorem orderedHighValueFirst_perm (coins : List Coin) :
    (orderedHighValueFirst sdk coins).Perm coins :=
  List.perm_insertionSort _ coins

variable (overflowChecks : Bool)

/-- The loop of `select_for_spend`, from a running total. -/
def takeUntil (target : UInt64) : UInt64 → List Coin → Option (List Coin × UInt64)
  | total, [] => some ([], total)
  | total, coin :: coins =>
    if target ≤ total then some ([], total)
    else do
      let (selected, total) ← takeUntil target (← addU64 overflowChecks total coin.amount) coins
      some (coin :: selected, total)

def selectForSpend (coins : List Coin) (target : UInt64) (cap : ℕ) : Option SelectionOutcome := do
  let availableTotal ← sumU64 overflowChecks (coinAmounts coins)
  let availableCoinCount := UInt32.ofNat coins.length
  if availableTotal < target then some (.insufficientFunds availableTotal target)
  else
    let ordered := orderedHighValueFirst sdk coins
    let cappedTotal ← sumU64 overflowChecks (coinAmounts (ordered.take cap))
    if cappedTotal < target then
      some (.needsConsolidation availableCoinCount availableTotal target cap)
    else
      let (selected, total) ← takeUntil overflowChecks target 0 ordered
      some (.selected selected total (← subU64 overflowChecks total target))

def selectForConsolidation (coins : List Coin) (cap : ℕ) : WalletResult (List Coin) :=
  if coins.length < 2 then
    .error ⟨.invalidInput, "consolidation requires at least two coins"⟩
  else .ok ((orderedHighValueFirst sdk coins).take (max cap 2))

end Selection

/-! ## What the loop takes -/

section

variable {sdk : Sdk} {overflowChecks : Bool}

@[simp] theorem coinAmounts_nil : coinAmounts [] = [] := rfl

@[simp] theorem coinAmounts_cons (coin : Coin) (coins : List Coin) :
    coinAmounts (coin :: coins) = coin.amount :: coinAmounts coins := rfl

/-- Induction on the coins, the running total generalized: the loop stops at the first prefix whose
running total reaches the target. -/
theorem takeUntil_eq_some {target acc sum : UInt64} {coins selected : List Coin}
    (h : takeUntil overflowChecks target acc coins = some (selected, sum)) :
    ∃ k ≤ coins.length, selected = coins.take k ∧
      (coinAmounts selected).foldlM (addU64 overflowChecks) acc = some sum ∧
      (k < coins.length → target ≤ sum) ∧
      ∀ j < k, ∀ s, (coinAmounts (coins.take j)).foldlM (addU64 overflowChecks) acc = some s →
        s < target := by
  induction coins generalizing acc selected with
  | nil =>
    cases h
    exact ⟨0, Nat.le_refl _, rfl, rfl, by simp, by simp⟩
  | cons coin coins ih =>
    rw [takeUntil] at h
    by_cases hreached : target ≤ acc
    · rw [if_pos hreached] at h
      cases h
      exact ⟨0, Nat.zero_le _, rfl, rfl, fun _ => hreached, by simp⟩
    · rw [if_neg hreached] at h
      simp only [Option.bind_eq_bind, Option.bind_eq_some_iff] at h
      obtain ⟨acc', hadd, ⟨rest, sum'⟩, hrest, h⟩ := h
      cases h
      obtain ⟨k, hk, rfl, hsum, hstop, hbelow⟩ := ih hrest
      refine ⟨k + 1, Nat.succ_le_succ hk, rfl, ?_, ?_, ?_⟩
      · rw [coinAmounts_cons, List.foldlM_cons, hadd]
        exact hsum
      · intro hlt
        exact hstop (Nat.lt_of_succ_lt_succ hlt)
      · intro j hj s hs
        cases j with
        | zero =>
          cases hs
          exact UInt64.not_le.mp hreached
        | succ j =>
          rw [List.take_succ_cons, coinAmounts_cons, List.foldlM_cons, hadd] at hs
          exact hbelow j (Nat.lt_of_succ_lt_succ hj) s hs

/-- A selection: a prefix of the ordered coins, the first whose computed total reaches the target. -/
structure Selects (sdk : Sdk) (overflowChecks : Bool) (coins : List Coin) (target : UInt64)
    (selected : List Coin) (sum : UInt64) : Prop where
  eq_take : selected = (orderedHighValueFirst sdk coins).take selected.length
  sum_eq : sumU64 overflowChecks (coinAmounts selected) = some sum
  reached : target ≤ sum
  first : ∀ j < selected.length, ∀ s,
    sumU64 overflowChecks (coinAmounts ((orderedHighValueFirst sdk coins).take j)) = some s →
    s < target

theorem coinAmounts_perm {coins coins' : List Coin} (h : coins.Perm coins') :
    (coinAmounts coins).Perm (coinAmounts coins') := h.map _

/-- Past the last coin the running total is that of all coins, which the first test compared. -/
theorem takeUntil_reached {coins selected : List Coin} {target available sum : UInt64}
    (h : takeUntil overflowChecks target 0 (orderedHighValueFirst sdk coins) = some (selected, sum))
    (havailable : sumU64 overflowChecks (coinAmounts coins) = some available)
    (henough : ¬ available < target) : target ≤ sum := by
  obtain ⟨k, -, rfl, hsum, hstop, -⟩ := takeUntil_eq_some h
  by_cases hlt : k < (orderedHighValueFirst sdk coins).length
  · exact hstop hlt
  · have hall := coinAmounts_perm (orderedHighValueFirst_perm sdk coins)
    have htotal := sumU64_perm overflowChecks hall
    rw [List.take_of_length_le (Nat.le_of_not_lt hlt)] at hsum
    have heq : some sum = some available := hsum.symm.trans (htotal.trans havailable)
    cases heq
    exact UInt64.not_lt.mp henough

/-- What the three sums and the loop of a selection returned. -/
theorem selectForSpend_eq_selected {coins selected : List Coin} {target sum change : UInt64} {cap : ℕ}
    (h : selectForSpend sdk overflowChecks coins target cap =
      some (.selected selected sum change)) :
    ∃ available capped, sumU64 overflowChecks (coinAmounts coins) = some available ∧
      ¬ available < target ∧
      sumU64 overflowChecks (coinAmounts ((orderedHighValueFirst sdk coins).take cap)) = some capped ∧
      target ≤ capped ∧
      takeUntil overflowChecks target 0 (orderedHighValueFirst sdk coins) = some (selected, sum) ∧
      subU64 overflowChecks sum target = some change := by
  unfold selectForSpend at h
  simp only [Option.bind_eq_bind, Option.bind_eq_some_iff] at h
  obtain ⟨available, havailable, h⟩ := h
  by_cases hshort : available < target
  · rw [if_pos hshort] at h
    cases h
  rw [if_neg hshort] at h
  simp only [Option.bind_eq_some_iff] at h
  obtain ⟨capped, hcapped, h⟩ := h
  by_cases hcap : capped < target
  · rw [if_pos hcap] at h
    cases h
  rw [if_neg hcap] at h
  simp only [Option.bind_eq_some_iff] at h
  obtain ⟨⟨selected', sum'⟩, htake, change', hchange, h⟩ := h
  cases h
  exact ⟨available, capped, havailable, hshort, hcapped, UInt64.not_lt.mp hcap, htake, hchange⟩

theorem selectForSpend_selected {coins selected : List Coin} {target sum change : UInt64} {cap : ℕ}
    (h : selectForSpend sdk overflowChecks coins target cap =
      some (.selected selected sum change)) :
    Selects sdk overflowChecks coins target selected sum ∧
      subU64 overflowChecks sum target = some change := by
  obtain ⟨available, capped, havailable, hshort, -, -, htake, hchange⟩ := selectForSpend_eq_selected h
  have hreached := takeUntil_reached htake havailable hshort
  obtain ⟨k, hk, rfl, hsum, -, hfirst⟩ := takeUntil_eq_some htake
  have hlength : ((orderedHighValueFirst sdk coins).take k).length = k := by
    rw [List.length_take]
    omega
  exact ⟨⟨by rw [hlength], hsum, hreached, by rwa [hlength]⟩, hchange⟩

/-- A selection keeps to the cap, whatever the sums wrapped to: the capped prefix reaches the target,
and the loop stops at the first that does. -/
theorem length_of_selectForSpend {coins selected : List Coin} {target sum change : UInt64} {cap : ℕ}
    (h : selectForSpend sdk overflowChecks coins target cap =
      some (.selected selected sum change)) : selected.length ≤ cap := by
  obtain ⟨-, capped, -, -, hcapped, hcovers, -, -⟩ := selectForSpend_eq_selected h
  obtain ⟨hselects, -⟩ := selectForSpend_selected h
  by_contra hlong
  have hbelow := hselects.first cap (Nat.lt_of_not_le hlong) capped hcapped
  exact absurd hbelow (UInt64.not_lt.mpr hcovers)

namespace Selects

variable {coins selected : List Coin} {target sum : UInt64}

theorem subset (h : Selects sdk overflowChecks coins target selected sum) : selected ⊆ coins := by
  intro coin hcoin
  rw [h.eq_take] at hcoin
  exact (orderedHighValueFirst_perm sdk coins).subset (List.mem_of_mem_take hcoin)

/-- A positive target takes a coin. -/
theorem ne_nil (h : Selects sdk overflowChecks coins target selected sum) (htarget : 0 < target) :
    selected ≠ [] := by
  rintro rfl
  have hsum := h.sum_eq
  cases hsum
  exact absurd htarget (UInt64.not_lt.mpr h.reached)

end Selects

/-- Some prefix of the coins, in descending order, totals at least `target` and at most
`u64::MAX`. -/
def ReachesExactly (sdk : Sdk) (coins : List Coin) (target : ℕ) : Prop :=
  ∃ k, target ≤ total (coinAmounts ((orderedHighValueFirst sdk coins).take k)) ∧
    total (coinAmounts ((orderedHighValueFirst sdk coins).take k)) < 2 ^ 64

theorem total_take_mono (coins : List Coin) {j k : ℕ} (h : j ≤ k) :
    total (coinAmounts (coins.take j)) ≤ total (coinAmounts (coins.take k)) := by
  induction coins generalizing j k with
  | nil => simp
  | cons coin coins ih =>
    cases j with
    | zero => exact Nat.zero_le _
    | succ j =>
      cases k with
      | zero => cases h
      | succ k =>
        have htail := ih (Nat.le_of_succ_le_succ h)
        simp only [List.take_succ_cons, coinAmounts_cons, total_cons]
        omega

/-- **A selection is exact iff an exact one exists**: no shorter prefix reaches the target. -/
theorem Selects.fits_iff {coins selected : List Coin} {target sum : UInt64}
    (h : Selects sdk overflowChecks coins target selected sum) :
    total (coinAmounts selected) < 2 ^ 64 ↔ ReachesExactly sdk coins target.toNat := by
  constructor
  · intro hfits
    have hsum := toNat_of_sumU64 h.sum_eq hfits
    have hreached := UInt64.le_iff_toNat_le.mp h.reached
    refine ⟨selected.length, ?_⟩
    rw [← h.eq_take]
    omega
  · rintro ⟨k, hreaches, hfits⟩
    have hsize : selected.length ≤ k := by
      by_contra hlt
      obtain ⟨s, hs⟩ := sumU64_of_lt overflowChecks hfits
      have hbelow := UInt64.lt_iff_toNat_lt.mp (h.first k (by omega) s hs)
      have hexact := toNat_of_sumU64 hs hfits
      omega
    have hle := total_take_mono (orderedHighValueFirst sdk coins) hsize
    rw [← h.eq_take] at hle
    omega

end

end DigWallet
