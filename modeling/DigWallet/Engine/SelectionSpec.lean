import DigWallet.Engine.Selection
import DigWallet.Lib.Largest
import DigWallet.Sim
import Mathlib.Algebra.Order.Group.Nat

/-!
# DigWallet.Engine.SelectionSpec — what coin selection is for

With distinct ids the coins have one order, descending amount and then ascending id.  A selection is
the shortest prefix of it that reaches the target, and no fewer coins reach it.
-/

namespace DigWallet

open Largest Totals

/-! ## The order of the coins -/

section Ordering

variable {sdk : Sdk} {coins coins' : List Coin}

instance instTotalHighValueFirst : Std.Total (HighValueFirst sdk) where
  total a b := by
    by_cases hamount : a.amount = b.amount
    · rcases List.le_total (sdk.coinId a).bytes (sdk.coinId b).bytes with hid | hid
      · exact .inl (.inr ⟨hamount, hid⟩)
      · exact .inr (.inr ⟨hamount.symm, hid⟩)
    · rcases UInt64.lt_or_lt_of_ne hamount with hlt | hlt
      · exact .inr (.inl hlt)
      · exact .inl (.inl hlt)

instance instTransHighValueFirst : IsTrans Coin (HighValueFirst sdk) where
  trans := by
    rintro a b c (hab | ⟨hab, hid⟩) (hbc | ⟨hbc, hid'⟩)
    · exact .inl (UInt64.lt_trans hbc hab)
    · exact .inl (hbc ▸ hab)
    · exact .inl (hab ▸ hbc)
    · exact .inr ⟨hab.trans hbc, List.le_trans hid hid'⟩

/-- Descending amount, then ascending coin id. -/
def HighValueBefore (sdk : Sdk) (a b : Coin) : Prop :=
  b.amount < a.amount ∨ a.amount = b.amount ∧ (sdk.coinId a).bytes < (sdk.coinId b).bytes

theorem pairwise_ordered (coins : List Coin) :
    (orderedHighValueFirst sdk coins).Pairwise (HighValueFirst sdk) :=
  List.pairwise_insertionSort _ coins

theorem nodup_ordered (hids : (coins.map sdk.coinId).Nodup) :
    ((orderedHighValueFirst sdk coins).map sdk.coinId).Nodup :=
  ((orderedHighValueFirst_perm sdk coins).map _).nodup_iff.mpr hids

/-- With distinct ids the order is strict. -/
theorem pairwise_before (hids : (coins.map sdk.coinId).Nodup) :
    (orderedHighValueFirst sdk coins).Pairwise (HighValueBefore sdk) := by
  have hne : (orderedHighValueFirst sdk coins).Pairwise fun a b => sdk.coinId a ≠ sdk.coinId b :=
    List.pairwise_map.mp (nodup_ordered hids)
  refine ((pairwise_ordered coins).and hne).imp ?_
  rintro a b ⟨hamount | ⟨hamount, hid⟩, hne⟩
  · exact .inl hamount
  · refine .inr ⟨hamount, ?_⟩
    by_contra hlt
    exact hne (Bytes32.ext (List.le_antisymm hid hlt))

/-- The order of the input does not matter. -/
theorem ordered_perm (hids : (coins.map sdk.coinId).Nodup) (h : coins'.Perm coins) :
    orderedHighValueFirst sdk coins' = orderedHighValueFirst sdk coins := by
  have hperm : (orderedHighValueFirst sdk coins').Perm (orderedHighValueFirst sdk coins) :=
    ((orderedHighValueFirst_perm sdk coins').trans h).trans
      (orderedHighValueFirst_perm sdk coins).symm
  refine hperm.eq_of_pairwise ?_ (pairwise_ordered coins') (pairwise_ordered coins)
  rintro a b ha hb (hab | ⟨hab, hid⟩) (hba | ⟨hba, hid'⟩)
  · exact absurd (UInt64.lt_trans hab hba) (UInt64.lt_irrefl _)
  · rw [hba] at hab
    exact absurd hab (UInt64.lt_irrefl _)
  · rw [hab] at hba
    exact absurd hba (UInt64.lt_irrefl _)
  · have hsame : sdk.coinId a = sdk.coinId b := Bytes32.ext (List.le_antisymm hid hid')
    exact List.inj_on_of_nodup_map (nodup_ordered hids) (hperm.subset ha) hb hsame

/-! ## Amounts as weights -/

/-- A coin weighs its amount. -/
def amountOf (coin : Coin) : ℕ := coin.amount.toNat

theorem weightOf_amountOf (coins : List Coin) :
    weightOf amountOf coins = total (coinAmounts coins) := by
  unfold weightOf total coinAmounts
  rw [List.map_map]
  rfl

theorem heaviestFirst_ordered (coins : List Coin) :
    HeaviestFirst amountOf (orderedHighValueFirst sdk coins) := by
  refine (pairwise_ordered coins).imp ?_
  rintro a b (hlt | ⟨heq, -⟩)
  · exact Nat.le_of_lt (UInt64.lt_iff_toNat_lt.mp hlt)
  · exact Nat.le_of_eq (congrArg UInt64.toNat heq.symm)

variable (sdk) in
/-- No choice of coins is worth more than as many of the first. -/
theorem total_le_take {others : List Coin} (hnodup : others.Nodup) (hsubset : others ⊆ coins) :
    total (coinAmounts others) ≤
      total (coinAmounts ((orderedHighValueFirst sdk coins).take others.length)) := by
  have hsubperm : others.Subperm (orderedHighValueFirst sdk coins) :=
    (List.subperm_of_subset hnodup hsubset).trans
      (orderedHighValueFirst_perm sdk coins).symm.subperm
  have hle := weight_le_take (heaviestFirst_ordered coins) hsubperm
  rwa [weightOf_amountOf, weightOf_amountOf] at hle

end Ordering

/-! ## The specification -/

/-- The shortest prefix of the ordered coins that reaches a target, and the best choice there is. -/
structure BestSelection (sdk : Sdk) (coins ordered selected : List Coin) (target cap : ℕ) : Prop where
  isPrefix : selected <+: ordered
  reaches : target ≤ total (coinAmounts selected)
  shortest : ∀ shorter, shorter <+: ordered → shorter.length < selected.length →
    total (coinAmounts shorter) < target
  withinCap : selected.length ≤ cap
  subset : selected ⊆ coins
  distinct : (selected.map sdk.coinId).Nodup
  fewest : ∀ others, others.Nodup → others ⊆ coins → target ≤ total (coinAmounts others) →
    selected.length ≤ others.length

/-- What a selection among the coins, in their order, comes out as. -/
structure SelectionSpec (sdk : Sdk) (coins ordered : List Coin) (target : UInt64) (cap : ℕ)
    (outcome : SelectionOutcome) : Prop where
  insufficient : (∃ available required, outcome = .insufficientFunds available required) ↔
    total (coinAmounts coins) < target.toNat
  consolidate : (∃ count available required cap',
      outcome = .needsConsolidation count available required cap') ↔
    target.toNat ≤ total (coinAmounts coins) ∧
      total (coinAmounts (ordered.take cap)) < target.toNat
  selects : target.toNat ≤ total (coinAmounts coins) →
    target.toNat ≤ total (coinAmounts (ordered.take cap)) →
      ∃ selected sum change, outcome = .selected selected sum change ∧
        BestSelection sdk coins ordered selected target.toNat cap ∧
        sum.toNat = total (coinAmounts selected) ∧
        change.toNat = total (coinAmounts selected) - target.toNat

section Spec

variable {sdk : Sdk} {coins : List Coin} {target : UInt64} {cap : ℕ} (overflowChecks : Bool)

/-- The loop does not overflow on coins whose total fits. -/
theorem takeUntil_of_fits (target : UInt64) {acc : UInt64} {coins : List Coin}
    (h : acc.toNat + total (coinAmounts coins) < 2 ^ 64) :
    ∃ selected sum, takeUntil overflowChecks target acc coins = some (selected, sum) := by
  induction coins generalizing acc with
  | nil => exact ⟨[], acc, rfl⟩
  | cons coin coins ih =>
    rw [takeUntil]
    by_cases hreached : target ≤ acc
    · exact ⟨[], acc, if_pos hreached⟩
    · rw [coinAmounts_cons, total_cons] at h
      have hadd : addU64 overflowChecks acc coin.amount = some (acc + coin.amount) :=
        if_neg fun hover => absurd hover.2 (by omega)
      have hsum : (acc + coin.amount).toNat = acc.toNat + coin.amount.toNat :=
        toNat_add_of_lt (by omega)
      have hrest : (acc + coin.amount).toNat + total (coinAmounts coins) < 2 ^ 64 := by omega
      obtain ⟨selected, sum, hselected⟩ := ih hrest
      refine ⟨coin :: selected, sum, ?_⟩
      rw [if_neg hreached, hadd]
      show (takeUntil overflowChecks target (acc + coin.amount) coins >>= _) = _
      rw [hselected]
      rfl

theorem exists_sumU64 {amounts : List UInt64} (h : total amounts < 2 ^ 64) :
    ∃ sum, sumU64 overflowChecks amounts = some sum ∧ sum.toNat = total amounts := by
  obtain ⟨sum, hsum⟩ := sumU64_of_lt overflowChecks h
  exact ⟨sum, hsum, toNat_of_sumU64 hsum h⟩

theorem total_ordered (coins : List Coin) :
    total (coinAmounts (orderedHighValueFirst sdk coins)) = total (coinAmounts coins) :=
  total_perm (coinAmounts_perm (orderedHighValueFirst_perm sdk coins))

variable (sdk) in
theorem total_take_ordered_le (coins : List Coin) (k : ℕ) :
    total (coinAmounts ((orderedHighValueFirst sdk coins).take k)) ≤ total (coinAmounts coins) := by
  have hmono := total_take_mono (orderedHighValueFirst sdk coins)
    (Nat.le_max_left k (orderedHighValueFirst sdk coins).length)
  rwa [List.take_of_length_le (Nat.le_max_right _ _), total_ordered] at hmono

section Outcomes

variable (hfits : total (coinAmounts coins) < 2 ^ 64)
include hfits

variable (sdk target cap) in
/-- Both sums are exact, and compare with the target as integers do. -/
theorem exact_sums : ∃ available capped,
    sumU64 overflowChecks (coinAmounts coins) = some available ∧
    sumU64 overflowChecks (coinAmounts ((orderedHighValueFirst sdk coins).take cap)) = some capped ∧
    (available < target ↔ total (coinAmounts coins) < target.toNat) ∧
    (capped < target ↔
      total (coinAmounts ((orderedHighValueFirst sdk coins).take cap)) < target.toNat) := by
  have hcapFits := (total_take_ordered_le sdk coins cap).trans_lt hfits
  obtain ⟨available, havailable, havailableNat⟩ := exists_sumU64 overflowChecks hfits
  obtain ⟨capped, hcapped, hcappedNat⟩ := exists_sumU64 overflowChecks hcapFits
  refine ⟨available, capped, havailable, hcapped, ?_, ?_⟩
  · rw [UInt64.lt_iff_toNat_lt, havailableNat]
  · rw [UInt64.lt_iff_toNat_lt, hcappedNat]

variable (sdk cap) in
theorem selectForSpend_short (hshort : total (coinAmounts coins) < target.toNat) :
    ∃ available required, selectForSpend sdk overflowChecks coins target cap =
      some (.insufficientFunds available required) := by
  obtain ⟨available, -, havailable, -, hiff, -⟩ := exact_sums sdk target cap overflowChecks hfits
  refine ⟨available, target, ?_⟩
  unfold selectForSpend
  rw [havailable]
  exact if_pos (hiff.mpr hshort)

theorem selectForSpend_fragmented (henough : target.toNat ≤ total (coinAmounts coins))
    (hcapped : total (coinAmounts ((orderedHighValueFirst sdk coins).take cap)) < target.toNat) :
    ∃ count available required cap', selectForSpend sdk overflowChecks coins target cap =
      some (.needsConsolidation count available required cap') := by
  obtain ⟨available, capped, havailable, hsum, hiff, hcappedIff⟩ :=
    exact_sums sdk target cap overflowChecks hfits
  have hnot : ¬ available < target := fun hlt => Nat.not_lt.mpr henough (hiff.mp hlt)
  refine ⟨UInt32.ofNat coins.length, available, target, cap, ?_⟩
  unfold selectForSpend
  rw [havailable]
  refine (if_neg hnot).trans ?_
  show (sumU64 overflowChecks (coinAmounts ((orderedHighValueFirst sdk coins).take cap)) >>= _) = _
  rw [hsum]
  exact if_pos (hcappedIff.mpr hcapped)

theorem selectForSpend_covered
    (hcapped : target.toNat ≤ total (coinAmounts ((orderedHighValueFirst sdk coins).take cap))) :
    ∃ selected sum change, selectForSpend sdk overflowChecks coins target cap =
      some (.selected selected sum change) := by
  have henough := hcapped.trans (total_take_ordered_le sdk coins cap)
  obtain ⟨available, capped, havailable, hsum, hiff, hcappedIff⟩ :=
    exact_sums sdk target cap overflowChecks hfits
  have hnot : ¬ available < target := fun hlt => Nat.not_lt.mpr henough (hiff.mp hlt)
  have hnot' : ¬ capped < target := fun hlt => Nat.not_lt.mpr hcapped (hcappedIff.mp hlt)
  have hacc : (0 : UInt64).toNat + total (coinAmounts (orderedHighValueFirst sdk coins)) <
      2 ^ 64 := by
    rw [total_ordered, UInt64.toNat_zero]
    omega
  obtain ⟨selected, sum, htake⟩ := takeUntil_of_fits overflowChecks target hacc
  have hreached := takeUntil_reached htake havailable hnot
  have hchange : subU64 overflowChecks sum target = some (sum - target) :=
    if_neg fun hlt => UInt64.not_lt.mpr hreached hlt.2
  refine ⟨selected, sum, sum - target, ?_⟩
  unfold selectForSpend
  rw [havailable]
  refine (if_neg hnot).trans ?_
  show (sumU64 overflowChecks (coinAmounts ((orderedHighValueFirst sdk coins).take cap)) >>= _) = _
  rw [hsum]
  refine (if_neg hnot').trans ?_
  rw [htake]
  show (subU64 overflowChecks sum target >>= _) = _
  rw [hchange]
  rfl

end Outcomes

/-! ### The specification is met -/

theorem best_of_selects {overflowChecks : Bool} {selected : List Coin} {sum : UInt64}
    (hids : (coins.map sdk.coinId).Nodup) (hfits : total (coinAmounts coins) < 2 ^ 64)
    (hcapped : target.toNat ≤ total (coinAmounts ((orderedHighValueFirst sdk coins).take cap)))
    (h : Selects sdk overflowChecks coins target selected sum) :
    BestSelection sdk coins (orderedHighValueFirst sdk coins) selected target.toNat cap ∧
      sum.toNat = total (coinAmounts selected) := by
  have hle : total (coinAmounts selected) ≤ total (coinAmounts coins) := by
    rw [h.eq_take]
    exact total_take_ordered_le sdk coins selected.length
  have hsum := toNat_of_sumU64 h.sum_eq (by omega)
  have hfirst : ∀ j < selected.length,
      total (coinAmounts ((orderedHighValueFirst sdk coins).take j)) < target.toNat := by
    intro j hj
    have hinitial := total_take_ordered_le sdk coins j
    have hfitsJ : total (coinAmounts ((orderedHighValueFirst sdk coins).take j)) < 2 ^ 64 := by
      omega
    obtain ⟨s, hs, hsNat⟩ := exists_sumU64 overflowChecks hfitsJ
    have hbelow := UInt64.lt_iff_toNat_lt.mp (h.first j hj s hs)
    omega
  have hinitial : selected <+: orderedHighValueFirst sdk coins := by
    rw [h.eq_take]
    exact List.take_prefix _ _
  refine ⟨⟨hinitial, ?_, ?_, ?_, h.subset, ?_, ?_⟩, hsum⟩
  · rw [← hsum]
    exact UInt64.le_iff_toNat_le.mp h.reached
  · intro shorter hshorter hlength
    rw [List.prefix_iff_eq_take.mp hshorter]
    exact hfirst shorter.length hlength
  · by_contra hlong
    have hbelow := hfirst cap (by omega)
    omega
  · exact (nodup_ordered hids).sublist (hinitial.sublist.map _)
  · intro others hnodup hsubset hreaches
    by_contra hfewer
    have hbelow := hfirst others.length (by omega)
    have hexchange := total_le_take sdk hnodup hsubset
    omega

end Spec

/-- **Coin selection meets its specification**, and its outcome does not depend on the order of the
coins. -/
theorem selection_meets_spec (sdk : Sdk) (overflowChecks : Bool) (coins : List Coin)
    (target : UInt64) (cap : ℕ) (hids : (coins.map sdk.coinId).Nodup)
    (hfits : total (coinAmounts coins) < 2 ^ 64) :
    ∃ ordered outcome, ordered.Perm coins ∧ ordered.Pairwise (HighValueBefore sdk) ∧
      SelectionSpec sdk coins ordered target cap outcome ∧
      ∀ coins', coins'.Perm coins →
        selectForSpend sdk overflowChecks coins' target cap = some outcome := by
  have hpermuted : ∀ outcome, selectForSpend sdk overflowChecks coins target cap = some outcome →
      ∀ coins', coins'.Perm coins →
        selectForSpend sdk overflowChecks coins' target cap = some outcome := by
    intro outcome houtcome coins' hperm
    rw [← houtcome]
    unfold selectForSpend
    rw [ordered_perm hids hperm, hperm.length_eq, sumU64_perm _ (coinAmounts_perm hperm)]
  have hle := total_take_ordered_le sdk coins cap
  refine ⟨orderedHighValueFirst sdk coins, ?_⟩
  by_cases hshort : total (coinAmounts coins) < target.toNat
  · obtain ⟨available, required, hout⟩ := selectForSpend_short sdk cap overflowChecks hfits hshort
    refine ⟨_, orderedHighValueFirst_perm sdk coins, pairwise_before hids, ⟨?_, ?_, ?_⟩,
      hpermuted _ hout⟩
    · exact iff_of_true ⟨available, required, rfl⟩ hshort
    · refine iff_of_false ?_ fun h => absurd h.1 (by omega)
      rintro ⟨count, a, r, c, h⟩
      cases h
    · intro henough
      omega
  · have henough : target.toNat ≤ total (coinAmounts coins) := by omega
    by_cases hcapped :
        total (coinAmounts ((orderedHighValueFirst sdk coins).take cap)) < target.toNat
    · obtain ⟨count, available, required, cap', hout⟩ :=
        selectForSpend_fragmented overflowChecks hfits henough hcapped
      refine ⟨_, orderedHighValueFirst_perm sdk coins, pairwise_before hids, ⟨?_, ?_, ?_⟩,
        hpermuted _ hout⟩
      · refine iff_of_false ?_ hshort
        rintro ⟨a, r, h⟩
        cases h
      · exact iff_of_true ⟨count, available, required, cap', rfl⟩ ⟨henough, hcapped⟩
      · intro _ hreach
        omega
    · have hreach : target.toNat ≤
          total (coinAmounts ((orderedHighValueFirst sdk coins).take cap)) := by omega
      obtain ⟨selected, sum, change, hout⟩ := selectForSpend_covered overflowChecks hfits hreach
      refine ⟨_, orderedHighValueFirst_perm sdk coins, pairwise_before hids, ⟨?_, ?_, ?_⟩,
        hpermuted _ hout⟩
      · refine iff_of_false ?_ hshort
        rintro ⟨a, r, h⟩
        cases h
      · refine iff_of_false ?_ fun h => hcapped h.2
        rintro ⟨count, a, r, c, h⟩
        cases h
      · intro _ _
        obtain ⟨hselects, hchange⟩ := selectForSpend_selected hout
        obtain ⟨hbest, hsum⟩ := best_of_selects hids hfits hreach hselects
        refine ⟨selected, sum, change, rfl, hbest, hsum, ?_⟩
        rw [toNat_of_subU64 hchange hselects.reached, hsum]

/-- Two coins of one amount and one of amount 0, with room for two. -/
theorem selection_of_three :
    ∃ ordered outcome, ordered.Perm [⟨.rep 1, .rep 9, 7⟩, ⟨.rep 2, .rep 9, 0⟩, ⟨.rep 3, .rep 9, 7⟩] ∧
      ordered.Pairwise (HighValueBefore Sim.sim) ∧
      SelectionSpec Sim.sim [⟨.rep 1, .rep 9, 7⟩, ⟨.rep 2, .rep 9, 0⟩, ⟨.rep 3, .rep 9, 7⟩] ordered
        10 2 outcome ∧
      ∀ coins', coins'.Perm [⟨.rep 1, .rep 9, 7⟩, ⟨.rep 2, .rep 9, 0⟩, ⟨.rep 3, .rep 9, 7⟩] →
        selectForSpend Sim.sim true coins' 10 2 = some outcome :=
  selection_meets_spec Sim.sim true _ 10 2 (by decide +kernel) (by decide)

end DigWallet
