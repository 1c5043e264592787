import DigWallet.Engine.Confirmed
import DigWallet.Engine.ExactTotals
import DigWallet.Lib.Merging

/-!
# DigWallet.Engine.Consolidation — combining coins until a send fits

A send that needs too many coins is refused as needing consolidation.  `Consolidated` is a run of
rounds: while selection says so, a combine is built, confirmed and its coin is held.
`consolidation_exact`: the run keeps the wallet's value, ends within a bound, and without a fee takes
exactly as many rounds as merging the largest coins first takes to reach the target.
-/

namespace DigWallet

open Faults Merging Totals SdkSpendBuilder

/-! ## Amounts in descending order -/

section Amounts

variable (sdk : Sdk) {coins : List Coin}

def amountsDescending (coins : List Coin) : List ℕ := (orderedHighValueFirst sdk coins).map amountOf

variable {sdk}

theorem descending_amounts (coins : List Coin) : Descending (amountsDescending sdk coins) :=
  List.pairwise_map.mpr (heaviestFirst_ordered coins)

theorem amountsDescending_perm (coins : List Coin) :
    (amountsDescending sdk coins).Perm (coins.map amountOf) :=
  (orderedHighValueFirst_perm sdk coins).map _

theorem sum_amounts (coins : List Coin) : (coins.map amountOf).sum = total (coinAmounts coins) :=
  weightOf_amountOf coins

theorem sum_amountsDescending (coins : List Coin) :
    (amountsDescending sdk coins).sum = total (coinAmounts coins) :=
  (amountsDescending_perm coins).sum_eq.trans (sum_amounts coins)

theorem length_amountsDescending (coins : List Coin) :
    (amountsDescending sdk coins).length = coins.length := by
  rw [amountsDescending, List.length_map, (orderedHighValueFirst_perm sdk coins).length_eq]

theorem sum_take_amounts (coins : List Coin) (k : ℕ) :
    ((amountsDescending sdk coins).take k).sum =
      total (coinAmounts ((orderedHighValueFirst sdk coins).take k)) := by
  rw [amountsDescending, ← List.map_take, sum_amounts]

end Amounts

/-! ## Rounds -/

section Rounds

variable (sdk : Sdk) (drivers : SpendDrivers) (overflowChecks : Bool) (builder : SdkSpendBuilder)
  (own : Bytes32 → Bool) (request : CombineXchRequest) (target : UInt64)

/-- Selection refuses to spend the coins as they are. -/
def NeedsConsolidation (coins : List Coin) : Prop :=
  ∃ count available required cap,
    selectForSpend sdk overflowChecks coins target builder.coinCap =
      some (.needsConsolidation count available required cap)

def Selectable (coins : List Coin) : Prop :=
  ∃ selected sum change, selectForSpend sdk overflowChecks coins target builder.coinCap =
    some (.selected selected sum change)

/-- A combine of the coins held, built and confirmed. -/
def combineRound (coins : List Coin) : Option (List Coin) := do
  let unsigned ← ((builder.holding coins).buildCombineXch sdk drivers overflowChecks request).toOption
  confirm sdk own coins unsigned.coinSpends

/-- `n` rounds, each because selection asked for one. -/
inductive Consolidated : ℕ → List Coin → List Coin → Prop
  | start (coins : List Coin) : Consolidated 0 coins coins
  | round {n : ℕ} {coins coins' coins'' : List Coin} : Consolidated n coins coins' →
      NeedsConsolidation sdk overflowChecks builder target coins' →
      combineRound sdk drivers overflowChecks builder own request coins' = some coins'' →
      Consolidated (n + 1) coins coins''

/-- How many coins a combine takes. -/
def SdkSpendBuilder.combined : ℕ := max builder.coinCap 2

/-- What `n` rounds from `coins` to `coins'` did. -/
structure Consolidates (n : ℕ) (coins coins' : List Coin) : Prop where
  value : total (coinAmounts coins') + n * request.fee.mojos.toNat = total (coinAmounts coins)
  count : coins'.length + n * (builder.combined - 1) = coins.length
  bounded : 0 < n → builder.coinCap + (n - 1) * (builder.combined - 1) < coins.length
  covered : request.fee.mojos = 0 →
    (Selectable sdk overflowChecks builder target coins' ↔ target.toNat ≤ total (coinAmounts
      ((orderedHighValueFirst sdk coins).take (builder.coinCap + n * (builder.combined - 1)))))
  fewest : request.fee.mojos = 0 → ∀ r, target.toNat ≤ total (coinAmounts
      ((orderedHighValueFirst sdk coins).take (builder.coinCap + r * (builder.combined - 1)))) → n ≤ r
  progress : request.fee.mojos = 0 → target.toNat ≤ total (coinAmounts coins) →
    Selectable sdk overflowChecks builder target coins' ∨
      NeedsConsolidation sdk overflowChecks builder target coins' ∧
      NoPanic ((builder.holding coins').buildCombineXch sdk drivers overflowChecks request) ∧
      RefusedWith IsRefusal
        ((builder.holding coins').buildCombineXch sdk drivers overflowChecks request)

end Rounds

section Proofs

variable {sdk : Sdk} {drivers : SpendDrivers} {wrap : CatInfo → Bytes32 → Bytes32}
  {overflowChecks : Bool} {builder : SdkSpendBuilder} {own : Bytes32 → Bool}
  {request : CombineXchRequest} {target : UInt64} {coins coins' : List Coin}

/-! ## When selection asks -/

variable (overflowChecks) in
theorem selectable_iff (hfits : total (coinAmounts coins) < 2 ^ 64) :
    Selectable sdk overflowChecks builder target coins ↔
      target.toNat ≤ total (coinAmounts ((orderedHighValueFirst sdk coins).take builder.coinCap)) := by
  constructor
  · rintro ⟨selected, sum, change, hselected⟩
    obtain ⟨available, capped, -, -, hcapped, hcovers, -, -⟩ := selectForSpend_eq_selected hselected
    have hcappedFits := (total_take_ordered_le sdk coins builder.coinCap).trans_lt hfits
    rw [← toNat_of_sumU64 hcapped hcappedFits]
    exact UInt64.le_iff_toNat_le.mp hcovers
  · exact selectForSpend_covered overflowChecks hfits

theorem needsConsolidation_iff (hfits : total (coinAmounts coins) < 2 ^ 64) :
    NeedsConsolidation sdk overflowChecks builder target coins ↔
      target.toNat ≤ total (coinAmounts coins) ∧
      total (coinAmounts ((orderedHighValueFirst sdk coins).take builder.coinCap)) <
        target.toNat := by
  constructor
  · rintro ⟨count, available, required, cap, hneeds⟩
    by_cases hshort : total (coinAmounts coins) < target.toNat
    · obtain ⟨_, _, hout⟩ := selectForSpend_short sdk builder.coinCap overflowChecks hfits hshort
      cases hneeds.symm.trans hout
    · refine ⟨Nat.le_of_not_lt hshort, ?_⟩
      by_contra hcapped
      obtain ⟨_, _, _, hout⟩ := selectForSpend_covered overflowChecks hfits (Nat.le_of_not_lt hcapped)
      cases hneeds.symm.trans hout
  · rintro ⟨henough, hcapped⟩
    exact selectForSpend_fragmented overflowChecks hfits henough hcapped

/-- Selection asks only for more coins than the cap. -/
theorem cap_lt_of_needs (hfits : total (coinAmounts coins) < 2 ^ 64)
    (h : NeedsConsolidation sdk overflowChecks builder target coins) :
    builder.coinCap < coins.length := by
  obtain ⟨henough, hcapped⟩ := (needsConsolidation_iff hfits).mp h
  by_contra hfew
  have hlength := (orderedHighValueFirst_perm sdk coins).length_eq
  rw [List.take_of_length_le (by omega), total_ordered] at hcapped
  omega

theorem two_le_combined (builder : SdkSpendBuilder) : 2 ≤ builder.combined := Nat.le_max_right _ _

/-- Then there are as many as a combine takes. -/
theorem combined_le_of_needs (hcap : 0 < builder.coinCap)
    (hfits : total (coinAmounts coins) < 2 ^ 64)
    (h : NeedsConsolidation sdk overflowChecks builder target coins) :
    builder.combined ≤ coins.length := by
  have hmore := cap_lt_of_needs hfits h
  unfold SdkSpendBuilder.combined
  omega

/-! ## One round -/

/-- The largest coins of a wallet, and the rest. -/
theorem unspentBy_take_perm (hids : (coins.map sdk.coinId).Nodup) (k : ℕ) :
    (unspentBy sdk ((orderedHighValueFirst sdk coins).take k) coins).Perm
      ((orderedHighValueFirst sdk coins).drop k) := by
  have hsplit := perm_spent_append hids (nodup_take_ordered hids k) (take_ordered_subset k)
  have hordered := orderedHighValueFirst_perm sdk coins
  rw [← List.take_append_drop k (orderedHighValueFirst sdk coins)] at hordered
  exact ((List.perm_append_left_iff _).mp (hordered.trans hsplit)).symm

/-- What one round leaves: the coins it does not take, and one worth the others less the fee. -/
theorem combineRound_eq_some (hdrivers : drivers.Emit sdk wrap)
    (hown : ∀ changePh, builder.inputs.changePuzzleHash request.identity = .ok changePh →
      own changePh = true)
    (hids : (coins.map sdk.coinId).Nodup) (hfits : total (coinAmounts coins) < 2 ^ 64)
    (h : combineRound sdk drivers overflowChecks builder own request coins = some coins') :
    (coins'.map sdk.coinId).Nodup ∧ ∃ merged, merged + request.fee.mojos.toNat =
        ((amountsDescending sdk coins).take builder.combined).sum ∧
      (coins'.map amountOf).Perm (merged :: (amountsDescending sdk coins).drop builder.combined) := by
  unfold combineRound at h
  simp only [Option.bind_eq_bind, Option.bind_eq_some_iff, toOption_eq_some] at h
  obtain ⟨unsigned, hbuilt, hconfirm⟩ := h
  refine ⟨nodup_of_confirm hconfirm, ?_⟩
  obtain ⟨plan, hplanned⟩ : ∃ plan, Planned sdk drivers wrap overflowChecks (builder.holding coins)
      (.combineXch request) unsigned plan := buildCombineXch_planned hdrivers hbuilt
  obtain ⟨changePh, coins₁, selected, sum, hchangePh, hcoins, hselected, hne, hsum, hcovers, rfl⟩ :=
    combinePlan_eq_some hplanned.plan_eq
  obtain rfl := Except.ok.inj hcoins
  have hexact : total (coinAmounts selected) < 2 ^ 64 := by
    rw [hselected]
    exact (total_take_ordered_le sdk coins _).trans_lt hfits
  have hcarries := Carries.merged changePh (sum - request.fee.mojos) request.fee.mojos
  have hchange : own changePh = true := hown changePh hchangePh
  have htaken : selected = (orderedHighValueFirst sdk coins).take builder.combined := hselected
  have hspent : unsigned.coinSpends.map CoinSpend.coin = selected :=
    (coins_of_emitted hdrivers hplanned.emitted).trans (PlanLeg.xchPlan sdk hne hcarries).coins_eq
  have hpays := leadPays_of_emitted hdrivers hne hcarries hplanned.emitted
  obtain ⟨lead, supporting, hlead, rfl⟩ := confirm_of_leadPays hpays hconfirm
  have hadded : (childrenAt sdk lead [(changePh, sum - request.fee.mojos)]).filter
      (fun coin => own coin.puzzleHash) = [⟨sdk.coinId lead, changePh, sum - request.fee.mojos⟩] := by
    simp [childrenAt, hchange]
  rw [hadded, ← hlead, hspent]
  refine ⟨(sum - request.fee.mojos).toNat, ?_, ?_⟩
  · rw [sum_take_amounts, ← htaken, ← toNat_of_sumU64 hsum hexact]
    exact toNat_sub_add hcovers
  · rw [htaken, List.map_append]
    refine List.perm_append_comm.trans (List.Perm.cons _ ?_)
    rw [amountsDescending, ← List.map_drop]
    exact (unspentBy_take_perm hids _).map _

/-! ## A run of rounds -/

/-- What a run has kept after `n` rounds. -/
structure AfterRounds (sdk : Sdk) (builder : SdkSpendBuilder) (request : CombineXchRequest) (n : ℕ)
    (coins coins' : List Coin) : Prop where
  distinct : (coins'.map sdk.coinId).Nodup
  value : total (coinAmounts coins') + n * request.fee.mojos.toNat = total (coinAmounts coins)
  count : coins'.length + n * (builder.combined - 1) = coins.length
  bounded : 0 < n → builder.coinCap + (n - 1) * (builder.combined - 1) < coins.length
  merged : request.fee.mojos = 0 → amountsDescending sdk coins' =
    (mergeFirst builder.combined)^[n] (amountsDescending sdk coins)

theorem AfterRounds.fits {n : ℕ} (h : AfterRounds sdk builder request n coins coins')
    (hfits : total (coinAmounts coins) < 2 ^ 64) : total (coinAmounts coins') < 2 ^ 64 := by
  have hvalue := h.value
  omega

/-- One more round, on what the run has kept. -/
theorem AfterRounds.round (hdrivers : drivers.Emit sdk wrap) (hcap : 0 < builder.coinCap)
    (hown : ∀ changePh, builder.inputs.changePuzzleHash request.identity = .ok changePh →
      own changePh = true)
    (hfits : total (coinAmounts coins) < 2 ^ 64) {n : ℕ} {coins'' : List Coin}
    (h : AfterRounds sdk builder request n coins coins')
    (hneeds : NeedsConsolidation sdk overflowChecks builder target coins')
    (hround : combineRound sdk drivers overflowChecks builder own request coins' = some coins'') :
    AfterRounds sdk builder request (n + 1) coins coins'' := by
  have hfits' := h.fits hfits
  obtain ⟨hdistinct, merged, hmerged, hperm⟩ :=
    combineRound_eq_some hdrivers hown h.distinct hfits' hround
  have htwo := two_le_combined builder
  have henough : builder.combined ≤ coins'.length := combined_le_of_needs hcap hfits' hneeds
  have hmore : builder.coinCap < coins'.length := cap_lt_of_needs hfits' hneeds
  have hsplit := List.sum_take_add_sum_drop (amountsDescending sdk coins') builder.combined
  rw [sum_amountsDescending] at hsplit
  have hsum : total (coinAmounts coins'') =
      merged + ((amountsDescending sdk coins').drop builder.combined).sum := by
    rw [← sum_amounts, hperm.sum_eq, List.sum_cons]
  have hlength : coins''.length = coins'.length - builder.combined + 1 := by
    have hsize := hperm.length_eq
    rwa [List.length_map, List.length_cons, List.length_drop, length_amountsDescending] at hsize
  have hcount := h.count
  have hvalue := h.value
  refine ⟨hdistinct, ?_, ?_, fun _ => ?_, fun hfree => ?_⟩
  · rw [hsum, Nat.succ_mul]
    omega
  · rw [hlength, Nat.succ_mul]
    omega
  · rw [Nat.add_sub_cancel]
    omega
  · rw [Function.iterate_succ_apply', ← h.merged hfree]
    have hall : merged = ((amountsDescending sdk coins').take builder.combined).sum := by
      rw [hfree] at hmerged
      exact hmerged
    rw [hall] at hperm
    exact (descending_amounts coins'').eq_of_perm
      (descending_mergeFirst (Nat.lt_of_lt_of_le Nat.two_pos htwo) (descending_amounts coins'))
      ((amountsDescending_perm coins'').trans hperm)

/-- Induction on the rounds. -/
theorem afterRounds (hdrivers : drivers.Emit sdk wrap) (hcap : 0 < builder.coinCap)
    (hown : ∀ changePh, builder.inputs.changePuzzleHash request.identity = .ok changePh →
      own changePh = true)
    (hids : (coins.map sdk.coinId).Nodup) (hfits : total (coinAmounts coins) < 2 ^ 64) {n : ℕ}
    (hrun : Consolidated sdk drivers overflowChecks builder own request target n coins coins') :
    AfterRounds sdk builder request n coins coins' := by
  induction hrun with
  | start coins =>
    refine ⟨hids, ?_, ?_, fun hpos => absurd hpos (Nat.lt_irrefl 0), fun _ => rfl⟩
    · rw [Nat.zero_mul, Nat.add_zero]
    · rw [Nat.zero_mul, Nat.add_zero]
  | round hrun hneeds hround ih => exact (ih hids hfits).round hdrivers hcap hown hfits hneeds hround

/-- The capped prefix after `n` rounds without a fee. -/
theorem AfterRounds.capped {n : ℕ} (h : AfterRounds sdk builder request n coins coins')
    (hcap : 0 < builder.coinCap) (hfree : request.fee.mojos = 0) :
    total (coinAmounts ((orderedHighValueFirst sdk coins').take builder.coinCap)) =
      total (coinAmounts ((orderedHighValueFirst sdk coins).take
        (builder.coinCap + n * (builder.combined - 1)))) := by
  have htwo := two_le_combined builder
  rw [← sum_take_amounts, ← sum_take_amounts, h.merged hfree]
  exact sum_take_iterate (Nat.lt_of_lt_of_le Nat.two_pos htwo) hcap n _

/-! ## The next round -/

/-- A fee-free combine of coins that have some value fails only where a driver does. -/
theorem combine_progress {coins : List Coin} {changePh : Bytes32}
    (hchangePh : builder.inputs.changePuzzleHash request.identity = .ok changePh)
    (hfree : request.fee.mojos = 0) (hmany : 2 ≤ coins.length)
    (hfits : total (coinAmounts coins) < 2 ^ 64)
    (hvalue : 0 < total (coinAmounts ((orderedHighValueFirst sdk coins).take builder.combined))) :
    NoPanic ((builder.holding coins).buildCombineXch sdk drivers overflowChecks request) ∧
      RefusedWith IsRefusal
        ((builder.holding coins).buildCombineXch sdk drivers overflowChecks request) := by
  have hselected : selectForConsolidation sdk coins builder.coinCap =
      .ok ((orderedHighValueFirst sdk coins).take builder.combined) :=
    if_neg (Nat.not_lt.mpr hmany)
  have hcappedFits := (total_take_ordered_le sdk coins builder.combined).trans_lt hfits
  obtain ⟨sum, hsum, hsumNat⟩ := exists_sumU64 overflowChecks hcappedFits
  have hpos : 0 < sum := UInt64.lt_iff_toNat_lt.mpr (hsumNat ▸ hvalue)
  have hmerged : (checkedSub sum request.fee.mojos).filter (0 < ·) = some sum := by
    rw [hfree, checkedSub, if_pos (UInt64.zero_le), UInt64.sub_zero, Option.filter_some,
      if_pos (decide_eq_true hpos)]
  have hlength := (orderedHighValueFirst_perm sdk coins).length_eq
  have hne : (orderedHighValueFirst sdk coins).take builder.combined ≠ [] := by
    intro hnil
    rw [hnil] at hvalue
    exact absurd hvalue (Nat.lt_irrefl 0)
  have hhead := List.head?_eq_some_head hne
  unfold buildCombineXch
  constructor
  · refine (noPanic_ofResult _).bind fun _ _ => (noPanic_ofResult _).bind fun coins' hcoins => ?_
    obtain rfl := Except.ok.inj (ofResult_eq_ok.mp hcoins)
    refine (noPanic_ofResult _).bind fun selected hselected' => ?_
    obtain rfl := Except.ok.inj (hselected.symm.trans (ofResult_eq_ok.mp hselected'))
    refine (noPanic_orPanic hsum).bind fun _ _ => (noPanic_ofResult _).bind fun _ _ => ?_
    refine (noPanic_orPanic hhead).bind fun _ _ => (noPanic_ofResult _).bind fun _ _ => ?_
    exact (noPanic_ofResult _).bind fun _ _ => (noPanic_ofResult _).bind fun _ _ => noPanic_ofResult _
  · have hspend : ∀ e, IsRefusal e → IsRefusal e := fun _ h => h
    refine (refusedWith_of_ok hchangePh).bind fun _ => ?_
    refine (refusedWith_of_ok (a := coins) rfl).bind_of_ok fun coins' hcoins => ?_
    obtain rfl := Except.ok.inj (ofResult_eq_ok.mp hcoins)
    refine (refusedWith_of_ok hselected).bind_of_ok fun selected hselected' => ?_
    obtain rfl := Except.ok.inj (hselected.symm.trans (ofResult_eq_ok.mp hselected'))
    refine (refusedWith_orPanic _).bind_of_ok fun sum' hsum' => ?_
    obtain rfl := Option.some.inj (hsum.symm.trans (orPanic_eq_ok.mp hsum'))
    refine (refusedWith_of_ok (okOr_eq_ok.mpr hmerged)).bind fun _ => ?_
    refine (refusedWith_orPanic _).bind fun _ => ?_
    refine ((refuses_spendStandard _ _ _).refusedWith hspend).bind fun _ => ?_
    refine ((refuses_linkSupportingCoins _ _).refusedWith hspend).bind fun _ => ?_
    refine ((refuses_assertConserved _ _ _).refusedWith hspend).bind fun _ => ?_
    exact (refuses_finish _ _).refusedWith hspend

end Proofs

/-- **Combining the largest coins makes any affordable send possible**, in as few rounds as merging
them can, and no round loses value beyond its fee. -/
theorem consolidation_exact (sdk : Sdk) (drivers : SpendDrivers)
    (wrap : CatInfo → Bytes32 → Bytes32) (hdrivers : drivers.Emit sdk wrap) (overflowChecks : Bool)
    (builder : SdkSpendBuilder) (hcap : 0 < builder.coinCap) (own : Bytes32 → Bool)
    (request : CombineXchRequest) (changePh : Bytes32)
    (hchangePh : builder.inputs.changePuzzleHash request.identity = .ok changePh)
    (hown : own changePh = true) (target : UInt64) (coins coins' : List Coin)
    (hids : (coins.map sdk.coinId).Nodup) (hfits : total (coinAmounts coins) < 2 ^ 64) (n : ℕ)
    (hrun : Consolidated sdk drivers overflowChecks builder own request target n coins coins') :
    Consolidates sdk drivers overflowChecks builder request target n coins coins' := by
  have hown' : ∀ changePh, builder.inputs.changePuzzleHash request.identity = .ok changePh →
      own changePh = true := by
    intro changePh' hchangePh'
    rwa [← Except.ok.inj (hchangePh.symm.trans hchangePh')]
  have hafter := afterRounds hdrivers hcap hown' hids hfits hrun
  have hfits' := hafter.fits hfits
  refine ⟨hafter.value, hafter.count, hafter.bounded, fun hfree => ?_, fun hfree r hreach => ?_,
    fun hfree henough => ?_⟩
  · rw [selectable_iff overflowChecks hfits', hafter.capped hcap hfree]
  · -- the last round was asked for, so its capped prefix fell short
    cases hrun with
    | start => exact Nat.zero_le r
    | round hrun hneeds hround =>
      rename_i n before
      have hbefore := afterRounds hdrivers hcap hown' hids hfits hrun
      have hcapped := ((needsConsolidation_iff (hbefore.fits hfits)).mp hneeds).2
      rw [hbefore.capped hcap hfree] at hcapped
      by_contra hfew
      have hle : r * (builder.combined - 1) ≤ n * (builder.combined - 1) :=
        Nat.mul_le_mul_right _ (by omega)
      have hmono := total_take_mono (orderedHighValueFirst sdk coins)
        (Nat.add_le_add_left hle builder.coinCap)
      omega
  · have hvalue := hafter.value
    rw [hfree, UInt64.toNat_zero, Nat.mul_zero, Nat.add_zero] at hvalue
    by_cases hselect : Selectable sdk overflowChecks builder target coins'
    · exact .inl hselect
    · have hcapped := mt (selectable_iff overflowChecks hfits').mpr hselect
      have hneeds : NeedsConsolidation sdk overflowChecks builder target coins' :=
        (needsConsolidation_iff hfits').mpr ⟨hvalue.symm ▸ henough, Nat.lt_of_not_le hcapped⟩
      have hmany := combined_le_of_needs hcap hfits' hneeds
      refine .inr ⟨hneeds, ?_⟩
      refine combine_progress hchangePh hfree ((two_le_combined builder).trans hmany) hfits' ?_
      have htwo := two_le_combined builder
      have hsome : 0 < (amountsDescending sdk coins').sum := by
        rw [sum_amountsDescending, hvalue]
        omega
      rw [← sum_take_amounts]
      exact (descending_amounts coins').sum_take_pos (Nat.lt_of_lt_of_le Nat.two_pos htwo) hsome

open Sim in
/-- Four coins under a cap of two: one combine, and a send of eleven is possible. -/
theorem four_coins_consolidate :
    let coins := [xchCoin 1 2, xchCoin 2 4, xchCoin 3 3, xchCoin 4 5]
    let capped := { builder [] [] with coinCap := 2 }
    ∃ coins', Consolidated sim spendDrivers true capped (fun hash => decide (hash = home))
        ⟨identity, ⟨0⟩⟩ 11 1 coins coins' ∧
      Consolidates sim spendDrivers true capped ⟨identity, ⟨0⟩⟩ 11 1 coins coins' := by
  intro coins capped
  have hround : (combineRound sim spendDrivers true capped (fun hash => decide (hash = home))
      ⟨identity, ⟨0⟩⟩ coins).isSome = true := by decide +kernel
  obtain ⟨coins', hcoins'⟩ := Option.isSome_iff_exists.mp hround
  have hneeds : NeedsConsolidation sim true capped 11 coins :=
    (needsConsolidation_iff (by decide)).mpr (by decide +kernel)
  have hrun := Consolidated.round (.start coins) hneeds hcoins'
  exact ⟨coins', hrun, consolidation_exact sim spendDrivers wrap spendDrivers_emit true capped
    (by decide) _ _ home rfl (by decide) 11 coins coins' (by decide +kernel) (by decide) 1 hrun⟩

end DigWallet
