import DigWallet.Engine.CatBalances
import DigWallet.Engine.CoinCap
import DigWallet.Engine.Collisions
import DigWallet.Engine.Parity
import DigWallet.Engine.SelectionSpec

/-!
# DigWallet.Engine.ExactTotals — the totals the engine takes

`EngineCall` is a call of the engine that totals amounts it is given: a selection, a balance, the CATs
of a spend, a CAT send, a combine.  `totalsKept_iff`: the call keeps its totals (none panics, none is
reduced modulo `2 ^ 64`) exactly when the totals are `u64`s.
-/

namespace DigWallet

open Faults Totals SdkSpendBuilder

/-! ## Selections -/

/-- The total an outcome reports, of what it selects or else of all the coins, is kept. -/
def SelectionOutcome.ReportsKept (coins : List Coin) : SelectionOutcome → Prop
  | .selected chosen sum _ => Kept (coinAmounts chosen) sum
  | .insufficientFunds available _ | .needsConsolidation _ available _ _ =>
    Kept (coinAmounts coins) available

/-- `select_for_spend` returns, the total it reports is kept, and so is each of its three sums. -/
structure SelectionKept (sdk : Sdk) (overflowChecks : Bool) (coins : List Coin) (target : UInt64)
    (cap : ℕ) : Prop where
  returns : ∃ outcome, selectForSpend sdk overflowChecks coins target cap = some outcome ∧
    outcome.ReportsKept coins
  available : ∃ sum, sumU64 overflowChecks (coinAmounts coins) = some sum ∧
    Kept (coinAmounts coins) sum
  capped : ∃ sum,
    sumU64 overflowChecks (coinAmounts ((orderedHighValueFirst sdk coins).take cap)) = some sum ∧
    Kept (coinAmounts ((orderedHighValueFirst sdk coins).take cap)) sum
  chosen : ∃ selected sum,
    takeUntil overflowChecks target 0 (orderedHighValueFirst sdk coins) = some (selected, sum) ∧
    Kept (coinAmounts selected) sum

section Selection

variable {sdk : Sdk} {overflowChecks : Bool} {coins : List Coin} {target : UInt64} {cap : ℕ}

variable (sdk overflowChecks target cap) in
/-- One of the three outcomes. -/
theorem selectForSpend_returns (hfits : total (coinAmounts coins) < 2 ^ 64) :
    ∃ outcome, selectForSpend sdk overflowChecks coins target cap = some outcome := by
  by_cases hshort : total (coinAmounts coins) < target.toNat
  · obtain ⟨available, required, h⟩ := selectForSpend_short sdk cap overflowChecks hfits hshort
    exact ⟨_, h⟩
  by_cases hcapped : total (coinAmounts ((orderedHighValueFirst sdk coins).take cap)) < target.toNat
  · obtain ⟨count, available, required, cap', h⟩ :=
      selectForSpend_fragmented overflowChecks hfits (Nat.le_of_not_lt hshort) hcapped
    exact ⟨_, h⟩
  · obtain ⟨selected, sum, change, h⟩ :=
      selectForSpend_covered overflowChecks hfits (Nat.le_of_not_lt hcapped)
    exact ⟨_, h⟩

/-- The total reported is one of the sums taken. -/
theorem reportsKept_of_fits (hfits : total (coinAmounts coins) < 2 ^ 64) {outcome : SelectionOutcome}
    (h : selectForSpend sdk overflowChecks coins target cap = some outcome) :
    outcome.ReportsKept coins := by
  unfold selectForSpend at h
  obtain ⟨available, havailable, h⟩ := Option.bind_eq_some_iff.mp h
  have hkept : Kept (coinAmounts coins) available := (kept_iff_of_sumU64 havailable).mpr hfits
  dsimp only at h
  by_cases hshort : available < target
  · rw [if_pos hshort] at h
    cases h
    exact hkept
  · rw [if_neg hshort] at h
    obtain ⟨capped, -, h⟩ := Option.bind_eq_some_iff.mp h
    by_cases hcapped : capped < target
    · rw [if_pos hcapped] at h
      cases h
      exact hkept
    · rw [if_neg hcapped] at h
      obtain ⟨⟨selected, sum⟩, htake, h⟩ := Option.bind_eq_some_iff.mp h
      obtain ⟨change, -, h⟩ := Option.bind_eq_some_iff.mp h
      cases h
      obtain ⟨k, -, rfl, hsum, -, -⟩ := takeUntil_eq_some htake
      exact (kept_iff_of_sumU64 hsum).mpr ((total_take_ordered_le sdk coins k).trans_lt hfits)

theorem selectionKept_iff :
    SelectionKept sdk overflowChecks coins target cap ↔ total (coinAmounts coins) < 2 ^ 64 := by
  constructor
  · intro h
    exact (sumKept_iff overflowChecks _).mp h.available
  · intro hfits
    have hall : (0 : UInt64).toNat + total (coinAmounts (orderedHighValueFirst sdk coins)) <
        2 ^ 64 := by
      rw [total_ordered, UInt64.toNat_zero, Nat.zero_add]
      exact hfits
    obtain ⟨selected, sum, htake⟩ := takeUntil_of_fits overflowChecks target hall
    obtain ⟨k, -, rfl, hsum, -, -⟩ := takeUntil_eq_some htake
    have hinitial := fun k => (total_take_ordered_le sdk coins k).trans_lt hfits
    obtain ⟨outcome, houtcome⟩ := selectForSpend_returns sdk overflowChecks target cap hfits
    exact ⟨⟨outcome, houtcome, reportsKept_of_fits hfits houtcome⟩,
      (sumKept_iff overflowChecks _).mpr hfits, (sumKept_iff overflowChecks _).mpr (hinitial cap),
      ⟨_, sum, htake, (kept_iff_of_sumU64 hsum).mpr (hinitial k)⟩⟩

end Selection

/-! ## Balances -/

/-- The in-memory balance is returned, and its amounts are kept. -/
def BalanceKept (overflowChecks : Bool) (state : WalletState) : Prop :=
  ∃ balance, state.balance overflowChecks = some balance ∧
    Kept state.unspentAmounts balance.confirmed.mojos ∧
    Kept state.unspentAmounts balance.spendable.mojos

theorem balanceKept_iff {overflowChecks : Bool} {state : WalletState} :
    BalanceKept overflowChecks state ↔ total state.unspentAmounts < 2 ^ 64 := by
  rw [← sumKept_iff overflowChecks]
  constructor
  · rintro ⟨balance, hbalance, hconfirmed, -⟩
    obtain ⟨sum, hsum, heq⟩ := Option.bind_eq_some_iff.mp hbalance
    obtain rfl := Option.some.inj heq
    exact ⟨sum, hsum, hconfirmed⟩
  · rintro ⟨sum, hsum, hkept⟩
    exact ⟨⟨⟨sum⟩, ⟨sum⟩⟩, Option.bind_eq_some_iff.mpr ⟨sum, hsum, rfl⟩, hkept, hkept⟩

/-! ## The CATs of a spend -/

section Hydration

variable (sdk : Sdk) (drivers : AssetDrivers) (overflowChecks : Bool)

/-- The coins a spend creates of an asset, as amounts. -/
def createdAmounts (parent : CoinSpend) (assetId : AssetId) : List UInt64 :=
  amounts (coinsOf assetId (createdCats sdk drivers parent))

/-- The reconstruction does not panic, and the balance of each asset it returns is kept. -/
structure HydrationKept (parent : CoinSpend) : Prop where
  noPanic : reconstructFromParentSpend sdk drivers overflowChecks parent ≠ .ok none
  balances : ∀ hydrated,
    reconstructFromParentSpend sdk drivers overflowChecks parent = .ok (some hydrated) →
    ∀ assetId, Kept (createdAmounts sdk drivers parent assetId)
      ((balanceIn hydrated.cats assetId).getD 0)

variable {sdk drivers overflowChecks}

/-- The balance of an asset is its total, reduced. -/
theorem toNat_balanceIn_bumpAll (assetId : AssetId) (children : List ChildCat) :
    ((balanceIn (bumpAll children []) assetId).getD 0).toNat =
      total (amounts (coinsOf assetId children)) % 2 ^ 64 := by
  rw [balanceIn_bumpAll]
  by_cases hnil : coinsOf assetId children = []
  · rw [if_pos hnil, hnil]
    rfl
  · rw [if_neg hnil, Option.getD_some, UInt64.toNat_ofNat']
    show (0 + _) % _ = _
    rw [Nat.zero_add]

theorem hydrationKept_iff {parent : CoinSpend} :
    HydrationKept sdk drivers overflowChecks parent ↔
      ∀ assetId, total (createdAmounts sdk drivers parent assetId) < 2 ^ 64 := by
  unfold createdAmounts
  rcases reconstruct_cases sdk drivers overflowChecks parent with
    ⟨e, hreconstruct, hnone⟩ | ⟨hreconstruct, hover⟩ | ⟨hydrated, hreconstruct, hcats, -⟩
  · rw [hnone]
    refine iff_of_true ⟨?_, ?_⟩ fun assetId => Nat.two_pow_pos 64
    · rw [hreconstruct]
      rintro ⟨⟩
    · intro hydrated h
      cases hreconstruct.symm.trans h
  · refine iff_of_false (fun h => h.noPanic hreconstruct) fun hfits => hover fun _ assetId => ?_
    show 0 + _ < _
    rw [Nat.zero_add]
    exact hfits assetId
  · have hkept := fun assetId => kept_iff_of_wraps
      (toNat_balanceIn_bumpAll assetId (createdCats sdk drivers parent))
    rw [← hcats] at hkept
    constructor
    · intro h assetId
      exact (hkept assetId).mp (h.balances hydrated hreconstruct assetId)
    · refine fun hfits => ⟨?_, fun hydrated' h assetId => ?_⟩
      · rw [hreconstruct]
        rintro ⟨⟩
      · cases hreconstruct.symm.trans h
        exact (hkept assetId).mpr (hfits assetId)

end Hydration

/-! ## Builds do not panic -/

section Panics

variable {sdk : Sdk} {drivers : SpendDrivers} {overflowChecks : Bool} {builder : SdkSpendBuilder}

theorem noPanic_selectOrFail {coins : List Coin} {target : UInt64} {cap : ℕ} {asset : String}
    (hfits : total (coinAmounts coins) < 2 ^ 64) :
    NoPanic (selectOrFail sdk overflowChecks coins target cap asset) := by
  obtain ⟨outcome, houtcome⟩ := selectForSpend_returns sdk overflowChecks target cap hfits
  refine (noPanic_orPanic houtcome).bind fun outcome _ => ?_
  cases outcome with
  | selected coins _ _ => exact noPanic_ok coins
  | needsConsolidation _ _ _ _ => exact noPanic_refused _
  | insufficientFunds _ _ => exact noPanic_refused _

theorem subU64_of_le {a b : UInt64} (h : b ≤ a) : subU64 overflowChecks a b = some (a - b) :=
  if_neg fun hlt => UInt64.not_lt.mpr h hlt.2

/-- The fee leg of a CAT send, over XCH coins whose total fits. -/
theorem noPanic_addCatFee {ctx : List CoinSpend} {identity : IdentityRef} {fee : UInt64}
    {changePh : Bytes32} {cats : List Cat} (hne : cats ≠ [])
    (hxch : 0 < fee → ∀ coins, builder.inputs.spendableXch identity = .ok coins →
      total (coinAmounts coins) < 2 ^ 64) :
    NoPanic (builder.addCatFee sdk drivers overflowChecks ctx identity fee changePh cats) := by
  unfold addCatFee
  by_cases hpos : 0 < fee
  · rw [if_pos hpos]
    refine (noPanic_orPanic (List.head?_eq_some_head hne)).bind fun lead _ => ?_
    refine (noPanic_ofResult _).bind fun coins hcoins => ?_
    have hfits := hxch hpos coins (ofResult_eq_ok.mp hcoins)
    refine (noPanic_selectOrFail hfits).bind fun selected hselected => ?_
    obtain ⟨sum, change, houtcome⟩ := selectOrFail_eq_ok hselected
    obtain ⟨hselects, hchange⟩ := selectForSpend_selected houtcome
    refine (noPanic_orPanic hselects.sum_eq).bind fun total htotal => ?_
    obtain rfl := Option.some.inj (hselects.sum_eq.symm.trans (orPanic_eq_ok.mp htotal))
    refine (noPanic_orPanic hchange).bind fun _ _ => ?_
    refine (noPanic_orPanic (List.head?_eq_some_head (hselects.ne_nil hpos))).bind fun _ _ => ?_
    exact (noPanic_ofResult _).bind fun _ _ => noPanic_ofResult _
  · rw [if_neg hpos]
    exact noPanic_ok ctx

theorem noPanic_buildSendCat {r : SendCatRequest}
    (hcats : ∀ cats, builder.inputs.spendableCat r.identity r.assetId = .ok cats →
      total (coinAmounts (cats.map Cat.coin)) < 2 ^ 64)
    (hxch : 0 < r.fee.mojos → ∀ coins, builder.inputs.spendableXch r.identity = .ok coins →
      total (coinAmounts coins) < 2 ^ 64) :
    NoPanic (builder.buildSendCat sdk drivers overflowChecks r) := by
  refine (noPanic_refuseIf _ _).bind fun _ _ => (noPanic_ofResult _).bind fun _ _ => ?_
  refine (noPanic_ofResult _).bind fun _ _ => (noPanic_ofResult _).bind fun cats hfound => ?_
  obtain ⟨catTotal, hcatTotal⟩ := sumU64_of_lt overflowChecks (hcats cats (ofResult_eq_ok.mp hfound))
  refine (noPanic_refuseIf _ _).bind fun _ hsome => ?_
  refine (noPanic_orPanic hcatTotal).bind fun catTotal' _ => ?_
  refine (noPanic_refuseIf _ _).bind fun _ hfunded => ?_
  have hcovers := UInt64.not_lt.mp (refuseIf_eq_ok.mp hfunded)
  refine (noPanic_orPanic (subU64_of_le hcovers)).bind fun _ _ => ?_
  refine (noPanic_ofResult _).bind fun _ _ => (noPanic_ofResult _).bind fun _ _ => ?_
  exact (noPanic_addCatFee (refuseIf_eq_ok.mp hsome) hxch).bind fun _ _ => noPanic_ofResult _

theorem noPanic_buildMultiSendCat {r : MultiSendCatRequest}
    (hcats : ∀ cats, builder.inputs.spendableCat r.identity r.assetId = .ok cats →
      total (coinAmounts (cats.map Cat.coin)) < 2 ^ 64)
    (hxch : 0 < r.fee.mojos → ∀ coins, builder.inputs.spendableXch r.identity = .ok coins →
      total (coinAmounts coins) < 2 ^ 64) :
    NoPanic (builder.buildMultiSendCat sdk drivers overflowChecks r) := by
  refine (noPanic_ofResult _).bind fun _ _ => (noPanic_ofResult _).bind fun payout _ => ?_
  refine (noPanic_ofResult _).bind fun _ _ => (noPanic_ofResult _).bind fun cats hfound => ?_
  obtain ⟨catTotal, hcatTotal⟩ := sumU64_of_lt overflowChecks (hcats cats (ofResult_eq_ok.mp hfound))
  refine (noPanic_orPanic hcatTotal).bind fun catTotal' _ => ?_
  refine (noPanic_refuseIf _ _).bind fun _ hchecked => ?_
  obtain ⟨hne, hfunded⟩ := not_or.mp (refuseIf_eq_ok.mp hchecked)
  have hcovers := UInt64.not_lt.mp hfunded
  refine (noPanic_orPanic (subU64_of_le hcovers)).bind fun change hchange => ?_
  refine (noPanic_orPanic (List.head?_eq_some_head hne)).bind fun _ _ => ?_
  refine (noPanic_ofResult _).bind fun _ _ => (noPanic_ofResult _).bind fun _ _ => ?_
  refine (noPanic_ofResult _).bind fun _ _ => (noPanic_addCatFee hne hxch).bind fun _ _ => ?_
  have hsub := eq_sub_of_subU64 (orPanic_eq_ok.mp hchange)
  have hsum := toNat_sub_add hcovers
  have hroom : payout.toNat + change.toNat < 2 ^ 64 := by
    have hlt := catTotal'.toNat_lt
    rw [hsub]
    omega
  refine (noPanic_orPanic (addU64_of_lt hroom)).bind fun _ _ => ?_
  exact (noPanic_ofResult _).bind fun _ _ => noPanic_ofResult _

theorem noPanic_buildCombineXch {r : CombineXchRequest}
    (hxch : ∀ coins, builder.inputs.spendableXch r.identity = .ok coins →
      total (coinAmounts ((orderedHighValueFirst sdk coins).take (max builder.coinCap 2))) < 2 ^ 64) :
    NoPanic (builder.buildCombineXch sdk drivers overflowChecks r) := by
  refine (noPanic_ofResult _).bind fun _ _ => (noPanic_ofResult _).bind fun coins hfound => ?_
  refine (noPanic_ofResult _).bind fun selected hselected => ?_
  have hselected := ofResult_eq_ok.mp hselected
  unfold selectForConsolidation at hselected
  split_ifs at hselected with hfew
  cases hselected
  obtain ⟨sum, hsum⟩ := sumU64_of_lt overflowChecks (hxch coins (ofResult_eq_ok.mp hfound))
  refine (noPanic_orPanic hsum).bind fun _ _ => (noPanic_ofResult _).bind fun _ _ => ?_
  have hne : (orderedHighValueFirst sdk coins).take (max builder.coinCap 2) ≠ [] := by
    intro hnil
    have hlength := congrArg List.length hnil
    have hall := (orderedHighValueFirst_perm sdk coins).length_eq
    rw [List.length_take, List.length_nil] at hlength
    omega
  refine (noPanic_orPanic (List.head?_eq_some_head hne)).bind fun _ _ => ?_
  refine (noPanic_ofResult _).bind fun _ _ => (noPanic_ofResult _).bind fun _ _ => ?_
  exact (noPanic_ofResult _).bind fun _ _ => noPanic_ofResult _

end Panics

/-! ## Builds conserve value -/

section Conservation

variable (sdk : Sdk)

/-- What one spend creates, in total. -/
def amountCreatedBy (spend : CoinSpend) : ℕ :=
  match createdBySpend sdk spend with
  | .ok created => total (coinAmounts created)
  | .error _ => 0

/-- The amounts of the coins of one denomination that are spent. -/
def spentAs (asset? : Option Bytes32) (coinSpends : List CoinSpend) : ℕ :=
  (coinSpends.map fun spend => if spend.asset? sdk = asset? then spend.coin.amount.toNat else 0).sum

/-- The amounts of the coins that the spends of one denomination create. -/
def createdAs (asset? : Option Bytes32) (coinSpends : List CoinSpend) : ℕ :=
  (coinSpends.map fun spend => if spend.asset? sdk = asset? then amountCreatedBy sdk spend else 0).sum

/-- Every denomination is conserved, up to the fee in XCH. -/
def KeepsValue (fee : UInt64) (coinSpends : List CoinSpend) : Prop :=
  ∀ asset?, spentAs sdk asset? coinSpends =
    createdAs sdk asset? coinSpends + if asset? = none then fee.toNat else 0

variable {sdk} {drivers : SpendDrivers} {wrap : CatInfo → Bytes32 → Bytes32} {builder : SdkSpendBuilder}
  {plan : List PlannedSpend} {coinSpends : List CoinSpend}

theorem amountCreatedBy_emitted (hdrivers : drivers.Emit sdk wrap) {planned : PlannedSpend}
    {spend : CoinSpend} (hordinary : ∀ c ∈ planned.conditions, Ordinary c) (hruns : sdk.Runs spend)
    (h : Emitted sdk drivers wrap builder.inputs planned spend) :
    amountCreatedBy sdk spend = planned.amountCreated := by
  unfold amountCreatedBy
  rw [createdBySpend_emitted hdrivers hordinary hruns h]
  simp [PlannedSpend.created, PlannedSpend.creates, PlannedSpend.amountCreated, createdPairs,
    pairsTotal, coinAmounts, Function.comp_def]

/-- The spends conserve value exactly when the plan does. -/
theorem keepsValue_emitted (hdrivers : drivers.Emit sdk wrap) {fee : UInt64}
    (hordinary : ∀ planned ∈ plan, ∀ c ∈ planned.conditions, Ordinary c)
    (hruns : ∀ spend ∈ coinSpends, sdk.Runs spend)
    (h : List.Forall₂ (Emitted sdk drivers wrap builder.inputs) plan coinSpends) :
    KeepsValue sdk fee coinSpends ↔ ∀ asset?, plannedIn asset? plan =
      plannedOut asset? plan + if asset? = none then fee.toNat else 0 := by
  have hin : ∀ asset?, spentAs sdk asset? coinSpends = plannedIn asset? plan := by
    intro asset?
    refine congrArg List.sum (map_eq_of_forall₂ (fun planned spend hemitted => ?_) h)
    rw [asset_of_emitted hdrivers hemitted, hemitted.coin_eq hdrivers]
  have hout : ∀ asset?, createdAs sdk asset? coinSpends = plannedOut asset? plan := by
    intro asset?
    have hboth := (List.forall₂_and_left _ _).mpr ⟨hordinary, h⟩
    have hall := (List.forall₂_and_left _ _).mpr ⟨hruns, hboth.flip⟩
    refine congrArg List.sum (map_eq_of_forall₂ (fun planned spend hemitted => ?_) hall.flip)
    obtain ⟨hrun, hordinary, hemitted⟩ := hemitted
    rw [asset_of_emitted hdrivers hemitted, amountCreatedBy_emitted hdrivers hordinary hrun hemitted]
  simp only [KeepsValue, hin, hout]

/-! ### The requests -/

/-- The builder of the request totals coins outside a selection. -/
inductive BuildRequest.TotalsCoins : BuildRequest → Prop
  | sendCat (r : SendCatRequest) : TotalsCoins (.sendCat r)
  | multiSendCat (r : MultiSendCatRequest) : TotalsCoins (.multiSendCat r)
  | combineXch (r : CombineXchRequest) : TotalsCoins (.combineXch r)

namespace SdkSpendBuilder

variable (sdk builder)

/-- The CATs listed for an asset, and the XCH coins listed for the fee, total to `u64`s. -/
def CatListsFit (identity : IdentityRef) (assetId : AssetId) (fee : UInt64) : Prop :=
  (∀ cats, builder.inputs.spendableCat identity assetId = .ok cats →
    total (coinAmounts (cats.map Cat.coin)) < 2 ^ 64) ∧
  (0 < fee → ∀ coins, builder.inputs.spendableXch identity = .ok coins →
    total (coinAmounts coins) < 2 ^ 64)

/-- What the builder of a request totals fits. -/
def ListsFit : BuildRequest → Prop
  | .sendCat r => builder.CatListsFit r.identity r.assetId r.fee.mojos
  | .multiSendCat r => builder.CatListsFit r.identity r.assetId r.fee.mojos
  | .combineXch r => ∀ coins, builder.inputs.spendableXch r.identity = .ok coins →
      total (coinAmounts ((orderedHighValueFirst sdk coins).take (max builder.coinCap 2))) < 2 ^ 64
  | .sendXch _ | .multiSendXch _ | .splitXch _ => True

variable (drivers) (overflowChecks : Bool)

/-- The build does not panic, what it returns keeps value, and the sums of the selection that pays the
fee of a CAT send are kept. -/
structure BuildKept (request : BuildRequest) : Prop where
  noPanic : NoPanic (builder.build sdk drivers overflowChecks request)
  value : ∀ unsigned, builder.build sdk drivers overflowChecks request = .ok unsigned →
    KeepsValue sdk request.fee unsigned.coinSpends
  selection : ∀ unsigned, builder.build sdk drivers overflowChecks request = .ok unsigned →
    request.catPayout.isSome → 0 < request.fee →
    ∀ coins, builder.inputs.spendableXch request.identity = .ok coins →
      SelectionKept sdk overflowChecks coins request.fee builder.coinCap

end SdkSpendBuilder

variable {overflowChecks : Bool} {unsigned : UnsignedSpend}

theorem noPanic_of_listsFit {request : BuildRequest} (hrequest : request.TotalsCoins)
    (hfits : builder.ListsFit sdk request) :
    NoPanic (builder.build sdk drivers overflowChecks request) := by
  cases hrequest with
  | sendCat r => exact noPanic_buildSendCat hfits.1 hfits.2
  | multiSendCat r => exact noPanic_buildMultiSendCat hfits.1 hfits.2
  | combineXch r => exact noPanic_buildCombineXch hfits

/-- The fee of a CAT send is paid from coins that reach it. -/
theorem catSpendsExactly_of_payCat {identity : IdentityRef} {assetId : AssetId} {pays : Pairs}
    {payout fee : UInt64}
    (h : builder.payCat sdk drivers overflowChecks identity assetId pays payout fee = some plan)
    (hfits : builder.CatListsFit identity assetId fee) :
    builder.CatSpendsExactly sdk identity assetId fee := by
  obtain ⟨changePh, cats, catTotal, paid, feeLeg, -, -, -, -, -, -, hfeeLeg, -⟩ := payCat_eq_some h
  refine ⟨hfits.1, fun hpos => ?_⟩
  obtain ⟨hzero, -⟩ | ⟨-, lead, coins, selected, change, -, hcoins, hselects, -⟩ :=
    feePlan_eq_some hfeeLeg
  · rw [hzero] at hpos
    exact absurd hpos (UInt64.lt_irrefl 0)
  · obtain ⟨sum, hselects, -⟩ := selects_eq_some hselects
    rw [xchReaches_iff hcoins, ← hselects.fits_iff, hselects.eq_take]
    exact (total_take_ordered_le sdk coins _).trans_lt (hfits.2 hpos coins hcoins)

theorem spendsExactly_of_listsFit {request : BuildRequest} (hrequest : request.TotalsCoins)
    (h : builder.plan sdk drivers overflowChecks request = some plan)
    (hfits : builder.ListsFit sdk request) : builder.SpendsExactly sdk request := by
  cases hrequest with
  | combineXch r => exact hfits
  | sendCat r =>
    obtain ⟨-, destination, -, h⟩ := sendCatPlan_eq_some h
    exact catSpendsExactly_of_payCat h hfits
  | multiSendCat r =>
    obtain ⟨destinations, payout, -, -, h⟩ := multiSendCatPlan_eq_some h
    exact catSpendsExactly_of_payCat h hfits

theorem buildKept_of_listsFit (hdrivers : drivers.Emit sdk wrap)
    (hinputs : builder.inputs.Honest sdk drivers) {request : BuildRequest}
    (hrequest : request.TotalsCoins) (hfits : builder.ListsFit sdk request) :
    builder.BuildKept sdk drivers overflowChecks request := by
  refine ⟨noPanic_of_listsFit hrequest hfits, fun unsigned hbuilt => ?_, ?_⟩
  · obtain ⟨plan, hplanned⟩ := build_planned hdrivers hbuilt
    have hbalanced := balanced_of_plan hinputs hplanned.plan_eq
    have hexact := spendsExactly_of_listsFit hrequest hplanned.plan_eq hfits
    rw [keepsValue_emitted hdrivers hbalanced.ordinary hplanned.runs hplanned.emitted]
    exact hbalanced.conserves (hbalanced.exact.mpr hexact)
  · intro unsigned _ hcat hpos coins hcoins
    cases hrequest with
    | combineXch r => cases hcat
    | sendCat r => exact selectionKept_iff.mpr (hfits.2 hpos coins hcoins)
    | multiSendCat r => exact selectionKept_iff.mpr (hfits.2 hpos coins hcoins)

/-- A CAT send that conserves its asset had CATs that total to a `u64`: it creates as much as the
machine computed. -/
theorem cats_fit_of_conserved (hinputs : builder.inputs.Honest sdk drivers) {identity : IdentityRef}
    {assetId : AssetId} {pays : Pairs} {payout fee : UInt64}
    (h : builder.payCat sdk drivers overflowChecks identity assetId pays payout fee = some plan)
    (hpayout : payout.toNat = pairsTotal pays)
    (hconserves : ∀ asset?, plannedIn asset? plan =
      plannedOut asset? plan + if asset? = none then fee.toNat else 0) :
    ∀ cats, builder.inputs.spendableCat identity assetId = .ok cats →
      total (coinAmounts (cats.map Cat.coin)) < 2 ^ 64 := by
  obtain ⟨changePh, cats, catTotal, paid, feeLeg, -, hcats, -, hne, hcovers, hpaid, hfeeLeg, rfl⟩ :=
    payCat_eq_some h
  obtain ⟨lead, hlead⟩ := List.exists_mem_of_ne_nil cats hne
  obtain ⟨feeCoins, feeChange, hfee, -, -⟩ := planLeg_of_feePlan hfeeLeg
  have hcarries := (Carries.payments hpaid).append (.change changePh (catTotal - payout))
  have hleg := PlanLeg.catPlan hne (hinputs.one_asset hcats hlead) hcarries
  have hasset := hconserves (some lead.info.assetId)
  rw [plannedIn_append, plannedOut_append, hleg.amountIn, hleg.amountOut, hfee.amountIn,
    hfee.amountOut, if_pos rfl, if_pos rfl, pairsTotal_append, pairsTotal_changePairs, ← hpayout] at hasset
  have hsum := toNat_sub_add hcovers
  have hlt := catTotal.toNat_lt
  intro cats' hcats'
  obtain rfl := Except.ok.inj (hcats.symm.trans hcats')
  simp only [reduceCtorEq, if_false, Nat.add_zero] at hasset
  omega

/-- A build that is kept had lists that fit. -/
theorem listsFit_of_buildKept (hdrivers : drivers.Emit sdk wrap)
    (hinputs : builder.inputs.Honest sdk drivers) {request : BuildRequest}
    (hrequest : request.TotalsCoins)
    (hbuilt : builder.build sdk drivers overflowChecks request = .ok unsigned)
    (hkept : builder.BuildKept sdk drivers overflowChecks request) : builder.ListsFit sdk request := by
  obtain ⟨plan, hplanned⟩ := build_planned hdrivers hbuilt
  have hbalanced := balanced_of_plan hinputs hplanned.plan_eq
  have hvalue := hkept.value unsigned hbuilt
  rw [keepsValue_emitted hdrivers hbalanced.ordinary hplanned.runs hplanned.emitted] at hvalue
  have hplan := hplanned.plan_eq
  cases hrequest with
  | combineXch r =>
    obtain ⟨changePh, coins, selected, sum, -, hcoins, hselected, hne, -, hcovers, rfl⟩ :=
      combinePlan_eq_some hplan
    have hleg := PlanLeg.xchPlan sdk hne (Carries.merged changePh (sum - r.fee.mojos) r.fee.mojos)
    have hxch := hvalue none
    rw [hleg.amountIn, hleg.amountOut, if_pos rfl, if_pos rfl, if_pos rfl, pairsTotal_single] at hxch
    have hsum := toNat_sub_add hcovers
    have hlt := sum.toNat_lt
    intro coins' hcoins'
    obtain rfl := Except.ok.inj (hcoins.symm.trans hcoins')
    rw [← hselected, hxch]
    exact hsum.trans_lt hlt
  | sendCat r =>
    obtain ⟨-, destination, -, hplan⟩ := sendCatPlan_eq_some hplan
    refine ⟨cats_fit_of_conserved hinputs hplan (pairsTotal_single _ _).symm hvalue, ?_⟩
    intro hpos coins hcoins
    exact selectionKept_iff.mp (hkept.selection unsigned hbuilt rfl hpos coins hcoins)
  | multiSendCat r =>
    obtain ⟨destinations, payout, hdestinations, hpayout, hplan⟩ := multiSendCatPlan_eq_some hplan
    have htotal : payout.toNat = pairsTotal destinations := by
      rw [toNat_of_totalOf hpayout, pairsTotal_of_resolveLegs hdestinations]
    refine ⟨cats_fit_of_conserved hinputs hplan htotal hvalue, ?_⟩
    intro hpos coins hcoins
    exact selectionKept_iff.mp (hkept.selection unsigned hbuilt rfl hpos coins hcoins)

end Conservation

/-! ## Every call -/

/-- The calls of the engine that total amounts a provider, a peer or a spend supplies. -/
inductive EngineCall (drivers : SpendDrivers) (sdk : Sdk)
  | select (coins : List Coin) (target : UInt64) (cap : ℕ)
  | balance (state : WalletState)
  | hydrate (assetDrivers : AssetDrivers) (parent : CoinSpend)
  | build (builder : SdkSpendBuilder) (honest : builder.inputs.Honest sdk drivers)
      (request : BuildRequest) (totals : request.TotalsCoins)

namespace EngineCall

variable {drivers : SpendDrivers} {sdk : Sdk}

/-- The exact totals of what is supplied are `u64`s. -/
def Fits : EngineCall drivers sdk → Prop
  | select coins _ _ => total (coinAmounts coins) < 2 ^ 64
  | balance state => total state.unspentAmounts < 2 ^ 64
  | hydrate assetDrivers parent =>
    ∀ assetId, total (createdAmounts sdk assetDrivers parent assetId) < 2 ^ 64
  | build builder _ request _ => builder.ListsFit sdk request

/-- No total panics or is reduced, and a build that succeeds keeps value. -/
def TotalsKept (overflowChecks : Bool) : EngineCall drivers sdk → Prop
  | select coins target cap => SelectionKept sdk overflowChecks coins target cap
  | balance state => BalanceKept overflowChecks state
  | hydrate assetDrivers parent => HydrationKept sdk assetDrivers overflowChecks parent
  | build builder _ request _ => builder.BuildKept sdk drivers overflowChecks request

/-- The call returns an error. -/
def Refused (overflowChecks : Bool) : EngineCall drivers sdk → Prop
  | build builder _ request _ =>
    ∃ e, builder.build sdk drivers overflowChecks request = .error (.refused e)
  | select _ _ _ | balance _ | hydrate _ _ => False

end EngineCall

/-- **The engine keeps its totals exactly where they are `u64`s**: there it always does, and a call
that returns no error does nowhere else. -/
theorem totalsKept_iff (sdk : Sdk) (drivers : SpendDrivers) (wrap : CatInfo → Bytes32 → Bytes32)
    (hdrivers : drivers.Emit sdk wrap) (overflowChecks : Bool) (call : EngineCall drivers sdk) :
    (call.Fits → call.TotalsKept overflowChecks) ∧
      (¬ call.Refused overflowChecks → call.TotalsKept overflowChecks → call.Fits) := by
  cases call with
  | select coins target cap => exact ⟨selectionKept_iff.mpr, fun _ => selectionKept_iff.mp⟩
  | balance state => exact ⟨balanceKept_iff.mpr, fun _ => balanceKept_iff.mp⟩
  | hydrate assetDrivers parent => exact ⟨hydrationKept_iff.mpr, fun _ => hydrationKept_iff.mp⟩
  | build builder honest request totals =>
    refine ⟨buildKept_of_listsFit hdrivers honest totals, fun haccepted hkept => ?_⟩
    cases hbuilt : builder.build sdk drivers overflowChecks request with
    | ok unsigned => exact listsFit_of_buildKept hdrivers honest totals hbuilt hkept
    | error fault =>
      cases fault with
      | panicked => exact absurd hbuilt hkept.noPanic
      | refused e => exact absurd ⟨e, hbuilt⟩ haccepted

namespace Sim

/-- A wallet with CATs of the given amounts. -/
def catWallet (amounts : List UInt64) : SdkSpendBuilder :=
  builder [] (amounts.mapIdx fun i amount => catCoin (UInt8.ofNat (i + 1)) amount)

/-- A send of 60 from CATs of the given amounts. -/
def sendSixty (amounts : List UInt64) (honest : (catWallet amounts).inputs.Honest sim spendDrivers) :
    EngineCall spendDrivers sim :=
  .build (catWallet amounts) honest
    (.sendCat ⟨identity, ⟨hexEncode asset.bytes⟩, addressOf (.rep 0x42), ⟨60⟩, ⟨0⟩⟩) (.sendCat _)

theorem catWallet_honest (amounts : List UInt64) :
    (catWallet amounts).inputs.Honest sim spendDrivers := by
  refine inputs_honest fun cat hcat => ?_
  obtain ⟨i, hi, rfl⟩ := List.mem_mapIdx.mp hcat
  exact ⟨rfl, rfl⟩

end Sim

open Sim in
/-- CATs of 40 and 50 are sent exactly. -/
theorem small_cats_kept : (sendSixty [40, 50] (catWallet_honest _)).TotalsKept true := by
  refine (totalsKept_iff sim spendDrivers wrap spendDrivers_emit true _).1 ⟨?_, ?_⟩
  · rintro cats hcats
    cases hcats
    decide
  · rintro hpos
    exact absurd hpos (by decide)

open Sim in
/-- CATs that total to `2 ^ 64 + 100`: without overflow checks the send of 60 leaves 40 in change, with
them it panics. -/
theorem large_cats_lost :
    let amounts : List UInt64 := [UInt64.ofNat (2 ^ 63), UInt64.ofNat (2 ^ 63 + 100)]
    (∃ unsigned, (catWallet amounts).build sim spendDrivers false
        (.sendCat ⟨identity, ⟨hexEncode asset.bytes⟩, addressOf (.rep 0x42), ⟨60⟩, ⟨0⟩⟩) = .ok unsigned ∧
      spentAs sim (some asset) unsigned.coinSpends = 2 ^ 64 + 100 ∧
      createdAs sim (some asset) unsigned.coinSpends = 60 + 40) ∧
    ∀ overflowChecks, ¬ (sendSixty amounts (catWallet_honest _)).TotalsKept overflowChecks := by
  intro amounts
  have hlost : ((catWallet amounts).build sim spendDrivers false
      (.sendCat ⟨identity, ⟨hexEncode asset.bytes⟩, addressOf (.rep 0x42), ⟨60⟩, ⟨0⟩⟩)).toOption.any
      (fun unsigned => spentAs sim (some asset) unsigned.coinSpends == 2 ^ 64 + 100 &&
        createdAs sim (some asset) unsigned.coinSpends == 60 + 40) = true := by decide +kernel
  have hpanics : ((catWallet amounts).build sim spendDrivers true
      (.sendCat ⟨identity, ⟨hexEncode asset.bytes⟩, addressOf (.rep 0x42), ⟨60⟩, ⟨0⟩⟩)) =
      .error .panicked := by decide +kernel
  obtain ⟨unsigned, hbuilt, hsums⟩ := (Option.any_eq_true _ _).mp hlost
  have hspent := eq_of_beq (Bool.and_eq_true_iff.mp hsums).1
  have hcreated := eq_of_beq (Bool.and_eq_true_iff.mp hsums).2
  refine ⟨⟨unsigned, toOption_eq_some.mp hbuilt, hspent, hcreated⟩, fun overflowChecks hkept => ?_⟩
  cases overflowChecks with
  | true => exact hkept.noPanic hpanics
  | false =>
    have hvalue := hkept.value unsigned (toOption_eq_some.mp hbuilt) (some asset)
    rw [hspent, hcreated] at hvalue
    exact absurd hvalue (by decide)

end DigWallet
