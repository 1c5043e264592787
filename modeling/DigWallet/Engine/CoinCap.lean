import DigWallet.Engine.Balances
import DigWallet.Engine.Refusals
import DigWallet.SimBuild

/-!
# DigWallet.Engine.CoinCap — how many coins a build spends

`HoldsToCap`: a build spends at most `max cap 2` coins of each asset, and a CAT send that needs more
is refused with a report that consolidation is needed.  XCH coins are selected within the cap; CAT
coins are not selected at all, so it holds exactly of the wallets whose CAT coins number no more.
-/

namespace DigWallet

open Faults Totals SdkSpendBuilder

/-! ## The cap -/

/-- The asset of the coin that is spent, `none` for XCH. -/
def CoinSpend.asset? (sdk : Sdk) (spend : CoinSpend) : Option Bytes32 :=
  match sdk.nodeFromBytes spend.puzzleReveal, sdk.nodeFromBytes spend.solution with
  | .ok puzzle, .ok solution =>
    match sdk.catParse spend.coin (sdk.parsePuzzle puzzle) solution with
    | .ok (some parsed) => some parsed.assetId
    | _ => none
  | _, _ => none

/-- At most `limit` coins of each asset are spent. -/
def SpendsWithin (sdk : Sdk) (limit : ℕ) (coinSpends : List CoinSpend) : Prop :=
  ∀ asset?, (coinSpends.map (CoinSpend.asset? sdk)).count asset? ≤ limit

/-- The asset and the payout of a CAT send. -/
def BuildRequest.catPayout : BuildRequest → Option (AssetId × ℕ)
  | .sendCat r => some (r.assetId, r.amount.mojos.toNat)
  | .multiSendCat r => some (r.assetId, total (r.legs.map fun leg => leg.amount.mojos))
  | .sendXch _ | .multiSendXch _ | .combineXch _ | .splitXch _ => none

section Cap

variable (sdk : Sdk) (drivers : SpendDrivers) (overflowChecks : Bool) (builder : SdkSpendBuilder)

namespace SdkSpendBuilder

/-- The wallet's coins of the asset that a CAT send pays keep to the cap. -/
def CatsWithinCap (request : BuildRequest) : Prop :=
  ∀ assetId payout cats, request.catPayout = some (assetId, payout) →
    builder.inputs.spendableCat request.identity assetId = .ok cats →
    cats.length ≤ max builder.coinCap 2

/-- The provider answers, the wallet's CAT coins cover the payout, but no choice of coins within the
cap does. -/
def Fragmented (request : BuildRequest) : Prop :=
  ∃ assetId payout cats changePh xch, request.catPayout = some (assetId, payout) ∧
    builder.inputs.spendableCat request.identity assetId = .ok cats ∧
    builder.inputs.changePuzzleHash request.identity = .ok changePh ∧
    builder.inputs.spendableXch request.identity = .ok xch ∧
    payout ≤ total (coinAmounts (cats.map Cat.coin)) ∧
    ∀ chosen : List Cat, chosen.Subperm cats → chosen.length ≤ max builder.coinCap 2 →
      total (coinAmounts (chosen.map Cat.coin)) < payout

/-- The build is refused because coins need consolidation, and not those that pay the fee. -/
def ReportsConsolidation (request : BuildRequest) : Prop :=
  ∃ asset available required cap, asset ≠ "XCH (fee)" ∧
    builder.build sdk drivers overflowChecks request =
      .error (.refused (needsConsolidation asset available required cap))

/-- No built spend exceeds the cap, and a CAT send that would is refused with a report. -/
structure HoldsToCap (request : BuildRequest) : Prop where
  within : ∀ unsigned, builder.build sdk drivers overflowChecks request = .ok unsigned →
    SpendsWithin sdk (max builder.coinCap 2) unsigned.coinSpends
  reports : builder.Fragmented request → builder.ReportsConsolidation sdk drivers overflowChecks request

end SdkSpendBuilder

variable {sdk drivers overflowChecks builder} {wrap : CatInfo → Bytes32 → Bytes32}

/-! ## The assets of a plan -/

theorem asset_of_emitted (hdrivers : drivers.Emit sdk wrap) {planned : PlannedSpend}
    {spend : CoinSpend} (h : Emitted sdk drivers wrap builder.inputs planned spend) :
    spend.asset? sdk = planned.asset? := by
  unfold CoinSpend.asset?
  cases h with
  | standard hkey hspend =>
    obtain ⟨inner, -, hemits⟩ := hdrivers.standard hspend
    have hcat := hemits.cat
    rw [← hemits.coin_eq] at hcat
    simp only [hemits.reveal, hemits.solution, hcat]
    rfl
  | cat hkey hinner hspend =>
    obtain ⟨puzzle, solution, hreveal, hsolution, -, hcat, -⟩ := hspend.wraps
    simp only [hreveal, hsolution, hcat]
    rfl

theorem assets_of_emitted (hdrivers : drivers.Emit sdk wrap) {plan : List PlannedSpend}
    {coinSpends : List CoinSpend}
    (h : List.Forall₂ (Emitted sdk drivers wrap builder.inputs) plan coinSpends) :
    coinSpends.map (CoinSpend.asset? sdk) = plan.map PlannedSpend.asset? :=
  map_eq_of_forall₂ (fun _ _ => asset_of_emitted hdrivers) h

theorem assets_xchPlan (selected : List Coin) (conditions : List Condition) :
    (xchPlan sdk selected conditions).map PlannedSpend.asset? =
      List.replicate selected.length none := by
  cases selected with
  | nil => rfl
  | cons lead supporting =>
    rw [xchPlan, List.map_cons, List.map_map, List.length_cons, List.replicate_succ]
    exact congrArg (none :: ·) List.map_const'

theorem assets_catPlan {cats : List Cat} {asset : Bytes32}
    (h : ∀ cat ∈ cats, cat.info.assetId = asset) (conditions : List Condition) :
    (catPlan cats conditions).map PlannedSpend.asset? = List.replicate cats.length (some asset) := by
  cases cats with
  | nil => rfl
  | cons lead rest =>
    obtain ⟨hlead, hrest⟩ := List.forall_mem_cons.mp h
    have hmap : rest.map (fun cat => some cat.info.assetId) = rest.map fun _ => some asset :=
      List.map_congr_left fun cat hcat => congrArg some (hrest cat hcat)
    rw [catPlan, List.map_cons, List.map_map, List.length_cons, List.replicate_succ]
    exact congrArg₂ (· :: ·) (congrArg some hlead) (hmap.trans List.map_const')

/-! ## What the builders select -/

/-- Only XCH coins are spent, within the cap. -/
def XchWithinCap (builder : SdkSpendBuilder) (plan : List PlannedSpend) : Prop :=
  ∃ n ≤ max builder.coinCap 2, plan.map PlannedSpend.asset? = List.replicate n none

theorem length_of_selects {coins selected : List Coin} {target change : UInt64}
    (h : builder.selects sdk overflowChecks coins target = some (selected, change)) :
    selected.length ≤ builder.coinCap := by
  obtain ⟨sum, houtcome⟩ := selectForSpend_of_selects h
  exact length_of_selectForSpend houtcome

theorem xchWithinCap_of_length {selected : List Coin} {conditions : List Condition}
    (h : selected.length ≤ max builder.coinCap 2) :
    XchWithinCap builder (xchPlan sdk selected conditions) :=
  ⟨selected.length, h, assets_xchPlan selected conditions⟩

theorem xchWithinCap_of_payXch {identity : IdentityRef} {pays : Pairs} {target fee : UInt64}
    {plan : List PlannedSpend}
    (h : builder.payXch sdk drivers overflowChecks identity pays target fee = some plan) :
    XchWithinCap builder plan := by
  obtain ⟨changePh, coins, selected, change, paid, -, -, hselects, -, rfl⟩ := payXch_eq_some h
  exact xchWithinCap_of_length ((length_of_selects hselects).trans (Nat.le_max_left _ _))

theorem xchWithinCap_of_feePlan {identity : IdentityRef} {fee : UInt64} {changePh : Bytes32}
    {cats : List Cat} {feeLeg : List PlannedSpend}
    (h : builder.feePlan sdk overflowChecks identity fee changePh cats = some feeLeg) :
    XchWithinCap builder feeLeg := by
  obtain ⟨-, rfl⟩ | ⟨-, lead, coins, selected, change, -, -, hselects, rfl⟩ := feePlan_eq_some h
  · exact ⟨0, Nat.zero_le _, rfl⟩
  · exact xchWithinCap_of_length ((length_of_selects hselects).trans (Nat.le_max_left _ _))

/-- The plans that spend XCH alone. -/
theorem xchWithinCap_of_plan {request : BuildRequest} {plan : List PlannedSpend}
    (h : builder.plan sdk drivers overflowChecks request = some plan)
    (hxch : request.catPayout = none) : XchWithinCap builder plan := by
  cases request with
  | sendCat r => cases hxch
  | multiSendCat r => cases hxch
  | sendXch r =>
    obtain ⟨target, destination, -, -, h⟩ := sendXchPlan_eq_some h
    exact xchWithinCap_of_payXch h
  | multiSendXch r =>
    obtain ⟨destinations, payout, target, -, -, -, h⟩ := multiSendXchPlan_eq_some h
    exact xchWithinCap_of_payXch h
  | combineXch r =>
    obtain ⟨changePh, coins, selected, sum, -, -, hselected, -, -, -, rfl⟩ := combinePlan_eq_some h
    refine xchWithinCap_of_length ?_
    rw [hselected]
    exact List.length_take_le _ _
  | splitXch r =>
    obtain ⟨changePh, coins, selected, amounts, -, -, -, -, -, rfl⟩ := splitPlan_eq_some h
    have hone : 1 ≤ max builder.coinCap 2 := by omega
    exact xchWithinCap_of_length hone

/-- A CAT send spends every coin the wallet has of the asset. -/
theorem assets_of_payCat (hinputs : builder.inputs.Honest sdk drivers) {identity : IdentityRef}
    {assetId : AssetId} {pays : Pairs} {payout fee : UInt64} {plan : List PlannedSpend}
    (h : builder.payCat sdk drivers overflowChecks identity assetId pays payout fee = some plan) :
    ∃ cats asset feeLeg, builder.inputs.spendableCat identity assetId = .ok cats ∧
      XchWithinCap builder feeLeg ∧ plan.map PlannedSpend.asset? =
        List.replicate cats.length (some asset) ++ feeLeg.map PlannedSpend.asset? := by
  obtain ⟨changePh, cats, catTotal, paid, feeLeg, -, hcats, -, hne, -, -, hfeeLeg, rfl⟩ :=
    payCat_eq_some h
  obtain ⟨lead, hlead⟩ := List.exists_mem_of_ne_nil cats hne
  refine ⟨cats, lead.info.assetId, feeLeg, hcats, xchWithinCap_of_feePlan hfeeLeg, ?_⟩
  rw [List.map_append, assets_catPlan (hinputs.one_asset hcats hlead)]

/-- The assets a CAT send spends. -/
theorem assets_of_catPayout (hinputs : builder.inputs.Honest sdk drivers) {request : BuildRequest}
    {plan : List PlannedSpend}
    (h : builder.plan sdk drivers overflowChecks request = some plan) {assetId : AssetId} {payout : ℕ}
    (hcat : request.catPayout = some (assetId, payout)) :
    ∃ cats asset feeLeg, builder.inputs.spendableCat request.identity assetId = .ok cats ∧
      XchWithinCap builder feeLeg ∧ plan.map PlannedSpend.asset? =
        List.replicate cats.length (some asset) ++ feeLeg.map PlannedSpend.asset? := by
  cases request with
  | sendXch r => cases hcat
  | multiSendXch r => cases hcat
  | combineXch r => cases hcat
  | splitXch r => cases hcat
  | sendCat r =>
    cases hcat
    obtain ⟨-, destination, -, h⟩ := sendCatPlan_eq_some h
    exact assets_of_payCat hinputs h
  | multiSendCat r =>
    cases hcat
    obtain ⟨destinations, payout, -, -, h⟩ := multiSendCatPlan_eq_some h
    exact assets_of_payCat hinputs h

/-- **A build keeps to the cap iff the wallet's CAT coins do.** -/
theorem spendsWithin_iff (hdrivers : drivers.Emit sdk wrap)
    (hinputs : builder.inputs.Honest sdk drivers) {request : BuildRequest} {unsigned : UnsignedSpend}
    (h : builder.build sdk drivers overflowChecks request = .ok unsigned) :
    SpendsWithin sdk (max builder.coinCap 2) unsigned.coinSpends ↔ builder.CatsWithinCap request := by
  obtain ⟨plan, hplanned⟩ := build_planned hdrivers h
  unfold SpendsWithin
  rw [assets_of_emitted hdrivers hplanned.emitted]
  cases hcat : request.catPayout with
  | none =>
    obtain ⟨n, hn, hassets⟩ := xchWithinCap_of_plan hplanned.plan_eq hcat
    constructor
    · intro _ assetId payout cats hsome
      cases hcat.symm.trans hsome
    · intro _ asset?
      rw [hassets]
      exact List.count_le_length.trans (List.length_replicate.trans_le hn)
  | some asked =>
    obtain ⟨assetId, payout⟩ := asked
    obtain ⟨cats, asset, feeLeg, hcats, ⟨n, hn, hfee⟩, hassets⟩ :=
      assets_of_catPayout hinputs hplanned.plan_eq hcat
    constructor
    · intro hwithin assetId' payout' cats' hsome hcats'
      cases hcat.symm.trans hsome
      obtain rfl := Except.ok.inj (hcats.symm.trans hcats')
      have hcount := hwithin (some asset)
      rw [hassets, hfee, List.count_append, List.count_replicate_self] at hcount
      omega
    · intro hwithin asset?
      have hlength := hwithin assetId payout cats hcat hcats
      rw [hassets, hfee, List.count_append, List.count_replicate, List.count_replicate]
      cases asset? with
      | none => simpa using hn
      | some other =>
        have hxch : ((none : Option Bytes32) == some other) = false := rfl
        simp only [hxch, Bool.false_eq_true, if_false, Nat.add_zero]
        split_ifs
        · exact hlength
        · exact Nat.zero_le _

/-! ## What a CAT send reports -/

/-- No report but that of the fee's coins. -/
def Unreported (e : WalletError) : Prop :=
  ∀ asset available required cap, asset ≠ "XCH (fee)" →
    e ≠ needsConsolidation asset available required cap

theorem unreported_of_code {e : WalletError} (h : e.code ≠ .insufficientFunds) : Unreported e := by
  rintro asset available required cap - rfl
  exact h rfl

theorem unreported_of_blames (e : WalletError) (h : BlamesInput e) : Unreported e :=
  unreported_of_code fun hcode => by cases h.symm.trans hcode

theorem unreported_of_isRefusal (e : WalletError) (h : IsRefusal e) : Unreported e :=
  unreported_of_code fun hcode => by cases h.symm.trans hcode

theorem unreported_shortOf (asset : String) (available required : UInt64) :
    Unreported (shortOf asset available required) :=
  fun _ _ _ _ _ => shortOf_ne_needsConsolidation _ _ _ _ _ _ _

theorem unreported_fee (available required : UInt64) (cap : ℕ) :
    Unreported (needsConsolidation "XCH (fee)" available required cap) :=
  fun _ _ _ _ hasset h => hasset (asset_eq_of_needsConsolidation h).symm

/-- The message ends in another letter. -/
theorem unreported_noSpendable (text : String) :
    Unreported (insufficientFunds ("no spendable " ++ text ++ " coins")) := by
  intro asset available required cap _ h
  have htext := congrArg (fun e => e.message.toList.getLast?) h
  have hcap : "-coin cap".toList = "-coin ca".toList ++ ['p'] := rfl
  have hcoins : " coins".toList = " coin".toList ++ ['s'] := rfl
  simp only [toList_needsConsolidation, insufficientFunds, String.toList_append, hcap, hcoins,
    ← List.append_assoc, List.getLast?_concat] at htext
  exact absurd (Option.some.inj htext) (by decide)

/-- Where the provider answers, a CAT send never reports. -/
theorem unreported_of_fragmented {request : BuildRequest} (h : builder.Fragmented request) :
    RefusedWith Unreported (builder.build sdk drivers overflowChecks request) := by
  obtain ⟨assetId, payout, cats, changePh, xch, hcat, hcats, hchangePh, hxch, -, -⟩ := h
  have hfee : RefusedWith Unreported (ofResult (builder.inputs.spendableXch request.identity)) :=
    refusedWith_of_ok hxch
  cases request with
  | sendXch r => cases hcat
  | multiSendXch r => cases hcat
  | combineXch r => cases hcat
  | splitXch r => cases hcat
  | sendCat r =>
    cases hcat
    have hdestination : ErrorsIn Unreported (decodeAddress sdk r.toAddress) :=
      fun e he => unreported_of_blames e (blames_decodeAddress _ e he)
    exact refusedWith_buildSendCat unreported_of_isRefusal
      (refusedWith_refuseIf _ (unreported_of_blames _ rfl)) (refusedWith_ofResult hdestination)
      (refusedWith_of_ok hchangePh) (refusedWith_of_ok hcats) (unreported_noSpendable _)
      (fun _ => unreported_shortOf _ _ _) (fun _ => hfee) unreported_fee fun _ _ =>
        unreported_shortOf _ _ _
  | multiSendCat r =>
    cases hcat
    have hlegs : ErrorsIn Unreported (resolveLegs sdk r.legs) :=
      fun e he => unreported_of_blames e (blames_resolveLegs _ e he)
    have hpayout : ErrorsIn Unreported (totalOf r.legs) :=
      fun e he => unreported_of_blames e (blames_totalOf _ e he)
    have hdistinct : ∀ parent created,
        ErrorsIn Unreported (ensureDistinctCreatedCoins sdk parent created) :=
      fun parent created e he => unreported_of_blames e (blames_ensureDistinctFrom parent [] created e he)
    exact refusedWith_buildMultiSendCat unreported_of_isRefusal (refusedWith_ofResult hlegs)
      (refusedWith_ofResult hpayout) (refusedWith_of_ok hchangePh) (refusedWith_of_ok hcats)
      (fun _ _ => unreported_shortOf _ _ _) (fun _ _ => refusedWith_ofResult (hdistinct _ _))
      (fun _ => hfee) unreported_fee fun _ _ => unreported_shortOf _ _ _

theorem not_reports_of_fragmented {request : BuildRequest} (h : builder.Fragmented request) :
    ¬ builder.ReportsConsolidation sdk drivers overflowChecks request := by
  rintro ⟨asset, available, required, cap, hasset, hbuild⟩
  exact unreported_of_fragmented h _ hbuild asset available required cap hasset rfl

/-- The whole of a wallet within the cap is one of the choices. -/
theorem not_catsWithinCap_of_fragmented {request : BuildRequest} (h : builder.Fragmented request) :
    ¬ builder.CatsWithinCap request := by
  obtain ⟨assetId, payout, cats, changePh, xch, hcat, hcats, -, -, hcovers, hfew⟩ := h
  intro hwithin
  have hlength := hwithin assetId payout cats hcat hcats
  have hall := hfew cats (List.Subperm.refl cats) hlength
  omega

end Cap

/-- **The cap is held iff the wallet's CAT coins keep to it**: if they do, every build does, and if
not, no CAT send that is built or that would need more coins holds to it. -/
theorem holdsToCap_iff (sdk : Sdk) (drivers : SpendDrivers) (wrap : CatInfo → Bytes32 → Bytes32)
    (hdrivers : drivers.Emit sdk wrap) (overflowChecks : Bool) (builder : SdkSpendBuilder)
    (hinputs : builder.inputs.Honest sdk drivers) (request : BuildRequest) :
    (builder.CatsWithinCap request → builder.HoldsToCap sdk drivers overflowChecks request) ∧
      ((∃ unsigned, builder.build sdk drivers overflowChecks request = .ok unsigned) ∨
        builder.Fragmented request → builder.HoldsToCap sdk drivers overflowChecks request →
        builder.CatsWithinCap request) := by
  refine ⟨fun hwithin => ⟨fun unsigned hbuilt => ?_, fun hfragmented => ?_⟩, ?_⟩
  · exact (spendsWithin_iff hdrivers hinputs hbuilt).mpr hwithin
  · exact absurd hwithin (not_catsWithinCap_of_fragmented hfragmented)
  · rintro (⟨unsigned, hbuilt⟩ | hfragmented) hholds
    · exact (spendsWithin_iff hdrivers hinputs hbuilt).mp (hholds.within unsigned hbuilt)
    · exact absurd (hholds.reports hfragmented) (not_reports_of_fragmented hfragmented)

namespace Sim

/-- A wallet with CATs of the given amounts and a cap of two coins. -/
def capTwo (amounts : List UInt64) : SdkSpendBuilder where
  inputs := inputs [] (amounts.mapIdx fun i amount => catCoin (UInt8.ofNat (i + 1)) amount)
  network := .mainnet
  coinCap := 2

/-- A send of CATs without a fee. -/
def sendCats (amount : UInt64) : BuildRequest :=
  .sendCat ⟨identity, ⟨hexEncode asset.bytes⟩, addressOf (.rep 0x42), ⟨amount⟩, ⟨0⟩⟩

end Sim

open Sim in
/-- Two coins, a cap of two. -/
theorem two_cats_hold : (capTwo [40, 50]).HoldsToCap sim spendDrivers true (sendCats 90) := by
  refine (holdsToCap_iff sim spendDrivers wrap spendDrivers_emit true (capTwo [40, 50])
    (inputs_honest ?_) (sendCats 90)).1 ?_
  · decide
  · intro assetId payout cats hasked hcats
    cases hasked
    cases hcats
    decide

open Sim in
/-- Three coins, a cap of two: the send spends all three. -/
theorem three_cats_spent : ¬ (capTwo [40, 50, 60]).HoldsToCap sim spendDrivers true (sendCats 130) := by
  intro h
  have hthree : ((capTwo [40, 50, 60]).build sim spendDrivers true (sendCats 130)).toOption.any
      (fun unsigned => (unsigned.coinSpends.map (CoinSpend.asset? sim)).count (some asset) == 3) =
        true := by decide +kernel
  obtain ⟨unsigned, hbuilt, hcount⟩ := (Option.any_eq_true _ _).mp hthree
  have hwithin := h.within unsigned (toOption_eq_some.mp hbuilt) (some asset)
  rw [eq_of_beq hcount] at hwithin
  exact absurd hwithin (by decide)

end DigWallet
