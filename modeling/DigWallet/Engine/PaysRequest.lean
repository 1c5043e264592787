import DigWallet.Engine.Balances
import DigWallet.Engine.SelectionSpec
import DigWallet.SimBuild

/-!
# DigWallet.Engine.PaysRequest — the XCH builders pay exactly the request

`PaysRequest` says of the coin spends themselves, as they decode and run, which coins they create,
what they reserve and how they are bound.  `built_pays_request`: what an XCH builder returns is so.
-/

namespace DigWallet

open Totals SdkSpendBuilder

/-! ## What a bundle pays -/

/-- The coin spend decodes and runs to a signature and `conditions`. -/
def RunsTo (sdk : Sdk) (spend : CoinSpend) (conditions : List Condition) : Prop :=
  ∃ puzzle solution sig, sdk.nodeFromBytes spend.puzzleReveal = .ok puzzle ∧
    sdk.nodeFromBytes spend.solution = .ok solution ∧
    sdk.conditionsOf puzzle solution = .ok (.aggSigMe sig :: conditions)

/-- The first coin creates `created`, in order, and reserves `fee`; every other coin creates nothing
and asserts that the first is spent. -/
def LeadPays (sdk : Sdk) (coinSpends : List CoinSpend) (created : Pairs) (fee : UInt64) : Prop :=
  ∃ lead rest conditions, coinSpends = lead :: rest ∧ RunsTo sdk lead conditions ∧
    createdPairs conditions = created ∧ reserved conditions = fee.toNat ∧
    ∀ spend ∈ rest, RunsTo sdk spend [.assertConcurrentSpend (sdk.coinId lead.coin)]

namespace BuildRequest

/-- The four requests that move XCH alone. -/
def Xch : BuildRequest → Prop
  | sendXch _ | multiSendXch _ | combineXch _ | splitXch _ => True
  | sendCat _ | multiSendCat _ => False

/-- The coins a request asks for, and whether it may leave change: one coin per leg, one coin for a
combine, `parts` coins for a split. -/
def Asks (sdk : Sdk) (changePh : Bytes32) (legs : Pairs) (change : UInt64) : BuildRequest → Prop
  | sendXch r => ∃ puzzleHash, sdk.decodeAddress r.toAddress.text = .ok puzzleHash ∧
      legs = [(puzzleHash, r.amount.mojos)]
  | multiSendXch r => List.Forall₂ (fun (leg : SendLeg) (pair : Bytes32 × UInt64) =>
      sdk.decodeAddress leg.toAddress.text = .ok pair.1 ∧ leg.amount.mojos = pair.2) r.legs legs
  | combineXch _ => (∃ merged, legs = [(changePh, merged)]) ∧ change = 0
  | splitXch r => legs.length = r.parts.toNat ∧ (∀ leg ∈ legs, leg.1 = changePh) ∧ change = 0
  | sendCat _ | multiSendCat _ => False

end BuildRequest

/-- The coins a build spends. -/
def UnsignedSpend.coins (unsigned : UnsignedSpend) : List Coin :=
  unsigned.coinSpends.map CoinSpend.coin

/-- The build pays exactly the request from `coins`. -/
structure PaysRequest (sdk : Sdk) (builder : SdkSpendBuilder) (request : BuildRequest)
    (coins : List Coin) (unsigned : UnsignedSpend) : Prop where
  distinct : (unsigned.coins.map sdk.coinId).Nodup
  members : unsigned.coins ⊆ coins
  pays : ∃ changePh legs change,
    builder.inputs.changePuzzleHash request.identity = .ok changePh ∧
    request.Asks sdk changePh legs change ∧
    LeadPays sdk unsigned.coinSpends (legs ++ changePairs changePh change) request.fee ∧
    total (coinAmounts unsigned.coins) =
      pairsTotal (legs ++ changePairs changePh change) + request.fee.toNat
  summary : unsigned.summary = request.summary

section PaysRequest

variable {sdk : Sdk} {drivers : SpendDrivers} {wrap : CatInfo → Bytes32 → Bytes32}
  {overflowChecks : Bool} {builder : SdkSpendBuilder} {coins : List Coin}

/-! ## The plan, emitted -/

theorem runsTo_of_emitted (hdrivers : drivers.Emit sdk wrap) {coin : Coin}
    {conditions : List Condition} {spend : CoinSpend}
    (h : Emitted sdk drivers wrap builder.inputs (.standard coin conditions) spend) :
    RunsTo sdk spend conditions := by
  cases h with
  | standard hkey hspend =>
    obtain ⟨inner, hinner, hemits⟩ := hdrivers.standard hspend
    obtain ⟨layer, -, -, hrun⟩ := (hdrivers.inner hinner).signs
    exact ⟨inner.puzzle, inner.solution, _, hemits.reveal, hemits.solution, hrun⟩

theorem coins_of_emitted (hdrivers : drivers.Emit sdk wrap) {plan : List PlannedSpend}
    {coinSpends : List CoinSpend}
    (h : List.Forall₂ (Emitted sdk drivers wrap builder.inputs) plan coinSpends) :
    coinSpends.map CoinSpend.coin = plan.map PlannedSpend.coin :=
  map_eq_of_forall₂ (fun _ _ hemitted => hemitted.coin_eq hdrivers) h

/-- The lead coin of the plan pays, the supporting coins are bound to it. -/
theorem leadPays_of_emitted (hdrivers : drivers.Emit sdk wrap) {selected : List Coin}
    {conditions : List Condition} {created : Pairs} {fee : UInt64} {coinSpends : List CoinSpend}
    (hne : selected ≠ []) (hcarries : Carries conditions created fee.toNat)
    (h : List.Forall₂ (Emitted sdk drivers wrap builder.inputs) (xchPlan sdk selected conditions)
      coinSpends) : LeadPays sdk coinSpends created fee := by
  cases selected with
  | nil => exact absurd rfl hne
  | cons lead supporting =>
    cases h with
    | @cons _ leadSpend _ rest hlead hrest =>
      have hcoin : leadSpend.coin = lead := hlead.coin_eq hdrivers
      refine ⟨leadSpend, rest, conditions, rfl, runsTo_of_emitted hdrivers hlead, hcarries.created,
        hcarries.reserved, ?_⟩
      intro spend hspend
      obtain ⟨planned, hplanned, hemitted⟩ := exists_mem_left hrest hspend
      obtain ⟨coin, -, rfl⟩ := List.mem_map.mp hplanned
      rw [hcoin]
      exact runsTo_of_emitted hdrivers hemitted

/-- An XCH plan over distinct coins whose amounts balance pays its request. -/
theorem paysRequest_of_planned (hdrivers : drivers.Emit sdk wrap) {request : BuildRequest}
    {unsigned : UnsignedSpend} {selected : List Coin} {conditions : List Condition}
    (hplanned : Planned sdk drivers wrap overflowChecks builder request unsigned
      (xchPlan sdk selected conditions))
    (hne : selected ≠ []) (hdistinct : (selected.map sdk.coinId).Nodup) (hmembers : selected ⊆ coins)
    {changePh : Bytes32} {legs : Pairs} {change : UInt64}
    (hchangePh : builder.inputs.changePuzzleHash request.identity = .ok changePh)
    (hasks : request.Asks sdk changePh legs change)
    (hcarries : Carries conditions (legs ++ changePairs changePh change) request.fee.toNat)
    (hbalance : total (coinAmounts selected) =
      pairsTotal legs + change.toNat + request.fee.toNat) :
    PaysRequest sdk builder request coins unsigned := by
  have hspent : unsigned.coins = selected :=
    (coins_of_emitted hdrivers hplanned.emitted).trans (PlanLeg.xchPlan sdk hne hcarries).coins_eq
  refine ⟨?_, ?_, ⟨changePh, legs, change, hchangePh, hasks,
    leadPays_of_emitted hdrivers hne hcarries hplanned.emitted, ?_⟩, hplanned.summary_eq⟩
  · rw [hspent]
    exact hdistinct
  · rw [hspent]
    exact hmembers
  · rw [hspent, hbalance, pairsTotal_append, pairsTotal_changePairs]

/-! ## The builders -/

theorem nodup_take_ordered (hids : (coins.map sdk.coinId).Nodup) (k : ℕ) :
    (((orderedHighValueFirst sdk coins).take k).map sdk.coinId).Nodup := by
  rw [List.map_take]
  exact (nodup_ordered hids).sublist (List.take_sublist _ _)

theorem take_ordered_subset (k : ℕ) : (orderedHighValueFirst sdk coins).take k ⊆ coins :=
  fun _ hcoin => (orderedHighValueFirst_perm sdk coins).subset (List.mem_of_mem_take hcoin)

variable {request : BuildRequest} {unsigned : UnsignedSpend} {plan : List PlannedSpend}
  (hdrivers : drivers.Emit sdk wrap)
  (hcoins : builder.inputs.spendableXch request.identity = .ok coins)
  (hids : (coins.map sdk.coinId).Nodup) (hfits : total (coinAmounts coins) < 2 ^ 64)
  (hplanned : Planned sdk drivers wrap overflowChecks builder request unsigned plan)
include hdrivers hcoins hids hfits hplanned

/-- A payment: the legs, then the change. -/
theorem paysRequest_of_payXch {pays : Pairs} {target : UInt64}
    (hplan : builder.payXch sdk drivers overflowChecks request.identity pays target request.fee =
      some plan)
    (htarget : target.toNat = pairsTotal pays + request.fee.toNat) (hpos : 0 < target)
    (hasks : ∀ changePh change, request.Asks sdk changePh pays change) :
    PaysRequest sdk builder request coins unsigned := by
  obtain ⟨changePh, coins', selected, change, paid, hchangePh, hcoins', hselects, hpaid, rfl⟩ :=
    payXch_eq_some hplan
  obtain rfl := Except.ok.inj (hcoins.symm.trans hcoins')
  obtain ⟨sum, hselects, hchange⟩ := selects_eq_some hselects
  have hcarries := Carries.paid hpaid changePh change request.fee
  have hexact : total (coinAmounts selected) < 2 ^ 64 := by
    have hle := total_take_ordered_le sdk coins selected.length
    rw [← hselects.eq_take] at hle
    omega
  have hdistinct : (selected.map sdk.coinId).Nodup := by
    rw [hselects.eq_take]
    exact nodup_take_ordered hids _
  refine paysRequest_of_planned hdrivers hplanned (hselects.ne_nil hpos) hdistinct hselects.subset
    hchangePh (hasks changePh change) hcarries ?_
  rw [hselects.total_eq hchange hexact, htarget]
  omega

theorem paysRequest_of_combine {r : CombineXchRequest} (hrequest : request = .combineXch r) :
    PaysRequest sdk builder request coins unsigned := by
  subst hrequest
  obtain ⟨changePh, coins', selected, sum, hchangePh, hcoins', hselected, hne, hsum, hcovers, rfl⟩ :=
    combinePlan_eq_some hplanned.plan_eq
  obtain rfl := Except.ok.inj (hcoins.symm.trans hcoins')
  have hcarries := Carries.merged changePh (sum - r.fee.mojos) r.fee.mojos
  have hexact : total (coinAmounts selected) < 2 ^ 64 := by
    have hle := total_take_ordered_le sdk coins (max builder.coinCap 2)
    rw [← hselected] at hle
    omega
  have hdistinct : (selected.map sdk.coinId).Nodup := by
    rw [hselected]
    exact nodup_take_ordered hids _
  have hmembers : selected ⊆ coins := by
    rw [hselected]
    exact take_ordered_subset _
  refine paysRequest_of_planned hdrivers hplanned hne hdistinct hmembers hchangePh
    ⟨⟨sum - r.fee.mojos, rfl⟩, rfl⟩ hcarries ?_
  rw [← toNat_of_sumU64 hsum hexact, ← toNat_sub_add hcovers, pairsTotal_single]
  rfl

omit hids hfits in
theorem paysRequest_of_split {r : SplitXchRequest} (hrequest : request = .splitXch r) :
    PaysRequest sdk builder request coins unsigned := by
  subst hrequest
  obtain ⟨changePh, coins', selected, amounts, hchangePh, hcoins', hselected, hcovers, hstaggered,
    rfl⟩ := splitPlan_eq_some hplanned.plan_eq
  obtain rfl := Except.ok.inj (hcoins.symm.trans hcoins')
  have hcarries := Carries.spread changePh amounts r.fee.mojos
  have hlength : (amounts.map fun amount => (changePh, amount)).length = r.parts.toNat := by
    rw [List.length_map, length_of_staggeredAmounts hstaggered, UInt32.toNat_toUInt64]
  have hhome : ∀ leg ∈ amounts.map fun amount => (changePh, amount), leg.1 = changePh := by
    intro leg hleg
    obtain ⟨amount, -, rfl⟩ := List.mem_map.mp hleg
    rfl
  have hmembers : [selected] ⊆ coins := List.cons_subset.mpr ⟨hselected, List.nil_subset _⟩
  refine paysRequest_of_planned hdrivers hplanned (List.cons_ne_nil selected [])
    (List.nodup_singleton _) hmembers hchangePh ⟨hlength, hhome, rfl⟩ ?_ ?_
  · exact (List.append_nil _).symm ▸ hcarries
  · rw [pairsTotal_spread, total_of_staggeredAmounts hstaggered]
    have hsplit := toNat_sub_add hcovers
    rw [coinAmounts_cons, coinAmounts_nil, total_cons, total_nil]
    show selected.amount.toNat + 0 = _ + 0 + r.fee.mojos.toNat
    omega

end PaysRequest

/-- **The XCH builders pay exactly the request.** -/
theorem built_pays_request (sdk : Sdk) (drivers : SpendDrivers)
    (wrap : CatInfo → Bytes32 → Bytes32) (hdrivers : drivers.Emit sdk wrap) (overflowChecks : Bool)
    (builder : SdkSpendBuilder) (request : BuildRequest) (hxch : request.Xch) (coins : List Coin)
    (hcoins : builder.inputs.spendableXch request.identity = .ok coins)
    (hids : (coins.map sdk.coinId).Nodup) (hfits : total (coinAmounts coins) < 2 ^ 64)
    (unsigned : UnsignedSpend)
    (hbuilt : builder.build sdk drivers overflowChecks request = .ok unsigned) :
    PaysRequest sdk builder request coins unsigned := by
  obtain ⟨plan, hplanned⟩ := build_planned hdrivers hbuilt
  have hplan := hplanned.plan_eq
  cases request with
  | sendCat r => exact absurd hxch id
  | multiSendCat r => exact absurd hxch id
  | combineXch r => exact paysRequest_of_combine hdrivers hcoins hids hfits hplanned rfl
  | splitXch r => exact paysRequest_of_split hdrivers hcoins hplanned rfl
  | sendXch r =>
    obtain ⟨target, destination, htarget, hdestination, hplan⟩ := sendXchPlan_eq_some hplan
    obtain ⟨hsum, hpos⟩ := toNat_of_checkedTarget htarget
    refine paysRequest_of_payXch hdrivers hcoins hids hfits hplanned hplan ?_ hpos ?_
    · rw [pairsTotal_single]
      exact hsum
    · intro changePh change
      exact ⟨destination, decodeAddress_eq_ok.mp hdestination, rfl⟩
  | multiSendXch r =>
    obtain ⟨destinations, payout, target, hdestinations, hpayout, htarget, hplan⟩ :=
      multiSendXchPlan_eq_some hplan
    have hpos := target_pos_of_resolveLegs hdestinations hpayout htarget
    refine paysRequest_of_payXch hdrivers hcoins hids hfits hplanned hplan ?_ hpos ?_
    · rw [pairsTotal_of_resolveLegs hdestinations, ← toNat_of_totalOf hpayout]
      exact toNat_of_checkedAdd htarget
    · intro changePh change
      exact (resolveLegs_eq_ok hdestinations).1.imp fun leg pair hleg => ⟨hleg.1, hleg.2.1⟩

open Sim in
/-- 60 mojos and a fee of 5, from coins of 40 and 50: one of them supports the other. -/
theorem two_coins_pay :
    let coins := [xchCoin 1 40, xchCoin 2 50]
    let request := BuildRequest.sendXch ⟨identity, addressOf (.rep 0x42), ⟨60⟩, ⟨5⟩⟩
    ∃ unsigned, unsigned.coinSpends.length = 2 ∧
      PaysRequest sim (builder coins []) request coins unsigned := by
  intro coins request
  have htwo : ((builder coins []).build sim spendDrivers true request).toOption.any
      (fun unsigned => unsigned.coinSpends.length == 2) = true := by decide +kernel
  obtain ⟨unsigned, hbuilt, hlength⟩ := (Option.any_eq_true _ _).mp htwo
  exact ⟨unsigned, by simpa using hlength, built_pays_request sim spendDrivers wrap spendDrivers_emit
    true (builder coins []) request trivial coins rfl (by decide +kernel) (by decide) unsigned
    (toOption_eq_some.mp hbuilt)⟩

end DigWallet
