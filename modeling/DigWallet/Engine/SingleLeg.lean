import DigWallet.Engine.Balances
import DigWallet.SimBuild

/-!
# DigWallet.Engine.SingleLeg — a send is a multi-send of one leg

`build_multi_send_xch` and `build_multi_send_cat` check more than their single counterparts, so what
they build from one leg the single builders build too.
-/

namespace DigWallet

open Faults Totals

section SingleLeg

variable {sdk : Sdk} {drivers : SpendDrivers} {overflowChecks : Bool} {builder : SdkSpendBuilder}

/-! ## One leg -/

theorem resolveLegs_single {leg : SendLeg} {destinations : List (Bytes32 × UInt64)}
    (h : resolveLegs sdk [leg] = .ok destinations) :
    ∃ destination, decodeAddress sdk leg.toAddress = .ok destination ∧
      destinations = [(destination, leg.amount.mojos)] := by
  obtain ⟨resolved, hresolved, rfl⟩ := mapM_singleton_eq_ok.mp h
  unfold resolveLeg at hresolved
  by_cases hzero : leg.amount.mojos = 0
  · rw [if_pos hzero] at hresolved
    cases hresolved
  · rw [if_neg hzero, bind_eq_ok] at hresolved
    obtain ⟨destination, hdestination, hpair⟩ := hresolved
    cases hpair
    exact ⟨destination, hdestination, rfl⟩

theorem totalOf_single (leg : SendLeg) : totalOf [leg] = .ok leg.amount.mojos := by
  have hlt := leg.amount.mojos.toNat_lt
  have hadd : checkedAdd 0 leg.amount.mojos = some leg.amount.mojos := by
    unfold checkedAdd
    rw [UInt64.toNat_zero, Nat.zero_add, if_pos hlt, UInt64.zero_add]
  unfold totalOf
  rw [List.foldlM_cons, hadd]
  rfl

/-- A positive amount makes a target that is not refused. -/
theorem checkedTarget_of_checkedAdd {amount fee target : UInt64} (hamount : 0 < amount)
    (h : checkedAdd amount fee = some target) : checkedTarget amount fee = .ok target := by
  have hne : target ≠ 0 := by
    rintro rfl
    have hsum := toNat_of_checkedAdd h
    have hpos := UInt64.lt_iff_toNat_lt.mp hamount
    rw [UInt64.toNat_zero] at hsum hpos
    omega
  unfold checkedTarget
  rw [h]
  exact if_neg hne

/-- `build_cat_inner_spends` is `cat_ring_paying` with one destination. -/
theorem catRingPaying_single (cats : List Cat) (destination changePh : Bytes32)
    (amount catChange : UInt64) :
    builder.catRingPaying drivers cats [(destination, amount)] changePh catChange =
      builder.buildCatInnerSpends drivers cats destination amount changePh catChange := by
  unfold SdkSpendBuilder.catRingPaying SdkSpendBuilder.buildCatInnerSpends
  congr 1
  rw [List.mapM_cons, List.mapM_nil]
  dsimp only
  cases hintedCreateCoin drivers destination amount <;> rfl

/-! ## The builders -/

theorem buildSendXch_of_multi {identity : IdentityRef} {toAddress : Address} {amount fee : Amount}
    {unsigned : UnsignedSpend} (hamount : 0 < amount.mojos)
    (h : builder.buildMultiSendXch sdk drivers overflowChecks
      ⟨identity, [⟨toAddress, amount⟩], fee⟩ = .ok unsigned) :
    builder.buildSendXch sdk drivers overflowChecks ⟨identity, toAddress, amount, fee⟩ =
      .ok unsigned := by
  unfold SdkSpendBuilder.buildMultiSendXch at h
  simp only [bind_eq_ok, ofResult_eq_ok, orPanic_eq_ok] at h
  obtain ⟨destinations, hdestinations, payout, hpayout, target, htarget, changePh, hchangePh, coins,
    hcoins, selected, hselected, total, htotal, change, hchange, lead, hlead, -, -, paid, hpaid, ctx,
    hctx, coinSpends, hcoinSpends, outputs, houtputs, ⟨⟩, hconserved, hfinish⟩ := h
  obtain ⟨destination, hdestination, rfl⟩ := resolveLegs_single hdestinations
  obtain rfl : payout = amount.mojos := by
    rw [totalOf_single] at hpayout
    exact (Except.ok.inj hpayout).symm
  obtain ⟨created, hcreated, rfl⟩ := mapM_singleton_eq_ok.mp hpaid
  have htarget' := checkedTarget_of_checkedAdd hamount (okOr_eq_ok.mp htarget)
  unfold SdkSpendBuilder.buildSendXch
  simp only [bind_eq_ok, ofResult_eq_ok, orPanic_eq_ok]
  exact ⟨target, htarget', destination, hdestination, changePh, hchangePh, coins, hcoins, selected,
    hselected, total, htotal, change, hchange, created, hcreated, lead, hlead, ctx, hctx, coinSpends,
    hcoinSpends, outputs, houtputs, (), hconserved, hfinish⟩

theorem buildSendCat_of_multi {identity : IdentityRef} {assetId : AssetId} {toAddress : Address}
    {amount fee : Amount} {unsigned : UnsignedSpend} (hamount : 0 < amount.mojos)
    (h : builder.buildMultiSendCat sdk drivers overflowChecks
      ⟨identity, assetId, [⟨toAddress, amount⟩], fee⟩ = .ok unsigned) :
    builder.buildSendCat sdk drivers overflowChecks ⟨identity, assetId, toAddress, amount, fee⟩ =
      .ok unsigned := by
  unfold SdkSpendBuilder.buildMultiSendCat at h
  simp only [bind_eq_ok, ofResult_eq_ok, orPanic_eq_ok, refuseIf_eq_ok, orSpendFailed_eq_ok,
    not_or] at h
  obtain ⟨destinations, hdestinations, payout, hpayout, changePh, hchangePh, cats, hcats, catTotal,
    hcatTotal, -, ⟨hne, hfunded⟩, change, hchange, lead, hlead, -, -, ring, hring, ctx, hctx,
    coinSpends, hcoinSpends, outputs, -, -, -, hfinish⟩ := h
  obtain ⟨destination, hdestination, rfl⟩ := resolveLegs_single hdestinations
  obtain rfl : payout = amount.mojos := by
    rw [totalOf_single] at hpayout
    exact (Except.ok.inj hpayout).symm
  rw [catRingPaying_single] at hring
  have hpositive : ¬ amount.mojos = 0 := by
    intro hzero
    rw [hzero] at hamount
    exact UInt64.lt_irrefl _ hamount
  unfold SdkSpendBuilder.buildSendCat
  simp only [bind_eq_ok, ofResult_eq_ok, orPanic_eq_ok, refuseIf_eq_ok, orSpendFailed_eq_ok]
  exact ⟨(), hpositive, destination, hdestination, changePh, hchangePh, cats, hcats, (), hne,
    catTotal, hcatTotal, (), hfunded, change, hchange, ring, hring, ctx, hctx, coinSpends,
    hcoinSpends, hfinish⟩

/-- What one call returns the other returns too, and where the first fails so does the other. -/
def SucceedsWith {ε α : Type} (multi single : Except ε α) : Prop :=
  (∀ a, multi = .ok a → single = .ok a) ∧ ((∃ e, single = .error e) → ∃ e, multi = .error e)

theorem succeedsWith_of_ok {ε α : Type} {multi single : Except ε α}
    (h : ∀ a, multi = .ok a → single = .ok a) : SucceedsWith multi single := by
  refine ⟨h, ?_⟩
  rintro ⟨e, he⟩
  cases hmulti : multi with
  | error e' => exact ⟨e', rfl⟩
  | ok a =>
    rw [h a hmulti] at he
    cases he

end SingleLeg

/-- **A send is a multi-send of one leg**: what the multi-send builds the send builds, and where the
send fails so does the multi-send. -/
theorem single_send_is_one_leg (sdk : Sdk) (drivers : SpendDrivers) (overflowChecks : Bool)
    (builder : SdkSpendBuilder) (identity : IdentityRef) (toAddress : Address) (amount fee : Amount)
    (hamount : 0 < amount.mojos) :
    SucceedsWith
        (builder.buildMultiSendXch sdk drivers overflowChecks
          ⟨identity, [⟨toAddress, amount⟩], fee⟩)
        (builder.buildSendXch sdk drivers overflowChecks ⟨identity, toAddress, amount, fee⟩) ∧
      ∀ assetId, SucceedsWith
        (builder.buildMultiSendCat sdk drivers overflowChecks
          ⟨identity, assetId, [⟨toAddress, amount⟩], fee⟩)
        (builder.buildSendCat sdk drivers overflowChecks
          ⟨identity, assetId, toAddress, amount, fee⟩) :=
  ⟨succeedsWith_of_ok fun _ h => buildSendXch_of_multi hamount h,
    fun _ => succeedsWith_of_ok fun _ h => buildSendCat_of_multi hamount h⟩

open Sim in
/-- One leg of 60 with a fee of 5, in XCH and in a CAT. -/
theorem one_leg_built :
    let wallet := builder [xchCoin 1 100] [catCoin 2 100]
    let assetId : AssetId := ⟨hexEncode asset.bytes⟩
    (∃ unsigned, wallet.buildMultiSendXch sim spendDrivers true
        ⟨identity, [⟨addressOf (.rep 0x42), ⟨60⟩⟩], ⟨5⟩⟩ = .ok unsigned ∧
      wallet.buildSendXch sim spendDrivers true
        ⟨identity, addressOf (.rep 0x42), ⟨60⟩, ⟨5⟩⟩ = .ok unsigned) ∧
    ∃ unsigned, wallet.buildMultiSendCat sim spendDrivers true
        ⟨identity, assetId, [⟨addressOf (.rep 0x42), ⟨60⟩⟩], ⟨5⟩⟩ = .ok unsigned ∧
      wallet.buildSendCat sim spendDrivers true
        ⟨identity, assetId, addressOf (.rep 0x42), ⟨60⟩, ⟨5⟩⟩ = .ok unsigned := by
  intro wallet assetId
  have hxch : (wallet.buildMultiSendXch sim spendDrivers true
      ⟨identity, [⟨addressOf (.rep 0x42), ⟨60⟩⟩], ⟨5⟩⟩).toOption.isSome = true := by decide +kernel
  have hcat : (wallet.buildMultiSendCat sim spendDrivers true
      ⟨identity, assetId, [⟨addressOf (.rep 0x42), ⟨60⟩⟩], ⟨5⟩⟩).toOption.isSome = true := by
    decide +kernel
  obtain ⟨unsigned, hunsigned⟩ := Option.isSome_iff_exists.mp hxch
  obtain ⟨unsigned', hunsigned'⟩ := Option.isSome_iff_exists.mp hcat
  have hmultiXch := toOption_eq_some.mp hunsigned
  have hmultiCat := toOption_eq_some.mp hunsigned'
  obtain ⟨⟨hsendXch, -⟩, hsendCat⟩ := single_send_is_one_leg sim spendDrivers true wallet identity
    (addressOf (.rep 0x42)) ⟨60⟩ ⟨5⟩ (by decide)
  exact ⟨⟨unsigned, hmultiXch, hsendXch unsigned hmultiXch⟩,
    ⟨unsigned', hmultiCat, (hsendCat assetId).1 unsigned' hmultiCat⟩⟩

end DigWallet
