import DigWallet.Engine.BuildExtended
import DigWallet.Lib.Text
import DigWallet.Verify.Posting

/-!
# DigWallet.Engine.Refusals — the errors a send returns

`refusedWith_buildSendXch`, `refusedWith_buildSendCat`, `refusedWith_buildMultiSendCat`: an error of a
send is an error of its inputs, a shortage of coins, or a failed spend.
-/

namespace DigWallet

open Faults Totals Text SdkSpendBuilder

/-! ## The helpers refuse -/

section Helpers

variable {α β : Type}

theorem Refuses.mapM {f : α → WalletResult β} (hf : ∀ a, Refuses (f a)) (l : List α) :
    Refuses (l.mapM f) := ErrorsIn.mapM hf l

theorem refuses_orSpendFailed (what : String) (c : Except String α) :
    Refuses (orSpendFailed what c) := by
  cases c with
  | ok a => exact refuses_ok a
  | error e =>
    rintro e' ⟨⟩
    rfl

theorem refuses_spendFailed (message : String) :
    Refuses (.error (spendFailed message) : WalletResult α) := by
  rintro e ⟨⟩
  rfl

variable {sdk : Sdk} {drivers : SpendDrivers} {builder : SdkSpendBuilder}

theorem refuses_hintedCreateCoin (puzzleHash : Bytes32) (amount : UInt64) :
    Refuses (hintedCreateCoin drivers puzzleHash amount) :=
  (refuses_orSpendFailed _ _).bind fun _ => refuses_ok _

theorem refuses_spendStandard (ctx : List CoinSpend) (coin : Coin) (conditions : List Condition) :
    Refuses (builder.spendStandard drivers ctx coin conditions) := by
  refine Refuses.bind ?_ fun key => (refuses_orSpendFailed _ _).bind fun _ => refuses_ok _
  unfold keyFor
  cases builder.inputs.syntheticKey coin.puzzleHash with
  | some key => exact refuses_ok key
  | none => exact refuses_spendFailed _

theorem refuses_linkSupportingCoins (ctx : List CoinSpend) (coins : List Coin) :
    Refuses (builder.linkSupportingCoins sdk drivers ctx coins) := by
  cases coins with
  | nil => exact refuses_ok ctx
  | cons lead supporting =>
    exact Refuses.foldlM (fun ctx coin => refuses_spendStandard ctx coin _) supporting ctx

theorem refuses_assertConserved (inputs outputs fee : UInt64) :
    Refuses (assertConserved inputs outputs fee) := by
  unfold assertConserved
  split
  · exact refuses_spendFailed _
  · split_ifs
    · exact refuses_spendFailed _
    · exact refuses_ok ()

theorem refuses_finish (coinSpends : List CoinSpend) (summary : TransactionSummary) :
    Refuses (builder.finish sdk drivers coinSpends summary) := by
  have hrequired : Refuses (builder.requiredSignatures sdk drivers coinSpends) := by
    refine (refuses_orSpendFailed _ _).bind fun extracted => Refuses.mapM (fun required => ?_) _
    cases required with
    | bls _ _ _ => exact refuses_ok _
    | secp => exact refuses_spendFailed _
  refine hrequired.bind fun required => Refuses.bind ?_ fun _ => refuses_ok _
  unfold ensureSignedOffline
  split_ifs
  · exact refuses_spendFailed _
  · exact refuses_spendFailed _
  · exact refuses_ok ()

theorem refuses_catRing {cats : List Cat} {conditions : WalletResult (List Condition)}
    (h : Refuses conditions) : Refuses (builder.catRing drivers cats conditions) := by
  have hinner : ∀ {conditions}, Refuses conditions → ∀ cat,
      Refuses (builder.catInnerSpend drivers cat conditions) := by
    intro conditions h cat
    refine Refuses.bind ?_ fun key => h.bind fun _ => (refuses_orSpendFailed _ _).bind fun _ => refuses_ok _
    unfold catKey
    cases builder.inputs.syntheticKey cat.info.p2PuzzleHash with
    | some key => exact refuses_ok key
    | none => exact refuses_spendFailed _
  cases cats with
  | nil => exact refuses_ok []
  | cons lead rest =>
    exact (hinner h lead).bind fun _ =>
      (Refuses.mapM (hinner (refuses_ok [])) rest).bind fun _ => refuses_ok _

/-! ## The checks of a request blame its input -/

/-- An error that blames the request. -/
def BlamesInput (e : WalletError) : Prop := e.code = .invalidInput

theorem blames_decodeAddress (address : Address) :
    ErrorsIn BlamesInput (decodeAddress sdk address) := by
  unfold decodeAddress
  cases sdk.decodeAddress address.text with
  | ok decoded => exact errorsIn_ok decoded
  | error e => exact errorsIn_error rfl

theorem blames_resolveLegs (legs : List SendLeg) : ErrorsIn BlamesInput (resolveLegs sdk legs) := by
  unfold resolveLegs
  split_ifs
  · exact errorsIn_error rfl
  · refine ErrorsIn.mapM (fun leg => ?_) legs
    unfold resolveLeg
    split_ifs
    · exact errorsIn_error rfl
    · exact (blames_decodeAddress leg.toAddress).bind fun _ => errorsIn_ok _

theorem blames_totalOf (legs : List SendLeg) : ErrorsIn BlamesInput (totalOf legs) := by
  refine ErrorsIn.foldlM (fun sum leg => ?_) legs 0
  cases checkedAdd sum leg.amount.mojos with
  | some sum' => exact errorsIn_ok sum'
  | none => exact errorsIn_error rfl

/-- Induction on the coins, the ids seen generalized. -/
theorem blames_ensureDistinctFrom (parent : Bytes32) (seen : List Bytes32)
    (created : List (Bytes32 × UInt64)) :
    ErrorsIn BlamesInput (ensureDistinctFrom sdk parent seen created) := by
  induction created generalizing seen with
  | nil => exact errorsIn_ok ()
  | cons pair created ih =>
    rw [ensureDistinctFrom]
    split_ifs
    · exact errorsIn_error rfl
    · exact ih _

end Helpers

/-! ## Shortages -/

/-- The refusal of a selection that would need more coins than the cap. -/
def needsConsolidation (asset : String) (availableTotal required : UInt64) (cap : ℕ) : WalletError :=
  insufficientFunds (s!"{asset} needs consolidation: {availableTotal} " ++
    s!"available across too many coins to reach {required} within the {cap}-coin cap")

/-- The refusal of a selection that the coins do not cover. -/
def shortOf (asset : String) (availableTotal required : UInt64) : WalletError :=
  insufficientFunds s!"insufficient {asset}: have {availableTotal}, need {required}"

theorem toString_text (text : String) : toString text = text := rfl

theorem toList_toString_nat (n : ℕ) : (toString n).toList = Nat.toDigits 10 n := by
  rw [Nat.toString_eq_repr, Nat.toList_repr]

theorem toList_toString_u64 (n : UInt64) : (toString n).toList = Nat.toDigits 10 n.toNat :=
  toList_toString_nat n.toNat

/-- The message ends in three numbers, each after a blank. -/
theorem toList_needsConsolidation (asset : String) (available required : UInt64) (cap : ℕ) :
    (needsConsolidation asset available required cap).message.toList =
      ((((((asset.toList ++ " needs consolidation:".toList) ++
        ' ' :: Nat.toDigits 10 available.toNat) ++
        " available across too many coins to reach".toList) ++
        ' ' :: Nat.toDigits 10 required.toNat) ++ " within the".toList) ++
        ' ' :: Nat.toDigits 10 cap) ++ "-coin cap".toList := by
  simp [needsConsolidation, insufficientFunds, toString_text, toList_toString_u64]

/-- The report names its asset. -/
theorem asset_eq_of_needsConsolidation {asset asset' : String} {available required : UInt64}
    {cap : ℕ} {available' required' : UInt64} {cap' : ℕ}
    (h : needsConsolidation asset available required cap =
      needsConsolidation asset' available' required' cap') : asset = asset' := by
  have htext := congrArg (fun e => e.message.toList) h
  simp only [toList_needsConsolidation] at htext
  have hcap := digits_suffix_inj (by decide) (List.append_cancel_right htext)
  have hrequired := digits_suffix_inj (by decide) (List.append_cancel_right hcap)
  have havailable := digits_suffix_inj (by decide) (List.append_cancel_right hrequired)
  exact String.toList_injective (List.append_cancel_right havailable)

/-- A shortage is no report. -/
theorem shortOf_ne_needsConsolidation (asset asset' : String) (available required : UInt64)
    (available' required' : UInt64) (cap : ℕ) :
    shortOf asset available required ≠ needsConsolidation asset' available' required' cap := by
  intro h
  have htext := congrArg (fun e => e.message.toList) h
  simp only [toList_needsConsolidation] at htext
  have hshort : (shortOf asset available required).message.toList =
      ("insufficient " ++ asset ++ ": have " ++ toString available ++ ", need ").toList ++
        Nat.toDigits 10 required.toNat := by
    simp [shortOf, insufficientFunds, toString_text, toList_toString_u64]
  have hend : "-coin cap".toList = "-coin ca".toList ++ ['p'] := rfl
  rw [hshort, hend, ← List.append_assoc] at htext
  exact append_digits_ne (by decide) _ _ _ htext

section Sends

variable {sdk : Sdk} {drivers : SpendDrivers} {overflowChecks : Bool} {builder : SdkSpendBuilder}
  {P : WalletError → Prop}

theorem refusedWith_selectOrFail {coins : List Coin} {target : UInt64} {cap : ℕ} {asset : String}
    (hneeds : ∀ available required cap, P (needsConsolidation asset available required cap))
    (hshort : ∀ available required, P (shortOf asset available required)) :
    RefusedWith P (selectOrFail sdk overflowChecks coins target cap asset) := by
  refine (refusedWith_orPanic _).bind fun outcome => ?_
  cases outcome with
  | selected coins _ _ => exact refusedWith_ok coins
  | needsConsolidation _ available required cap =>
    rintro e ⟨⟩
    exact hneeds available required cap
  | insufficientFunds available required =>
    rintro e ⟨⟩
    exact hshort available required

variable (hspend : ∀ e, IsRefusal e → P e)
include hspend

theorem Refuses.refusedWith {α : Type} {r : WalletResult α} (h : Refuses r) :
    RefusedWith P (ofResult r) :=
  refusedWith_ofResult fun e he => hspend e (h e he)

theorem refusedWith_buildSendXch {r : SendXchRequest}
    (htarget : RefusedWith P (ofResult (checkedTarget r.amount.mojos r.fee.mojos)))
    (hdestination : RefusedWith P (ofResult (decodeAddress sdk r.toAddress)))
    (hchangePh : RefusedWith P (ofResult (builder.inputs.changePuzzleHash r.identity)))
    (hcoins : RefusedWith P (ofResult (builder.inputs.spendableXch r.identity)))
    (hneeds : ∀ available required cap, P (needsConsolidation "XCH" available required cap))
    (hshort : ∀ available required, P (shortOf "XCH" available required)) :
    RefusedWith P (builder.buildSendXch sdk drivers overflowChecks r) :=
  htarget.bind fun _ => hdestination.bind fun _ => hchangePh.bind fun _ => hcoins.bind fun _ =>
    (refusedWith_selectOrFail hneeds hshort).bind fun _ => (refusedWith_orPanic _).bind fun _ =>
    (refusedWith_orPanic _).bind fun _ =>
    ((refuses_hintedCreateCoin _ _).refusedWith hspend).bind fun _ =>
    (refusedWith_orPanic _).bind fun _ =>
    ((refuses_spendStandard _ _ _).refusedWith hspend).bind fun _ =>
    ((refuses_linkSupportingCoins _ _).refusedWith hspend).bind fun _ =>
    (refusedWith_orPanic _).bind fun _ =>
    ((refuses_assertConserved _ _ _).refusedWith hspend).bind fun _ =>
    (refuses_finish _ _).refusedWith hspend

section Cat

variable {identity : IdentityRef} {fee : UInt64}
  (hxch : 0 < fee → RefusedWith P (ofResult (builder.inputs.spendableXch identity)))
  (hneeds : ∀ available required cap, P (needsConsolidation "XCH (fee)" available required cap))
  (hshort : ∀ available required, P (shortOf "XCH (fee)" available required))
include hxch hneeds hshort

/-- The fee leg of a CAT send, and the end of the build. -/
theorem refusedWith_addCatFee (ctx : List CoinSpend) (changePh : Bytes32) (cats : List Cat) :
    RefusedWith P
      (builder.addCatFee sdk drivers overflowChecks ctx identity fee changePh cats) := by
  unfold addCatFee
  by_cases hpos : 0 < fee
  · rw [if_pos hpos]
    exact (refusedWith_orPanic _).bind fun _ => (hxch hpos).bind fun _ =>
      (refusedWith_selectOrFail hneeds hshort).bind fun _ => (refusedWith_orPanic _).bind fun _ =>
      (refusedWith_orPanic _).bind fun _ => (refusedWith_orPanic _).bind fun _ =>
      ((refuses_spendStandard _ _ _).refusedWith hspend).bind fun _ =>
      (refuses_linkSupportingCoins _ _).refusedWith hspend
  · rw [if_neg hpos]
    exact refusedWith_ok ctx

end Cat

theorem refusedWith_buildSendCat {r : SendCatRequest}
    (hamount : RefusedWith P (refuseIf (r.amount.mojos = 0)
      (invalidInput "a CAT send must move a non-zero amount")))
    (hdestination : RefusedWith P (ofResult (decodeAddress sdk r.toAddress)))
    (hchangePh : RefusedWith P (ofResult (builder.inputs.changePuzzleHash r.identity)))
    (hcats : RefusedWith P (ofResult (builder.inputs.spendableCat r.identity r.assetId)))
    (hnone : P (insufficientFunds ("no spendable " ++ r.assetId.text ++ " coins")))
    (hfunds : ∀ catTotal, P (shortOf "CAT" catTotal r.amount.mojos))
    (hxch : 0 < r.fee.mojos → RefusedWith P (ofResult (builder.inputs.spendableXch r.identity)))
    (hneeds : ∀ available required cap, P (needsConsolidation "XCH (fee)" available required cap))
    (hshort : ∀ available required, P (shortOf "XCH (fee)" available required)) :
    RefusedWith P (builder.buildSendCat sdk drivers overflowChecks r) := by
  have hring : ∀ destination changePh cats catChange, Refuses
      (builder.buildCatInnerSpends drivers cats destination r.amount.mojos changePh catChange) :=
    fun _ _ _ _ => refuses_catRing ((refuses_hintedCreateCoin _ _).bind fun _ => refuses_ok _)
  exact hamount.bind fun _ => hdestination.bind fun _ => hchangePh.bind fun _ => hcats.bind fun _ =>
    (refusedWith_refuseIf _ hnone).bind fun _ => (refusedWith_orPanic _).bind fun catTotal =>
    (refusedWith_refuseIf _ (hfunds catTotal)).bind fun _ => (refusedWith_orPanic _).bind fun _ =>
    ((hring _ _ _ _).refusedWith hspend).bind fun _ =>
    ((refuses_orSpendFailed _ _).refusedWith hspend).bind fun _ =>
    (refusedWith_addCatFee hspend hxch hneeds hshort _ _ _).bind fun _ =>
    (refuses_finish _ _).refusedWith hspend

theorem refusedWith_buildMultiSendCat {r : MultiSendCatRequest}
    (hlegs : RefusedWith P (ofResult (resolveLegs sdk r.legs)))
    (hpayout : RefusedWith P (ofResult (totalOf r.legs)))
    (hchangePh : RefusedWith P (ofResult (builder.inputs.changePuzzleHash r.identity)))
    (hcats : RefusedWith P (ofResult (builder.inputs.spendableCat r.identity r.assetId)))
    (hfunds : ∀ catTotal payout, P (shortOf r.assetId.text catTotal payout))
    (hdistinct : ∀ parent created,
      RefusedWith P (ofResult (ensureDistinctCreatedCoins sdk parent created)))
    (hxch : 0 < r.fee.mojos → RefusedWith P (ofResult (builder.inputs.spendableXch r.identity)))
    (hneeds : ∀ available required cap, P (needsConsolidation "XCH (fee)" available required cap))
    (hshort : ∀ available required, P (shortOf "XCH (fee)" available required)) :
    RefusedWith P (builder.buildMultiSendCat sdk drivers overflowChecks r) := by
  have hring : ∀ cats destinations changePh catChange, Refuses
      (builder.catRingPaying drivers cats destinations changePh catChange) :=
    fun _ destinations _ _ => refuses_catRing
      ((Refuses.mapM (fun _ => refuses_hintedCreateCoin _ _) destinations).bind fun _ => refuses_ok _)
  have htext : ∀ catTotal payout : UInt64, shortOf r.assetId.text catTotal payout = insufficientFunds
      ("insufficient " ++ r.assetId.text ++ s!": have {catTotal}, need {payout}") := by
    intro catTotal payout
    simp only [shortOf, String.append_assoc, toString]
  exact hlegs.bind fun _ => hpayout.bind fun payout => hchangePh.bind fun _ => hcats.bind fun _ =>
    (refusedWith_orPanic _).bind fun catTotal =>
    (refusedWith_refuseIf _ (htext catTotal payout ▸ hfunds catTotal payout)).bind fun _ =>
    (refusedWith_orPanic _).bind fun _ => (refusedWith_orPanic _).bind fun _ =>
    (hdistinct _ _).bind fun _ => ((hring _ _ _ _).refusedWith hspend).bind fun _ =>
    ((refuses_orSpendFailed _ _).refusedWith hspend).bind fun _ =>
    (refusedWith_addCatFee hspend hxch hneeds hshort _ _ _).bind fun _ =>
    (refusedWith_orPanic _).bind fun _ =>
    ((refuses_assertConserved _ _ _).refusedWith hspend).bind fun _ =>
    (refuses_finish _ _).refusedWith hspend

end Sends

end DigWallet
