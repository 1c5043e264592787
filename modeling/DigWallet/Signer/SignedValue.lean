import DigWallet.Signer.Review
import DigWallet.Verify.Signed

/-!
# DigWallet.Signer.SignedValue — what the signed legs alone give up

Conservation is checked over the whole bundle; a signature fixes only the legs that carry an
`AGG_SIG_ME`.  `signedLegs_bounded_iff`: the signed legs give up at most the reviewed fee exactly
when the unsigned legs create no more than the coins they spend.
-/

namespace DigWallet

section

variable {sdk : Sdk}

/-- The legs a signature fixes. -/
def signedLegs (legs : List (Coin × Leg sdk)) : List (Coin × Leg sdk) :=
  legs.filter fun p => p.2.carriesAggSigMe

/-- The legs anybody can drop or re-solve. -/
def unsignedLegs (legs : List (Coin × Leg sdk)) : List (Coin × Leg sdk) :=
  legs.filter fun p => !p.2.carriesAggSigMe

/-! ## The reviewed fee -/

/-- The gate accepts only the fee `analyze` derives. -/
theorem fee_of_verifyBeforeSigning {signer : LocalSigner} {unsigned : UnsignedSpend}
    (h : verifyBeforeSigning sdk signer unsigned = .ok ()) :
    ∃ effect, Accepts sdk unsigned.coinSpends effect ∧ unsigned.summary.fee.mojos = effect.fee := by
  obtain ⟨effect, heffect, hmatch⟩ := verifyBeforeSigning_eq_ok.mp h
  exact ⟨effect, (analyze_eq_ok sdk).mp heffect, (assertReviewedSummaryMatches_eq_ok.mp hmatch).1⟩

end

/-- **Signed value.** -/
theorem signedLegs_bounded_iff (sdk : Sdk) (signer : LocalSigner) (unsigned : UnsignedSpend)
    (h : verifyBeforeSigning sdk signer unsigned = .ok ()) :
    (amountIn none (signedLegs (legs sdk unsigned.coinSpends)) ≤
        amountOut none (signedLegs (legs sdk unsigned.coinSpends)) +
          unsigned.summary.fee.mojos.toNat ∧
      ∀ asset, amountIn (some asset) (signedLegs (legs sdk unsigned.coinSpends)) ≤
        amountOut (some asset) (signedLegs (legs sdk unsigned.coinSpends))) ↔
    ∀ asset?, amountOut asset? (unsignedLegs (legs sdk unsigned.coinSpends)) ≤
      amountIn asset? (unsignedLegs (legs sdk unsigned.coinSpends)) := by
  obtain ⟨effect, haccepts, hfee⟩ := fee_of_verifyBeforeSigning h
  have hin : ∀ asset?, amountIn asset? (legs sdk unsigned.coinSpends) =
      amountIn asset? (signedLegs (legs sdk unsigned.coinSpends)) +
        amountIn asset? (unsignedLegs (legs sdk unsigned.coinSpends)) :=
    fun asset? => amountIn_split asset? _ fun p => p.2.carriesAggSigMe
  have hout : ∀ asset?, amountOut asset? (legs sdk unsigned.coinSpends) =
      amountOut asset? (signedLegs (legs sdk unsigned.coinSpends)) +
        amountOut asset? (unsignedLegs (legs sdk unsigned.coinSpends)) :=
    fun asset? => amountOut_split asset? _ fun p => p.2.carriesAggSigMe
  have hxch := haccepts.xch_conserved
  have hcat := haccepts.cat_conserved
  rw [hin, hout] at hxch
  rw [hfee]
  constructor
  · rintro ⟨hsigned, hsignedCat⟩ asset?
    cases asset? with
    | none => omega
    | some asset =>
      have hconserved := hcat asset
      have hbound := hsignedCat asset
      rw [hin, hout] at hconserved
      omega
  · intro hunsigned
    refine ⟨?_, fun asset => ?_⟩
    · have hbound := hunsigned none
      omega
    · have hconserved := hcat asset
      have hbound := hunsigned (some asset)
      rw [hin, hout] at hconserved
      omega

section Witness

open Sim

/-- A send and a settlement coin that pays the wallet, under their own review. -/
def reviewedSend : UnsignedSpend where
  coinSpends := sendBundle ++ [spendOf (.rep 2) settlementPuzzle 40 (list [payment home 40])]
  requiredSignatures := []
  summary := ⟨[⟨⟨encodeAddress (.rep 7) "xch"⟩, ⟨60⟩, none⟩], [], ⟨10⟩, [], []⟩

/-- The wallet's coin of 100 creates nothing; a settlement coin of 0 pays the wallet 100. -/
def phantomChange : UnsignedSpend where
  coinSpends := [spendOf (.rep 1) (standardPuzzle walletKey) 100 (signing []),
    spendOf (.rep 2) settlementPuzzle 0 (list [payment home 100])]
  requiredSignatures := []
  summary := ⟨[], [], ⟨0⟩, [], []⟩

set_option maxRecDepth 8000 in
theorem verifyBeforeSigning_reviewedSend : verifyBeforeSigning sim wallet reviewedSend = .ok () := rfl

set_option maxRecDepth 8000 in
theorem verifyBeforeSigning_phantomChange : verifyBeforeSigning sim wallet phantomChange = .ok () :=
  rfl

set_option maxRecDepth 8000 in
theorem signedLegs_bounded_iff_reviewedSend :
    (unsignedLegs (legs sim reviewedSend.coinSpends)).length = 1 ∧
      amountIn none (signedLegs (legs sim reviewedSend.coinSpends)) ≤
        amountOut none (signedLegs (legs sim reviewedSend.coinSpends)) + 10 := by
  refine ⟨rfl, ?_⟩
  refine ((signedLegs_bounded_iff sim wallet reviewedSend verifyBeforeSigning_reviewedSend).mpr ?_).1
  intro asset?
  cases asset? with
  | none => decide +kernel
  | some asset => exact Nat.le_refl 0

/-- The gate accepts a bundle whose signed coin gives up 100 beyond the reviewed fee of 0. -/
theorem signedLegs_unbounded : ¬ ∀ (sdk : Sdk) (signer : LocalSigner) (unsigned : UnsignedSpend),
    verifyBeforeSigning sdk signer unsigned = .ok () →
      amountIn none (signedLegs (legs sdk unsigned.coinSpends)) ≤
        amountOut none (signedLegs (legs sdk unsigned.coinSpends)) +
          unsigned.summary.fee.mojos.toNat ∧
      ∀ asset, amountIn (some asset) (signedLegs (legs sdk unsigned.coinSpends)) ≤
        amountOut (some asset) (signedLegs (legs sdk unsigned.coinSpends)) := by
  intro hall
  have hbound := (hall sim wallet phantomChange verifyBeforeSigning_phantomChange).1
  revert hbound
  decide +kernel

end Witness

end DigWallet
