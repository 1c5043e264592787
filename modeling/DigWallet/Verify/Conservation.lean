import DigWallet.Sim
import DigWallet.Verify.Bundle

/-!
# DigWallet.Verify.Conservation — value conservation and the partition of the created coins

`analyze_exact`: in unbounded integers, an accepted bundle conserves every denomination, every coin
it creates is reported in exactly one list, and a bundle whose totals do not fit is refused.
-/

namespace DigWallet

variable {sdk : Sdk}

/-! ## Totals -/

/-- The amounts of one denomination among reported coins. -/
def reportedAmount (asset? : Option Bytes32) (outputs : List DecodedOutput) : ℕ :=
  (outputs.map fun output => if output.assetId = asset? then output.amount.toNat else 0).sum

/-- The fee the leg reserves, where its class reads reserved fees. -/
def Leg.reservedFee : Leg sdk → ℕ
  | .standardSend _ conditions => ((conditions.filterMap Condition.asReserveFee).map UInt64.toNat).sum
  | _ => 0

/-- The mojos the leg destroys. -/
def Leg.destroyed (coin : Coin) : Leg sdk → ℕ
  | .melt _ _ => coin.amount.toNat
  | _ => 0

def reservedFees (legs : List (Coin × Leg sdk)) : ℕ := (legs.map fun p => p.2.reservedFee).sum

def destroyedMojos (legs : List (Coin × Leg sdk)) : ℕ := (legs.map fun p => p.2.destroyed p.1).sum

variable (sdk) in
/-- One of the running totals exceeds `u64::MAX`. -/
def Overflows (coinSpends : List CoinSpend) : Prop :=
  (∃ asset?, UInt64.size ≤ amountIn asset? (legs sdk coinSpends)) ∨
  (∃ asset?, UInt64.size ≤ amountOut asset? (legs sdk coinSpends)) ∨
  UInt64.size ≤ reservedFees (legs sdk coinSpends) ∨
  UInt64.size ≤ destroyedMojos (legs sdk coinSpends) ∨
  (isOptionBundle sdk coinSpends = false ∧
    UInt64.size ≤ amountOut none (legs sdk coinSpends) + reservedFees (legs sdk coinSpends) +
      destroyedMojos (legs sdk coinSpends))

theorem bundleTally_fee (coinSpends : List CoinSpend) :
    (bundleTally sdk coinSpends).fee = reservedFees (legs sdk coinSpends) := by
  rw [bundleTally_nat coinSpends Tally.fee rfl Tally.add_fee fun _ => rfl, reservedFees]
  refine congrArg List.sum (List.map_congr_left fun p _ => ?_)
  rw [tally_fee]
  cases p.2 <;> rfl

theorem bundleTally_melted (coinSpends : List CoinSpend) :
    (bundleTally sdk coinSpends).melted = destroyedMojos (legs sdk coinSpends) := by
  rw [bundleTally_nat coinSpends Tally.melted rfl Tally.add_melted fun _ => rfl, destroyedMojos]
  refine congrArg List.sum (List.map_congr_left fun p _ => ?_)
  rw [tally_melted]
  cases p.2 <;> rfl

/-- The totals an accepted bundle fits, restated over its legs. -/
theorem fits_bundleTally (coinSpends : List CoinSpend) :
    (bundleTally sdk coinSpends).Fits ↔
      (∀ asset?, amountIn asset? (legs sdk coinSpends) < UInt64.size) ∧
      (∀ asset?, amountOut asset? (legs sdk coinSpends) < UInt64.size) ∧
      reservedFees (legs sdk coinSpends) < UInt64.size ∧
      destroyedMojos (legs sdk coinSpends) < UInt64.size := by
  constructor
  · rintro ⟨hfee, hmelted, hin, hout, hcatIn, hcatOut⟩
    rw [bundleTally_fee] at hfee
    rw [bundleTally_melted] at hmelted
    rw [bundleTally_xchIn] at hin
    rw [bundleTally_xchOut] at hout
    refine ⟨fun asset? => ?_, fun asset? => ?_, hfee, hmelted⟩
    · cases asset? with
      | none => exact hin
      | some asset => exact bundleTally_catIn coinSpends asset ▸ hcatIn asset
    · cases asset? with
      | none => exact hout
      | some asset => exact bundleTally_catOut coinSpends asset ▸ hcatOut asset
  · rintro ⟨hin, hout, hfee, hmelted⟩
    refine ⟨?_, ?_, ?_, ?_, fun asset => ?_, fun asset => ?_⟩
    · rwa [bundleTally_fee]
    · rwa [bundleTally_melted]
    · rw [bundleTally_xchIn]
      exact hin none
    · rw [bundleTally_xchOut]
      exact hout none
    · rw [bundleTally_catIn]
      exact hin (some asset)
    · rw [bundleTally_catOut]
      exact hout (some asset)

/-! ## Reported amounts -/

theorem reportedAmount_append (asset? : Option Bytes32) (outputs outputs' : List DecodedOutput) :
    reportedAmount asset? (outputs ++ outputs') =
      reportedAmount asset? outputs + reportedAmount asset? outputs' := by
  simp [reportedAmount]

/-- A partition splits the reported amounts. -/
theorem reportedAmount_partition (asset? : Option Bytes32) (P : DecodedOutput → Bool)
    (outputs : List DecodedOutput) : reportedAmount asset? outputs =
      reportedAmount asset? (outputs.filter fun output => !P output) +
        reportedAmount asset? (outputs.filter P) := by
  rw [add_comm]
  exact sum_map_split _ P outputs

theorem reportedAmount_created (asset? : Option Bytes32) (leg : Leg sdk) :
    reportedAmount asset? leg.created = if leg.asset? = asset? then leg.amountCreated else 0 := by
  unfold reportedAmount Leg.created Leg.amountCreated
  rw [List.map_map]
  by_cases h : leg.asset? = asset?
  · simp [h, Function.comp_def]
  · simp [h, Function.comp_def]

theorem reportedAmount_createdBy (asset? : Option Bytes32) (legs : List (Coin × Leg sdk)) :
    reportedAmount asset? (createdBy legs) = amountOut asset? legs := by
  induction legs with
  | nil => rfl
  | cons p legs ih =>
    rw [createdBy, List.flatMap_cons, reportedAmount_append, reportedAmount_created]
    exact congrArg _ ih

/-! ## Accepted bundles -/

section Accepted

variable {coinSpends : List CoinSpend} {effect : SpendEffect}

theorem Accepts.outputs_eq (h : Accepts sdk coinSpends effect) : effect.outputs =
    (createdBy (legs sdk coinSpends)).filter
      fun output => !isProtocolSinkHash sdk output.puzzleHash :=
  h.outputs.trans (bundleTally_outputs coinSpends)

theorem Accepts.protocolSink_eq (h : Accepts sdk coinSpends effect) : effect.protocolSink =
    (createdBy (legs sdk coinSpends)).filter
      fun output => isProtocolSinkHash sdk output.puzzleHash :=
  h.protocolSink.trans (bundleTally_protocolSink coinSpends)

theorem Accepts.reported (h : Accepts sdk coinSpends effect) (asset? : Option Bytes32) :
    amountOut asset? (legs sdk coinSpends) =
      reportedAmount asset? effect.outputs + reportedAmount asset? effect.protocolSink := by
  rw [h.outputs_eq, h.protocolSink_eq, ← reportedAmount_partition, reportedAmount_createdBy]

theorem Accepts.xch_conserved (h : Accepts sdk coinSpends effect) :
    amountIn none (legs sdk coinSpends) =
      amountOut none (legs sdk coinSpends) + effect.fee.toNat := by
  rw [← bundleTally_xchIn, ← bundleTally_xchOut]
  exact h.xch.1

theorem Accepts.cat_conserved (h : Accepts sdk coinSpends effect) (asset : Bytes32) :
    amountIn (some asset) (legs sdk coinSpends) = amountOut (some asset) (legs sdk coinSpends) := by
  rw [← bundleTally_catIn, ← bundleTally_catOut]
  exact h.cat asset

theorem Accepts.destroyed_le_fee (h : Accepts sdk coinSpends effect) :
    destroyedMojos (legs sdk coinSpends) ≤ effect.fee.toNat := by
  rw [← bundleTally_melted]
  have hmode := h.xch.2
  by_cases hoption : isOptionBundle sdk coinSpends = true
  · rw [if_pos hoption] at hmode
    omega
  · rw [if_neg hoption] at hmode
    omega

theorem Accepts.not_overflows (h : Accepts sdk coinSpends effect) : ¬ Overflows sdk coinSpends := by
  obtain ⟨hin, hout, hfee, hmelted⟩ := (fits_bundleTally coinSpends).mp h.fits
  rintro (⟨asset?, ho⟩ | ⟨asset?, ho⟩ | ho | ho | ⟨hstrict, ho⟩)
  · exact absurd (hin asset?) (Nat.not_lt.mpr ho)
  · exact absurd (hout asset?) (Nat.not_lt.mpr ho)
  · exact absurd hfee (Nat.not_lt.mpr ho)
  · exact absurd hmelted (Nat.not_lt.mpr ho)
  · have hmode := h.xch.2
    rw [hstrict, if_neg (by decide), bundleTally_fee, bundleTally_melted] at hmode
    have hconserved := h.xch_conserved
    have hfits := hin none
    omega

end Accepted

/-- **Exact conservation and partition.** -/
theorem analyze_exact (sdk : Sdk) (coinSpends : List CoinSpend) :
    (∀ effect, analyze sdk coinSpends = .ok effect →
      (legs sdk coinSpends).map Prod.fst = coinSpends.map CoinSpend.coin ∧
      amountIn none (legs sdk coinSpends) = reportedAmount none effect.outputs +
        reportedAmount none effect.protocolSink + effect.fee.toNat ∧
      destroyedMojos (legs sdk coinSpends) ≤ effect.fee.toNat ∧
      (∀ asset, amountIn (some asset) (legs sdk coinSpends) =
        reportedAmount (some asset) effect.outputs +
          reportedAmount (some asset) effect.protocolSink) ∧
      effect.outputs = (createdBy (legs sdk coinSpends)).filter
        (fun output => !isProtocolSinkHash sdk output.puzzleHash) ∧
      effect.protocolSink = (createdBy (legs sdk coinSpends)).filter
        (fun output => isProtocolSinkHash sdk output.puzzleHash)) ∧
    (Overflows sdk coinSpends →
      ∃ e, analyze sdk coinSpends = .error e ∧ e.code = .spendValidationFailed) ∧
    ∀ e, analyze sdk coinSpends = .error e → e.code = .spendValidationFailed := by
  refine ⟨fun effect heffect => ?_, fun hover => ?_, refuses_analyze sdk coinSpends⟩
  · have h := (analyze_eq_ok sdk).mp heffect
    refine ⟨legs_map_fst h.admitted, ?_, h.destroyed_le_fee, fun asset => ?_, h.outputs_eq,
      h.protocolSink_eq⟩
    · rw [← h.reported]
      exact h.xch_conserved
    · rw [← h.reported]
      exact h.cat_conserved asset
  · cases hresult : analyze sdk coinSpends with
    | ok effect => exact absurd hover ((analyze_eq_ok sdk).mp hresult).not_overflows
    | error e => exact ⟨e, rfl, refuses_analyze sdk coinSpends e hresult⟩

section Witness

open Sim

/-- A send of 60 with change 30 and fee 10. -/
def sendBundle : List CoinSpend :=
  [spendOf (.rep 1) (standardPuzzle walletKey) 100
    (signing [createCoin (.rep 7) 60, createCoin home 30, reserveFee 10])]

/-- Two coins of `u64::MAX` mojos. -/
def overflowBundle : List CoinSpend :=
  [spendOf (.rep 1) (standardPuzzle walletKey) (-1) (signing []),
    spendOf (.rep 2) (standardPuzzle walletKey) (-1) (signing [])]

set_option maxRecDepth 8000 in
theorem analyze_exact_sendBundle :
    (∃ effect, analyze sim sendBundle = .ok effect ∧
      amountIn none (legs sim sendBundle) = reportedAmount none effect.outputs +
        reportedAmount none effect.protocolSink + effect.fee.toNat) ∧
    ∃ e, analyze sim overflowBundle = .error e ∧ e.code = .spendValidationFailed := by
  refine ⟨⟨⟨[⟨.rep 7, 60, none⟩, ⟨home, 30, none⟩], [], 10, [], []⟩, rfl, ?_⟩, ?_⟩
  · exact ((analyze_exact sim sendBundle).1 _ rfl).2.1
  · exact (analyze_exact sim overflowBundle).2.1 (.inl ⟨none, by decide +kernel⟩)

end Witness

end DigWallet
