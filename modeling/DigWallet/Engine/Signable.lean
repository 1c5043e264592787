import DigWallet.Engine.PlanLegs
import DigWallet.Signer.Review
import DigWallet.SimBuild

/-!
# DigWallet.Engine.Signable — what the engine builds and the wallet signs

`verify_built_iff`: the gate accepts what a builder returns exactly when the totals the builder took
are `u64`s and no destination is the signer's own or structural.
-/

namespace DigWallet

open Totals SdkSpendBuilder

section

variable (sdk : Sdk) (signer : LocalSigner)

/-- Some destination is a puzzle hash of the signer. -/
def BuildRequest.PaysHome (request : BuildRequest) : Prop :=
  ∃ output ∈ request.summary.outputs, ∃ puzzleHash,
    sdk.decodeAddress output.address.text = .ok puzzleHash ∧ signer.ownsPuzzleHash sdk puzzleHash = true

/-- Some destination is the settlement or the launcher puzzle hash. -/
def BuildRequest.PaysStructural (request : BuildRequest) : Prop :=
  ∃ output ∈ request.summary.outputs, ∃ puzzleHash,
    sdk.decodeAddress output.address.text = .ok puzzleHash ∧ isProtocolSinkHash sdk puzzleHash = true

variable {sdk signer}

/-- No hash of the signer is structural. -/
theorem unstructural_of_owned (happart : sdk.StandardUnstructural) {puzzleHash : Bytes32}
    (h : signer.ownsPuzzleHash sdk puzzleHash = true) : isProtocolSinkHash sdk puzzleHash = false := by
  unfold LocalSigner.ownsPuzzleHash at h
  obtain ⟨index, -, hkey⟩ := List.any_eq_true.mp h
  rw [← of_decide_eq_true hkey]
  exact happart _

/-! ## Destinations and created outputs -/

section Pays

variable {outputs : List SpendOutput} {pays : List DecodedOutput}
  (hpays : List.Forall₂ (Pays sdk) outputs pays)
include hpays

/-- A property of the destinations is one of the outputs that pay them. -/
theorem exists_destination_iff (P : Bytes32 → Prop) :
    (∃ output ∈ outputs, ∃ puzzleHash, sdk.decodeAddress output.address.text = .ok puzzleHash ∧
      P puzzleHash) ↔ ∃ output ∈ pays, P output.puzzleHash := by
  constructor
  · rintro ⟨output, houtput, puzzleHash, hdecode, hP⟩
    obtain ⟨created, hcreated, hpay⟩ := exists_mem_right hpays houtput
    obtain rfl := Except.ok.inj (hpay.decoded.symm.trans hdecode)
    exact ⟨created, hcreated, hP⟩
  · rintro ⟨created, hcreated, hP⟩
    obtain ⟨output, houtput, hpay⟩ := exists_mem_left hpays hcreated
    exact ⟨output, houtput, created.puzzleHash, hpay.decoded, hP⟩

/-- The reviewed keys are those of the created outputs. -/
theorem map_addressedKey :
    outputs.map (addressedKey sdk) = (pays.map derivedTriple).map decoded := by
  induction hpays with
  | nil => rfl
  | @cons output created outputs pays hpay _ ih =>
    have hkey : addressedKey sdk output = decoded (derivedTriple created) := by
      have hasset : output.assetId.map normalizeAsset =
          created.assetId.map fun asset => hexEncode asset.bytes := hpay.asset
      simp only [addressedKey, derivedTriple, decoded, hpay.decoded, hpay.amount, hasset]
      rfl
    rw [List.map_cons, List.map_cons, List.map_cons, hkey, ih]

/-- An address that decodes is no sink mark. -/
theorem not_isProtocolSink (hempty : ∀ hash, sdk.decodeAddress "" ≠ .ok hash) :
    ∀ output ∈ outputs, output.isProtocolSink = false := by
  intro output houtput
  obtain ⟨created, -, hpay⟩ := exists_mem_right hpays houtput
  by_contra hsink
  have htext : output.address.text = "" := by
    simpa [SpendOutput.isProtocolSink, String.isEmpty_iff] using hsink
  exact hempty _ (htext ▸ hpay.decoded)

end Pays

/-! ## The gate on a plan -/

theorem filter_foreign {pays home : List DecodedOutput}
    (hhome : ∀ output ∈ home, signer.ownsPuzzleHash sdk output.puzzleHash = true) :
    (pays ++ home).filter (fun output => !signer.ownsPuzzleHash sdk output.puzzleHash) =
      pays.filter fun output => !signer.ownsPuzzleHash sdk output.puzzleHash := by
  have hnone : home.filter (fun output => !signer.ownsPuzzleHash sdk output.puzzleHash) = [] :=
    List.filter_eq_nil_iff.mpr fun output ho => by simp [hhome output ho]
  rw [List.filter_append, hnone, List.append_nil]

/-- The review of a plan's effect matches its request exactly when no destination is at home. -/
theorem matches_planned_iff (hempty : ∀ hash, sdk.decodeAddress "" ≠ .ok hash)
    {request : BuildRequest} {pays home : List DecodedOutput}
    (hpays : List.Forall₂ (Pays sdk) request.summary.outputs pays)
    (hhome : ∀ output ∈ home, signer.ownsPuzzleHash sdk output.puzzleHash = true) :
    assertReviewedSummaryMatches sdk request.summary (reclassifyByOwnership sdk signer
      ⟨pays ++ home, [], request.fee, [], []⟩) = .ok () ↔ ¬ request.PaysHome sdk signer := by
  have hsinks := not_isProtocolSink hpays hempty
  have haddressed : (request.summary.outputs.filter fun output => !output.isProtocolSink) =
      request.summary.outputs := List.filter_eq_self.mpr fun output ho => by simp [hsinks output ho]
  have hnone : request.summary.outputs.filter SpendOutput.isProtocolSink = [] :=
    List.filter_eq_nil_iff.mpr fun output ho => by simp [hsinks output ho]
  have hkeys := map_addressedKey hpays
  rw [assertReviewedSummaryMatches_eq_ok, recipients_iff, haddressed, hnone, hkeys]
  unfold reclassifyByOwnership
  dsimp only
  rw [filter_foreign hhome, BuildRequest.PaysHome, exists_destination_iff hpays]
  constructor
  · rintro ⟨-, -, -, hperm, -⟩ ⟨output, houtput, howned⟩
    have hlength := hperm.length_eq
    simp only [List.length_map] at hlength
    have hkept := List.length_filter_eq_length_iff.mp hlength.symm output houtput
    simp [howned] at hkept
  · intro hforeign
    refine ⟨rfl, .refl _, ⟨[], rfl, .refl _⟩, ?_, .refl _⟩
    have hkept : (pays.filter fun output => !signer.ownsPuzzleHash sdk output.puzzleHash) = pays := by
      refine List.filter_eq_self.mpr fun output ho => ?_
      by_contra howned
      exact hforeign ⟨output, ho, by simpa using howned⟩
    rw [hkept]

variable {drivers : SpendDrivers} {wrap : CatInfo → Bytes32 → Bytes32} {overflowChecks : Bool}
  {builder : SdkSpendBuilder}

/-- The gate on an emitted plan that balances. -/
theorem verify_planned_iff (hdrivers : drivers.Emit sdk wrap) (hlayers : sdk.LayersDisjoint)
    (happart : sdk.StandardUnstructural) (hempty : ∀ hash, sdk.decodeAddress "" ≠ .ok hash)
    (hinputs : builder.inputs.Honest sdk drivers) {request : BuildRequest} {unsigned : UnsignedSpend}
    {plan : List PlannedSpend}
    (hhome : ∀ puzzleHash, builder.inputs.changePuzzleHash request.identity = .ok puzzleHash →
      signer.ownsPuzzleHash sdk puzzleHash = true)
    (hbalanced : Balanced sdk builder request plan)
    (hemitted : List.Forall₂ (Emitted sdk drivers wrap builder.inputs) plan unsigned.coinSpends)
    (hsummary : unsigned.summary = request.summary) (hne : unsigned.coinSpends ≠ []) :
    verifyBeforeSigning sdk signer unsigned = .ok () ↔ builder.SpendsExactly sdk request ∧
      ¬ request.PaysStructural sdk ∧ ¬ request.PaysHome sdk signer := by
  have hlegs := plannedLegs_of_emitted hdrivers hlayers happart hinputs hbalanced hemitted
  obtain ⟨pays, home, houtputs, hpays, hown⟩ := hbalanced.outputs
  have howned : ∀ output ∈ home, signer.ownsPuzzleHash sdk output.puzzleHash = true :=
    fun output ho => hhome _ (hown output ho)
  have hstructural : (∀ output ∈ pays ++ home,
      isProtocolSinkHash sdk output.puzzleHash = false) ↔ ¬ request.PaysStructural sdk := by
    rw [BuildRequest.PaysStructural, exists_destination_iff hpays]
    constructor
    · rintro h ⟨output, ho, hsink⟩
      rw [h output (List.mem_append_left _ ho)] at hsink
      cases hsink
    · intro h output ho
      rcases List.mem_append.mp ho with ho | ho
      · by_contra hsink
        exact h ⟨output, ho, by simpa using hsink⟩
      · exact unstructural_of_owned happart (howned output ho)
  rw [verifyBeforeSigning_eq_ok]
  simp only [analyze_planned_iff hlegs hbalanced hne, hbalanced.exact, hsummary, houtputs,
    hstructural]
  constructor
  · rintro ⟨effect, ⟨hexact, hforeign, rfl⟩, hmatches⟩
    exact ⟨hexact, hforeign, (matches_planned_iff hempty hpays howned).mp hmatches⟩
  · rintro ⟨hexact, hforeign, hhome⟩
    exact ⟨_, ⟨hexact, hforeign, rfl⟩, (matches_planned_iff hempty hpays howned).mpr hhome⟩

/-- **What the engine builds the wallet signs, exactly when** the totals are `u64`s and no destination
is the signer's own or structural. -/
theorem verify_built_iff (hdrivers : drivers.Emit sdk wrap) (hlayers : sdk.LayersDisjoint)
    (happart : sdk.StandardUnstructural) (hempty : ∀ hash, sdk.decodeAddress "" ≠ .ok hash)
    (hinputs : builder.inputs.Honest sdk drivers) {request : BuildRequest} {unsigned : UnsignedSpend}
    (hhome : ∀ puzzleHash, builder.inputs.changePuzzleHash request.identity = .ok puzzleHash →
      signer.ownsPuzzleHash sdk puzzleHash = true)
    (h : builder.build sdk drivers overflowChecks request = .ok unsigned) :
    verifyBeforeSigning sdk signer unsigned = .ok () ↔ builder.SpendsExactly sdk request ∧
      ¬ request.PaysStructural sdk ∧ ¬ request.PaysHome sdk signer := by
  obtain ⟨plan, hplan⟩ := build_planned hdrivers h
  exact verify_planned_iff hdrivers hlayers happart hempty hinputs hhome
    (balanced_of_plan hinputs hplan.plan_eq) hplan.emitted hplan.summary_eq hplan.nonempty

end

/-- **The wallet signs what the engine builds** for destinations that are not its own, unless one is
structural. -/
theorem wallet_signs_built (sdk : Sdk) (hlayers : sdk.LayersDisjoint)
    (happart : sdk.StandardUnstructural) (hempty : ∀ hash, sdk.decodeAddress "" ≠ .ok hash)
    (drivers : SpendDrivers) (wrap : CatInfo → Bytes32 → Bytes32) (hdrivers : drivers.Emit sdk wrap)
    (overflowChecks : Bool) (builder : SdkSpendBuilder) (hinputs : builder.inputs.Honest sdk drivers)
    (signer : LocalSigner) (request : BuildRequest)
    (hhome : ∀ puzzleHash, builder.inputs.changePuzzleHash request.identity = .ok puzzleHash →
      signer.ownsPuzzleHash sdk puzzleHash = true)
    (hexact : builder.SpendsExactly sdk request) (hforeign : ¬ request.PaysHome sdk signer)
    (unsigned : UnsignedSpend)
    (h : builder.build sdk drivers overflowChecks request = .ok unsigned) :
    verifyBeforeSigning sdk signer unsigned = .ok () ↔ ¬ request.PaysStructural sdk := by
  rw [verify_built_iff hdrivers hlayers happart hempty hinputs hhome h]
  constructor
  · rintro ⟨-, hstructural, -⟩
    exact hstructural
  · intro hstructural
    exact ⟨hexact, hstructural, hforeign⟩

namespace Sim

/-- A send of 60 mojos with a fee of 5. -/
def sendTo (hash : Bytes32) : BuildRequest := .sendXch ⟨identity, addressOf hash, ⟨60⟩, ⟨5⟩⟩

theorem destination_sendTo {hash : Bytes32} {P : Bytes32 → Prop}
    (h : ∃ output ∈ (sendTo hash).summary.outputs, ∃ puzzleHash,
      sim.decodeAddress output.address.text = .ok puzzleHash ∧ P puzzleHash) : P hash := by
  obtain ⟨output, houtput, puzzleHash, hdecode, hP⟩ := h
  rw [List.mem_singleton.mp houtput] at hdecode
  have hhash : sim.decodeAddress (addressOf hash).text = .ok hash := addressesRoundTrip.decodes rfl
  obtain rfl := Except.ok.inj (hhash.symm.trans hdecode)
  exact hP

theorem exists_built (hash : Bytes32)
    (h : (oneCoin.build sim spendDrivers true (sendTo hash)).toOption.isSome = true) :
    ∃ unsigned, oneCoin.build sim spendDrivers true (sendTo hash) = .ok unsigned := by
  obtain ⟨unsigned, hbuilt⟩ := Option.isSome_iff_exists.mp h
  exact ⟨unsigned, toOption_eq_some.mp hbuilt⟩

theorem oneCoin_honest : oneCoin.inputs.Honest sim spendDrivers := inputs_honest (by simp)

theorem oneCoin_home {request : BuildRequest} {puzzleHash : Bytes32}
    (h : oneCoin.inputs.changePuzzleHash request.identity = .ok puzzleHash) :
    wallet.ownsPuzzleHash sim puzzleHash = true := by
  cases h
  exact wallet_owns_home

end Sim

open Sim in
/-- A send to a foreign address signs. -/
theorem wallet_signs_built_foreign : ∃ unsigned,
    oneCoin.build sim spendDrivers true (sendTo (.rep 0x42)) = .ok unsigned ∧
      verifyBeforeSigning sim wallet unsigned = .ok () := by
  obtain ⟨unsigned, hbuilt⟩ := exists_built (.rep 0x42) (by decide +kernel)
  have hexact : oneCoin.SpendsExactly sim (sendTo (.rep 0x42)) := by
    intro coins hcoins
    cases hcoins
    exact ⟨1, by decide, by decide⟩
  refine ⟨unsigned, hbuilt, (wallet_signs_built sim layersDisjoint standardUnstructural
    decodeAddress_empty spendDrivers wrap spendDrivers_emit true oneCoin oneCoin_honest wallet
    (sendTo (.rep 0x42)) (fun _ => oneCoin_home) hexact ?_ unsigned hbuilt).mpr ?_⟩
  · intro hhome
    exact absurd (destination_sendTo hhome) (by decide)
  · intro hstructural
    exact absurd (destination_sendTo hstructural) (by decide)

open Sim in
/-- A send to the settlement puzzle hash is refused, and one to the wallet's own address too. -/
theorem wallet_refuses_built :
    (∃ unsigned, oneCoin.build sim spendDrivers true (sendTo sim.settlementPaymentHash) =
      .ok unsigned ∧ verifyBeforeSigning sim wallet unsigned ≠ .ok ()) ∧
    ∃ unsigned, oneCoin.build sim spendDrivers true (sendTo home) = .ok unsigned ∧
      verifyBeforeSigning sim wallet unsigned ≠ .ok () := by
  have hdecode : ∀ hash, sim.decodeAddress (addressOf hash).text = .ok hash :=
    fun hash => addressesRoundTrip.decodes rfl
  constructor
  · obtain ⟨unsigned, hbuilt⟩ := exists_built sim.settlementPaymentHash (by decide +kernel)
    refine ⟨unsigned, hbuilt, fun hsigns => ?_⟩
    obtain ⟨-, hstructural, -⟩ := (verify_built_iff spendDrivers_emit layersDisjoint
      standardUnstructural decodeAddress_empty oneCoin_honest (fun _ => oneCoin_home) hbuilt).mp hsigns
    exact hstructural ⟨_, List.mem_singleton.mpr rfl, _, hdecode _, by decide⟩
  · obtain ⟨unsigned, hbuilt⟩ := exists_built home (by decide +kernel)
    refine ⟨unsigned, hbuilt, fun hsigns => ?_⟩
    obtain ⟨-, -, hhome⟩ := (verify_built_iff spendDrivers_emit layersDisjoint
      standardUnstructural decodeAddress_empty oneCoin_honest (fun _ => oneCoin_home) hbuilt).mp hsigns
    exact hhome ⟨_, List.mem_singleton.mpr rfl, _, hdecode _, wallet_owns_home⟩

end DigWallet
