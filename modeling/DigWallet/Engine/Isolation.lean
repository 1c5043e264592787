import DigWallet.Engine.Signable
import DigWallet.Signer.Signatures

/-!
# DigWallet.Engine.Isolation — a built spend and the signers of its network

`network_isolated`: a spend the engine built for one network is signed by a signer of that network and
refused by every other, and no signature made for it is one that a coin requires elsewhere.
-/

namespace DigWallet

open Faults SdkSpendBuilder Sorting

/-! ## The signers of a network -/

/-- `DEFAULT_ADDRESS_GAP`. -/
def defaultAddressGap : ℕ := 100

namespace LocalSigner

def withAggSigMeExtraData (profileIx : ℕ) (master : MasterKey) (aggSigMeExtraData : Bytes32) :
    LocalSigner where
  profileIx := profileIx
  master := master
  aggSigMeExtraData := aggSigMeExtraData
  addressGap := defaultAddressGap
  scheme := .legacyProfile

def new (drivers : SpendDrivers) (profileIx : ℕ) (master : MasterKey) :
    Network → WalletResult LocalSigner
  | .mainnet => .ok (withAggSigMeExtraData profileIx master drivers.chiaL1MainnetAggSigMe)
  | .testnet => .ok (withAggSigMeExtraData profileIx master drivers.chiaL1Testnet11AggSigMe)
  | .simulator => .error (invalidInput
      "Network::Simulator has no fixed genesis challenge; use with_agg_sig_me_extra_data")

def withCanonicalWalletKeys (signer : LocalSigner) : LocalSigner :=
  { signer with scheme := .canonicalWallet }

def newCanonical (drivers : SpendDrivers) (profileIx : ℕ) (master : MasterKey) (network : Network) :
    WalletResult LocalSigner := do
  let signer ← new drivers profileIx master network
  .ok signer.withCanonicalWalletKeys

def withAddressGap (signer : LocalSigner) (addressGap : ℕ) : LocalSigner :=
  { signer with addressGap := addressGap }

/-- A key within the window is found. -/
theorem findKey_isSome (sdk : Sdk) (signer : LocalSigner) {index : ℕ}
    (hindex : index < signer.addressGap) :
    (signer.findKey sdk (signer.syntheticPublicKey sdk index)).isSome = true := by
  unfold findKey
  rw [List.findSome?_isSome_iff]
  refine ⟨index, List.mem_range.mpr hindex, ?_⟩
  rw [List.find?_isSome]
  unfold candidateKeys syntheticPublicKey
  cases signer.scheme with
  | canonicalWallet => exact ⟨_, List.mem_singleton.mpr rfl, decide_eq_true rfl⟩
  | legacyProfile =>
    exact ⟨_, List.mem_cons_of_mem _ (List.mem_singleton.mpr rfl), decide_eq_true rfl⟩

theorem publicKey_of_findKey {sdk : Sdk} {signer : LocalSigner} {target : PublicKey} {key : SecretKey}
    (h : signer.findKey sdk target = some key) : sdk.publicKey key = target := by
  unfold findKey at h
  obtain ⟨index, -, hfound⟩ := List.exists_of_findSome?_eq_some h
  simpa using List.find?_some hfound

end LocalSigner

/-! ## The network is read last -/

section Front

variable (sdk : Sdk) (drivers : SpendDrivers) (overflowChecks : Bool) (builder : SdkSpendBuilder)

/-- The builder on another network. -/
def SdkSpendBuilder.on (network : Network) : SdkSpendBuilder := { builder with network := network }

/-- Up to the extraction of the signatures a build does not depend on the network. -/
theorem build_sharesFront (request : BuildRequest) :
    SharesFront
      (fun network coinSpends =>
        ofResult ((builder.on network).finish sdk drivers coinSpends request.summary))
      fun network => (builder.on network).build sdk drivers overflowChecks request := by
  cases request with
  | sendXch r =>
    show SharesFront _ fun network => (builder.on network).buildSendXch sdk drivers overflowChecks r
    unfold buildSendXch
    dsimp only
    repeat refine .bind (fun _ _ => rfl) fun _ => ?_
    exact sharesFront_last _
  | sendCat r =>
    show SharesFront _ fun network => (builder.on network).buildSendCat sdk drivers overflowChecks r
    unfold buildSendCat
    dsimp only
    repeat refine .bind (fun _ _ => rfl) fun _ => ?_
    exact sharesFront_last _
  | multiSendXch r =>
    show SharesFront _ fun network =>
      (builder.on network).buildMultiSendXch sdk drivers overflowChecks r
    unfold buildMultiSendXch
    dsimp only
    repeat refine .bind (fun _ _ => rfl) fun _ => ?_
    exact sharesFront_last _
  | multiSendCat r =>
    show SharesFront _ fun network =>
      (builder.on network).buildMultiSendCat sdk drivers overflowChecks r
    unfold buildMultiSendCat
    dsimp only
    repeat refine .bind (fun _ _ => rfl) fun _ => ?_
    exact sharesFront_last _
  | combineXch r =>
    show SharesFront _ fun network => (builder.on network).buildCombineXch sdk drivers overflowChecks r
    unfold buildCombineXch
    dsimp only
    repeat refine .bind (fun _ _ => rfl) fun _ => ?_
    exact sharesFront_last _
  | splitXch r =>
    show SharesFront _ fun network => (builder.on network).buildSplitXch sdk drivers overflowChecks r
    unfold buildSplitXch
    dsimp only
    repeat refine .bind (fun _ _ => rfl) fun _ => ?_
    exact sharesFront_last _

end Front

/-! ## What a built spend requires -/

section Requires

variable (sdk : Sdk)

/-- Whether the extraction fails does not depend on the network. -/
def Sdk.ExtractsOnAny : Prop :=
  ∀ {coinSpends genesis extracted}, sdk.fromCoinSpends coinSpends genesis = .ok extracted →
    ∀ genesis', ∃ extracted', sdk.fromCoinSpends coinSpends genesis' = .ok extracted'

/-- The message an `AGG_SIG_ME` of a coin binds on a network. -/
def meMessage (genesis : Bytes32) (p : Coin × AggSig) : Bytes :=
  p.2.message ++ (sdk.coinId p.1).bytes ++ genesis.bytes

def meRequirement (genesis : Bytes32) (p : Coin × AggSig) : SdkRequiredSignature :=
  .bls p.2.publicKey (meMessage sdk genesis p) (some genesis)

def meSignature (genesis : Bytes32) (p : Coin × AggSig) : RequiredSignature :=
  ⟨p.2.publicKey, meMessage sdk genesis p⟩

/-- On any network the spend requires one signature, by a key of the provider. -/
structure RequiresOne (inputs : SpendInputs) (spend : CoinSpend) (p : Coin × AggSig) : Prop where
  coin_eq : p.1 = spend.coin
  key : ∃ puzzleHash, inputs.syntheticKey puzzleHash = some p.2.publicKey
  sole : ∀ {genesis requirements}, RequiredOf sdk genesis spend requirements →
    requirements = [meRequirement sdk genesis p]

variable {sdk} {tail : CoinSpend → List Condition} {drivers : SpendDrivers}
  {wrap : CatInfo → Bytes32 → Bytes32} {inputs : SpendInputs}

theorem filter_isAggSig_signed {sig : AggSig} {conditions : List Condition}
    (hordinary : ∀ c ∈ conditions, Ordinary c) :
    (.aggSigMe sig :: conditions).filter isAggSig = [.aggSigMe sig] := by
  rw [List.filter_cons_of_pos rfl, List.filter_eq_nil_iff.mpr]
  intro c hc
  rw [isAggSig, asAggSigMe_of_ordinary (hordinary c hc), isNonMeAggSig_of_ordinary (hordinary c hc)]
  decide

/-- What is required of a run with one `AGG_SIG_ME` among its signature conditions. -/
theorem requirements_of_sole {genesis : Bytes32} {coin : Coin} {sig : AggSig} {outer : List Condition}
    {requirements : List SdkRequiredSignature} (hsole : (outer.filter isAggSig).Perm [.aggSigMe sig])
    (h : List.Forall₂ (RequiredFor sdk genesis coin) (outer.filter isAggSig) requirements) :
    requirements = [meRequirement sdk genesis (coin, sig)] := by
  rw [List.perm_singleton.mp hsole, List.forall₂_cons_left_iff] at h
  obtain ⟨requirement, rest, hrequired, hrest, rfl⟩ := h
  rw [List.forall₂_nil_left_iff.mp hrest]
  cases hrequired with
  | me sig => rfl
  | other hcondition hdomain => cases hcondition

theorem requiresOne_of_emitted (houter : OuterRuns sdk tail) (hdrivers : drivers.Emit sdk wrap)
    {planned : PlannedSpend} {spend : CoinSpend} (hordinary : ∀ c ∈ planned.conditions, Ordinary c)
    (h : Emitted sdk drivers wrap inputs planned spend) :
    ∃ p, RequiresOne sdk inputs spend p := by
  cases h with
  | @standard coin conditions key spend hkey hspend =>
    have hordinary : ∀ c ∈ conditions, Ordinary c := hordinary
    obtain ⟨inner, hinner, hemits⟩ := hdrivers.standard hspend
    obtain ⟨layer, -, -, hrun⟩ := (hdrivers.inner hinner).signs
    refine ⟨(spend.coin, ⟨key, (sdk.treeHash layer.delegatedPuzzle).bytes⟩), rfl, ⟨_, hkey⟩, ?_⟩
    rintro genesis requirements ⟨puzzle, solution, outer, hpuzzle, hsolution, houter', hrequired⟩
    obtain rfl := Except.ok.inj (hpuzzle.symm.trans hemits.reveal)
    obtain rfl := Except.ok.inj (hsolution.symm.trans hemits.solution)
    obtain rfl := Except.ok.inj (houter'.symm.trans hrun)
    refine requirements_of_sole ?_ hrequired
    rw [filter_isAggSig_signed hordinary]
  | @cat spent conditions key inner spend hkey hinner hspend =>
    have hordinary : ∀ c ∈ conditions, Ordinary c := hordinary
    have hemits := hdrivers.inner hinner
    obtain ⟨layer, -, -, hrun⟩ := hemits.signs
    obtain ⟨puzzle, solution, hpuzzle, hsolution, -, hcat, -⟩ := hspend.wraps
    refine ⟨(spend.coin, ⟨key, (sdk.treeHash layer.delegatedPuzzle).bytes⟩), rfl, ⟨_, hkey⟩, ?_⟩
    rintro genesis requirements ⟨puzzle', solution', outer, hpuzzle', hsolution', houter', hrequired⟩
    obtain rfl := Except.ok.inj (hpuzzle.symm.trans hpuzzle')
    obtain rfl := Except.ok.inj (hsolution.symm.trans hsolution')
    rw [← hemits.ptr] at hrun
    have hperm := houter.cat hpuzzle hsolution hcat hrun houter'
    refine requirements_of_sole ?_ hrequired
    -- an ordinary list runs no TAIL
    have hnot : .runCatTail ∉ Condition.aggSigMe ⟨key, (sdk.treeHash layer.delegatedPuzzle).bytes⟩ ::
        conditions := by
      intro hmem
      rcases List.mem_cons.mp hmem with hmem | hmem
      · cases hmem
      · cases hordinary _ hmem
    rw [if_neg hnot, List.append_nil, filter_isAggSig_signed hordinary] at hperm
    exact hperm

/-- One signature for each spend of the bundle. -/
theorem exists_requiresOne (houter : OuterRuns sdk tail) (hdrivers : drivers.Emit sdk wrap)
    {plan : List PlannedSpend} {coinSpends : List CoinSpend}
    (hordinary : ∀ planned ∈ plan, ∀ c ∈ planned.conditions, Ordinary c)
    (h : List.Forall₂ (Emitted sdk drivers wrap inputs) plan coinSpends) :
    ∃ own, List.Forall₂ (RequiresOne sdk inputs) coinSpends own := by
  induction h with
  | nil => exact ⟨[], .nil⟩
  | cons hemit _ ih =>
    rw [List.forall_mem_cons] at hordinary
    obtain ⟨p, hp⟩ := requiresOne_of_emitted houter hdrivers hordinary.1 hemit
    obtain ⟨own, hown⟩ := ih hordinary.2
    exact ⟨p :: own, .cons hp hown⟩

variable {coinSpends : List CoinSpend} {own : List (Coin × AggSig)}

theorem extracted_of_requiresOne (houter : OuterRuns sdk tail)
    (hown : List.Forall₂ (RequiresOne sdk inputs) coinSpends own) {genesis : Bytes32}
    {extracted : List SdkRequiredSignature}
    (h : sdk.fromCoinSpends coinSpends genesis = .ok extracted) :
    extracted = own.map (meRequirement sdk genesis) := by
  obtain ⟨parts, rfl, hparts⟩ := houter.required h
  clear h
  induction hown generalizing parts with
  | nil =>
    cases hparts
    rfl
  | cons hone _ ih =>
    cases hparts with
    | cons hpart hrest =>
      rw [List.flatten_cons, hone.sole hpart, ih _ hrest]
      rfl

/-- The engine's list. -/
theorem requiredSignatures_of_requiresOne (houter : OuterRuns sdk tail)
    (hown : List.Forall₂ (RequiresOne sdk inputs) coinSpends own) {builder : SdkSpendBuilder}
    {extracted : List SdkRequiredSignature}
    (h : sdk.fromCoinSpends coinSpends (builder.aggSigConstants drivers) = .ok extracted) :
    builder.requiredSignatures sdk drivers coinSpends =
      .ok (own.map (meSignature sdk (builder.aggSigConstants drivers))) := by
  unfold requiredSignatures
  rw [h, extracted_of_requiresOne houter hown h]
  show (own.map (meRequirement sdk (builder.aggSigConstants drivers))).mapM requiredSignature = _
  rw [mapM_eq_ok, List.forall₂_map_left_iff, List.forall₂_map_right_iff, List.forall₂_same]
  exact fun p _ => rfl

/-- The signer's list. -/
theorem requiredSignaturesFrom_of_requiresOne (houter : OuterRuns sdk tail)
    (hown : List.Forall₂ (RequiresOne sdk inputs) coinSpends own) (signer : LocalSigner)
    {extracted : List SdkRequiredSignature}
    (h : sdk.fromCoinSpends coinSpends signer.aggSigMeExtraData = .ok extracted) :
    requiredSignaturesFrom sdk signer coinSpends =
      .ok (own.map (meSignature sdk signer.aggSigMeExtraData)) := by
  unfold requiredSignaturesFrom
  rw [h, extracted_of_requiresOne houter hown h]
  show (own.map (meRequirement sdk signer.aggSigMeExtraData)).mapM (requireAggSigMe signer) = _
  rw [mapM_eq_ok, List.forall₂_map_left_iff, List.forall₂_map_right_iff, List.forall₂_same]
  intro p _
  simp [meRequirement, meSignature, requireAggSigMe, meDomain, require, bind, Except.bind]

end Requires

/-! ## The signer -/

section Signing

variable {sdk : Sdk} {signer : LocalSigner} {genesis genesis' : Bytes32} {own : List (Coin × AggSig)}

/-- A message bound to two networks is bound to one. -/
theorem genesis_eq_of_meMessage {p p' : Coin × AggSig}
    (h : meMessage sdk genesis p = meMessage sdk genesis' p') : genesis = genesis' := by
  have hsize : genesis.bytes.length = genesis'.bytes.length := genesis.size.trans genesis'.size.symm
  exact Bytes32.ext (List.append_inj_right' h hsize)

/-- Two networks' signatures of one non-empty list never match. -/
theorem genesis_eq_of_perm (hne : own ≠ [])
    (h : ((own.map (meSignature sdk genesis)).map signatureKey).Perm
      ((own.map (meSignature sdk genesis')).map signatureKey)) : genesis = genesis' := by
  obtain ⟨p, hp⟩ := List.exists_mem_of_ne_nil own hne
  have hmem : signatureKey (meSignature sdk genesis p) ∈
      (own.map (meSignature sdk genesis')).map signatureKey :=
    h.subset (List.mem_map_of_mem (List.mem_map_of_mem hp))
  rw [List.map_map] at hmem
  obtain ⟨p', -, hkey⟩ := List.mem_map.mp hmem
  exact (genesis_eq_of_meMessage (congrArg (fun key : SignatureKey => (ofLex key).2) hkey)).symm

/-- One turn of the signing loop, on a message of the signer's network. -/
theorem signRequired_meSignature {p : Coin × AggSig} {signature : Signature} :
    signRequired sdk signer (meSignature sdk signer.aggSigMeExtraData p) = .ok signature ↔
      ∃ key, signer.findKey sdk p.2.publicKey = some key ∧
        signature = sdk.blsSign key (meMessage sdk signer.aggSigMeExtraData p) := by
  have hbound : rejectUnboundMessage signer (meSignature sdk signer.aggSigMeExtraData p).message =
      .ok () := by
    unfold rejectUnboundMessage
    rw [if_pos]
    exact List.isSuffixOf_iff_suffix.mpr ⟨_, rfl⟩
  unfold signRequired
  rw [guard_bind_eq_ok, hbound]
  cases hkey : signer.findKey sdk p.2.publicKey with
  | none => simp [meSignature, hkey]
  | some key => simp [meSignature, hkey, eq_comm]

theorem mapM_signRequired_eq_ok {signatures : List Signature} :
    (own.map (meSignature sdk signer.aggSigMeExtraData)).mapM (signRequired sdk signer) =
        .ok signatures ↔
      List.Forall₂ (fun required signature => ∃ key,
        signer.findKey sdk required.publicKey = some key ∧
          signature = sdk.blsSign key required.message)
        (own.map (meSignature sdk signer.aggSigMeExtraData)) signatures := by
  rw [mapM_eq_ok, List.forall₂_map_left_iff, List.forall₂_map_left_iff]
  simp only [signRequired_meSignature]
  rfl

/-- A list is signed when every key is found. -/
theorem exists_signatures {required : List RequiredSignature}
    (h : ∀ r ∈ required, (signer.findKey sdk r.publicKey).isSome) : ∃ signatures,
      List.Forall₂ (fun r signature => ∃ key, signer.findKey sdk r.publicKey = some key ∧
        signature = sdk.blsSign key r.message) required signatures := by
  induction required with
  | nil => exact ⟨[], .nil⟩
  | cons r required ih =>
    rw [List.forall_mem_cons] at h
    obtain ⟨key, hkey⟩ := Option.isSome_iff_exists.mp h.1
    obtain ⟨signatures, hsignatures⟩ := ih h.2
    exact ⟨_ :: signatures, .cons ⟨key, hkey, rfl⟩ hsignatures⟩

end Signing

/-! ## One network's spend -/

section Isolated

variable (sdk : Sdk) (drivers : SpendDrivers) (overflowChecks : Bool) (builder : SdkSpendBuilder)
  (signer : LocalSigner)

/-- The signature of a required message, by the signer's own key. -/
def SignedBy (required : RequiredSignature) (signature : Signature) : Prop :=
  ∃ key, sdk.publicKey key = required.publicKey ∧ signature = sdk.blsSign key required.message

/-- The signer has the key of every required signature. -/
def HoldsKeys (required : List RequiredSignature) : Prop :=
  ∀ r ∈ required, (signer.findKey sdk r.publicKey).isSome

/-- What a spend built on the builder's network is to the signer, and to other networks. -/
structure Isolated (request : BuildRequest) (unsigned : UnsignedSpend) : Prop where
  /-- It is signed by the signers of its network that hold the keys, for foreign destinations. -/
  signed : (∃ bundle, signUnsigned sdk signer unsigned = .ok bundle) ↔
    (builder.SpendsExactly sdk request ∧ ¬ request.PaysStructural sdk ∧ ¬ request.PaysHome sdk signer) ∧
      signer.aggSigMeExtraData = builder.aggSigConstants drivers ∧
      HoldsKeys sdk signer unsigned.requiredSignatures
  /-- One signature for each coin, each by the key the coin's message is required of. -/
  bundle : ∀ bundle, signUnsigned sdk signer unsigned = .ok bundle →
    bundle.coinSpends = unsigned.coinSpends ∧ ∃ signatures,
      bundle.aggregatedSignature = sdk.aggregate signatures ∧
      List.Forall₂ (SignedBy sdk) unsigned.requiredSignatures signatures
  one : List.Forall₂ (fun spend required => (∃ puzzleHash,
      builder.inputs.syntheticKey puzzleHash = some required.publicKey) ∧
      (sdk.coinId spend.coin).bytes ++ (builder.aggSigConstants drivers).bytes <:+ required.message)
    unsigned.coinSpends unsigned.requiredSignatures
  /-- A provider of keys within the signer's window leaves none missing. -/
  window : (∀ puzzleHash key, builder.inputs.syntheticKey puzzleHash = some key →
      ∃ index < signer.addressGap, signer.syntheticPublicKey sdk index = key) →
    HoldsKeys sdk signer unsigned.requiredSignatures
  /-- Of the signers constructed for a network: its own, and testnet's for the simulator. -/
  constructed : drivers.chiaL1MainnetAggSigMe ≠ drivers.chiaL1Testnet11AggSigMe →
    ∀ profileIx master network, LocalSigner.newCanonical drivers profileIx master network = .ok signer →
      (signer.aggSigMeExtraData = builder.aggSigConstants drivers ↔
        builder.network = network ∨ builder.network = .simulator ∧ network = .testnet)
  /-- A signer of another network refuses it as a signing oracle, once its value is verified. -/
  refused : verifyBeforeSigning sdk signer unsigned = .ok () →
    signer.aggSigMeExtraData ≠ builder.aggSigConstants drivers →
    signUnsigned sdk signer unsigned = .error (reject
      "engine-supplied required signatures do not match the coin spends (signing-oracle attempt)")
  /-- Built for another network it is the same spend under other messages. -/
  elsewhere : ∀ network, ∃ required, (builder.on network).build sdk drivers overflowChecks request =
      .ok { unsigned with requiredSignatures := required } ∧
    required.map RequiredSignature.publicKey =
      unsigned.requiredSignatures.map RequiredSignature.publicKey ∧
    (required = unsigned.requiredSignatures ↔
      (builder.on network).aggSigConstants drivers = builder.aggSigConstants drivers)
  /-- No coin requires one of its messages on another network. -/
  noReplay : ∀ coinSpends genesis extracted, genesis ≠ builder.aggSigConstants drivers →
    sdk.fromCoinSpends coinSpends genesis = .ok extracted →
    ∀ required ∈ unsigned.requiredSignatures,
      .bls required.publicKey required.message (some genesis) ∉ extracted

variable {sdk drivers overflowChecks builder signer} {tail : CoinSpend → List Condition}

theorem finish_iff {coinSpends : List CoinSpend} {summary : TransactionSummary}
    {unsigned : UnsignedSpend} :
    builder.finish sdk drivers coinSpends summary = .ok unsigned ↔
      ∃ required, builder.requiredSignatures sdk drivers coinSpends = .ok required ∧
        coinSpends ≠ [] ∧ required ≠ [] ∧ unsigned = ⟨coinSpends, required, summary⟩ := by
  unfold finish ensureSignedOffline
  simp only [bind_eq_ok, Except.ok.injEq]
  refine exists_congr fun required => and_congr_right fun _ => ?_
  by_cases hspends : coinSpends = []
  · simp [hspends]
  · by_cases hrequired : required = []
    · simp [hspends, hrequired]
    · simp [hspends, hrequired, eq_comm (a := unsigned)]

/-- A finished spend, one signature for each coin, and the same spend on any other network. -/
structure FinishedAs (sdk : Sdk) (drivers : SpendDrivers) (overflowChecks : Bool)
    (builder : SdkSpendBuilder) (request : BuildRequest) (unsigned : UnsignedSpend)
    (own : List (Coin × AggSig)) : Prop where
  requires : List.Forall₂ (RequiresOne sdk builder.inputs) unsigned.coinSpends own
  nonempty : own ≠ []
  extracts : ∀ genesis, ∃ extracted, sdk.fromCoinSpends unsigned.coinSpends genesis = .ok extracted
  required : unsigned.requiredSignatures =
    own.map (meSignature sdk (builder.aggSigConstants drivers))
  elsewhere : ∀ network, (builder.on network).build sdk drivers overflowChecks request =
    .ok { unsigned with
      requiredSignatures := own.map (meSignature sdk ((builder.on network).aggSigConstants drivers)) }

theorem exists_finishedAs (houter : OuterRuns sdk tail) (hextracts : sdk.ExtractsOnAny)
    {wrap : CatInfo → Bytes32 → Bytes32} (hdrivers : drivers.Emit sdk wrap)
    (hinputs : builder.inputs.Honest sdk drivers) {request : BuildRequest} {unsigned : UnsignedSpend}
    (h : builder.build sdk drivers overflowChecks request = .ok unsigned) :
    ∃ own, FinishedAs sdk drivers overflowChecks builder request unsigned own := by
  obtain ⟨plan, hplan⟩ := build_planned hdrivers h
  have hbalanced := balanced_of_plan hinputs hplan.plan_eq
  obtain ⟨own, hown⟩ := exists_requiresOne houter hdrivers hbalanced.ordinary hplan.emitted
  obtain ⟨coinSpends, hlast, hall⟩ :=
    (build_sharesFront sdk drivers overflowChecks builder request).last_of_ok (i := builder.network) h
  obtain ⟨required, hrequired, hspends, hsome, rfl⟩ := finish_iff.mp (ofResult_eq_ok.mp hlast)
  have hanywhere : ∀ genesis, ∃ extracted, sdk.fromCoinSpends coinSpends genesis = .ok extracted := by
    unfold SdkSpendBuilder.requiredSignatures at hrequired
    simp only [bind_eq_ok, orSpendFailed_eq_ok] at hrequired
    obtain ⟨extracted, hextracted, -⟩ := hrequired
    exact hextracts hextracted
  have hlist : ∀ network, (builder.on network).requiredSignatures sdk drivers coinSpends =
      .ok (own.map (meSignature sdk ((builder.on network).aggSigConstants drivers))) := by
    intro network
    obtain ⟨extracted, hextracted⟩ := hanywhere ((builder.on network).aggSigConstants drivers)
    exact requiredSignatures_of_requiresOne houter hown hextracted
  obtain rfl := Except.ok.inj (hrequired.symm.trans (hlist builder.network))
  have hne : own ≠ [] := by
    rintro rfl
    exact hsome rfl
  refine ⟨own, hown, hne, hanywhere, rfl, fun network => ?_⟩
  rw [hall network, ofResult_eq_ok, finish_iff]
  exact ⟨_, hlist network, hspends, by simpa using hne, rfl⟩

theorem sameDomain_iff (hapart : drivers.chiaL1MainnetAggSigMe ≠ drivers.chiaL1Testnet11AggSigMe)
    {profileIx : ℕ} {master : MasterKey} {network : Network}
    (h : LocalSigner.newCanonical drivers profileIx master network = .ok signer) :
    signer.aggSigMeExtraData = builder.aggSigConstants drivers ↔
      builder.network = network ∨ builder.network = .simulator ∧ network = .testnet := by
  unfold aggSigConstants
  cases network with
  | mainnet =>
    cases h
    cases builder.network <;> simp [LocalSigner.withCanonicalWalletKeys,
      LocalSigner.withAggSigMeExtraData, hapart]
  | testnet =>
    cases h
    cases builder.network <;> simp [LocalSigner.withCanonicalWalletKeys,
      LocalSigner.withAggSigMeExtraData, hapart.symm]
  | simulator => cases h

/-! ## The finished spend and a signer -/

section

variable (houter : OuterRuns sdk tail) {request : BuildRequest} {unsigned : UnsignedSpend}
  {own : List (Coin × AggSig)}
  (hown : FinishedAs sdk drivers overflowChecks builder request unsigned own)
include houter hown

theorem requiredSignaturesFrom_finished (signer : LocalSigner) :
    requiredSignaturesFrom sdk signer unsigned.coinSpends =
      .ok (own.map (meSignature sdk signer.aggSigMeExtraData)) := by
  obtain ⟨extracted, hextracted⟩ := hown.extracts signer.aggSigMeExtraData
  exact requiredSignaturesFrom_of_requiresOne houter hown.requires signer hextracted

/-- The signer signs the engine's list, when it is on the engine's network. -/
theorem signUnsigned_finished {bundle : SignedBundle} :
    signUnsigned sdk signer unsigned = .ok bundle ↔
      verifyBeforeSigning sdk signer unsigned = .ok () ∧
      signer.aggSigMeExtraData = builder.aggSigConstants drivers ∧
      ∃ signatures, List.Forall₂ (fun r signature => ∃ key,
          signer.findKey sdk r.publicKey = some key ∧ signature = sdk.blsSign key r.message)
        unsigned.requiredSignatures signatures ∧
        bundle = ⟨unsigned.coinSpends, sdk.aggregate signatures⟩ := by
  rw [signUnsigned_eq_ok, requiredSignaturesFrom_finished houter hown, hown.required]
  refine and_congr_right fun _ => ?_
  constructor
  · rintro ⟨authoritative, hauthoritative, hperm, signatures, hsignatures, hbundle⟩
    obtain rfl := Except.ok.inj hauthoritative
    rw [genesis_eq_of_perm hown.nonempty hperm]
    exact ⟨rfl, signatures, mapM_signRequired_eq_ok.mp hsignatures, hbundle⟩
  · rintro ⟨hsame, signatures, hsignatures, hbundle⟩
    rw [← hsame] at hsignatures ⊢
    exact ⟨_, rfl, .refl _, signatures, mapM_signRequired_eq_ok.mpr hsignatures, hbundle⟩

theorem refused_finished (hverified : verifyBeforeSigning sdk signer unsigned = .ok ())
    (hother : signer.aggSigMeExtraData ≠ builder.aggSigConstants drivers) :
    signUnsigned sdk signer unsigned = .error (reject
      "engine-supplied required signatures do not match the coin spends (signing-oracle attempt)") := by
  unfold signUnsigned assertRequiredSignaturesMatch require
  rw [hverified, requiredSignaturesFrom_finished houter hown, hown.required]
  have hdiffer : ¬ decide (sort ((own.map (meSignature sdk (builder.aggSigConstants drivers))).map
      signatureKey) = sort ((own.map (meSignature sdk signer.aggSigMeExtraData)).map
        signatureKey)) = true := by
    rw [decide_eq_true_eq, sort_eq_iff]
    intro hperm
    exact hother (genesis_eq_of_perm hown.nonempty hperm).symm
  show ((if _ then _ else _ : WalletResult Unit) >>= _) = _
  rw [if_neg hdiffer]
  rfl

/-- A required message names the network it is bound to. -/
theorem noReplay_finished {coinSpends : List CoinSpend} {genesis : Bytes32}
    {extracted : List SdkRequiredSignature} (hother : genesis ≠ builder.aggSigConstants drivers)
    (h : sdk.fromCoinSpends coinSpends genesis = .ok extracted) {r : RequiredSignature}
    (hr : r ∈ unsigned.requiredSignatures) :
    .bls r.publicKey r.message (some genesis) ∉ extracted := by
  intro hmem
  obtain ⟨parts, rfl, hparts⟩ := houter.required h
  obtain ⟨part, hpart, hmem⟩ := List.mem_flatten.mp hmem
  obtain ⟨spend, -, -, -, outer, -, -, -, hrequired⟩ := exists_mem_left hparts hpart
  obtain ⟨condition, -, hcondition⟩ := exists_mem_left hrequired hmem
  rw [hown.required] at hr
  obtain ⟨p, -, rfl⟩ := List.mem_map.mp hr
  generalize hmessage : (meSignature sdk (builder.aggSigConstants drivers) p).message = message
    at hcondition
  generalize (meSignature sdk (builder.aggSigConstants drivers) p).publicKey = publicKey at hcondition
  cases hcondition with
  | me sig =>
    have hsame : meMessage sdk (builder.aggSigConstants drivers) p =
        meMessage sdk genesis (spend.coin, sig) := hmessage
    exact hother (genesis_eq_of_meMessage hsame).symm
  | other _ hdomain => exact hdomain rfl

end

end Isolated

/-- **Networks are isolated.** -/
theorem network_isolated (sdk : Sdk) (hlayers : sdk.LayersDisjoint)
    (happart : sdk.StandardUnstructural) (hempty : ∀ hash, sdk.decodeAddress "" ≠ .ok hash)
    (tail : CoinSpend → List Condition) (houter : OuterRuns sdk tail)
    (hextracts : sdk.ExtractsOnAny) (drivers : SpendDrivers) (wrap : CatInfo → Bytes32 → Bytes32)
    (hdrivers : drivers.Emit sdk wrap) (overflowChecks : Bool) (builder : SdkSpendBuilder)
    (hinputs : builder.inputs.Honest sdk drivers) (signer : LocalSigner) (request : BuildRequest)
    (hhome : ∀ puzzleHash, builder.inputs.changePuzzleHash request.identity = .ok puzzleHash →
      signer.ownsPuzzleHash sdk puzzleHash = true)
    (unsigned : UnsignedSpend)
    (h : builder.build sdk drivers overflowChecks request = .ok unsigned) :
    Isolated sdk drivers overflowChecks builder signer request unsigned := by
  obtain ⟨own, hown⟩ := exists_finishedAs houter hextracts hdrivers hinputs h
  have hverify := verify_built_iff hdrivers hlayers happart hempty hinputs hhome h
  refine ⟨?_, ?_, ?_, ?_, fun hapart _ _ _ hnew => sameDomain_iff hapart hnew,
    refused_finished houter hown, ?_, ?_⟩
  · simp only [signUnsigned_finished houter hown, hverify]
    constructor
    · rintro ⟨bundle, hverified, hsame, signatures, hsignatures, -⟩
      refine ⟨hverified, hsame, fun r hr => ?_⟩
      obtain ⟨signature, -, key, hkey, -⟩ := exists_mem_right hsignatures hr
      exact Option.isSome_iff_exists.mpr ⟨key, hkey⟩
    · rintro ⟨hverified, hsame, hkeys⟩
      obtain ⟨signatures, hsignatures⟩ := exists_signatures hkeys
      exact ⟨_, hverified, hsame, signatures, hsignatures, rfl⟩
  · intro bundle hbundle
    obtain ⟨-, -, signatures, hsignatures, rfl⟩ := (signUnsigned_finished houter hown).mp hbundle
    refine ⟨rfl, signatures, rfl, hsignatures.imp ?_⟩
    rintro r signature ⟨key, hkey, rfl⟩
    exact ⟨key, LocalSigner.publicKey_of_findKey hkey, rfl⟩
  · rw [hown.required, List.forall₂_map_right_iff]
    refine hown.requires.imp fun spend p hone => ⟨hone.key, p.2.message, ?_⟩
    rw [← hone.coin_eq, ← List.append_assoc]
    rfl
  · intro hwindow r hr
    rw [hown.required] at hr
    obtain ⟨p, hp, rfl⟩ := List.mem_map.mp hr
    obtain ⟨spend, -, hone⟩ := exists_mem_left hown.requires hp
    obtain ⟨puzzleHash, hkey⟩ := hone.key
    obtain ⟨index, hindex, hpublic⟩ := hwindow puzzleHash _ hkey
    have hfound := signer.findKey_isSome sdk hindex
    rw [hpublic] at hfound
    exact hfound
  · intro network
    refine ⟨_, hown.elsewhere network, ?_, ?_⟩
    · rw [hown.required, List.map_map, List.map_map]
      rfl
    · rw [hown.required]
      constructor
      · intro hsame
        exact genesis_eq_of_perm hown.nonempty (.of_eq (congrArg (List.map signatureKey) hsame))
      · intro hsame
        rw [hsame]
  · intro coinSpends genesis extracted hother hextracted r hr
    exact noReplay_finished houter hown hother hextracted hr

namespace Sim

theorem requirements_on_any {spend : CoinSpend} {genesis : Bytes32}
    {required : List SdkRequiredSignature} (h : requirements genesis spend = .ok required)
    (genesis' : Bytes32) : ∃ required', requirements genesis' spend = .ok required' := by
  unfold requirements at h ⊢
  simp only [bind_eq_ok] at h ⊢
  obtain ⟨puzzle, hpuzzle, solution, hsolution, output, hrun, conditions, hconditions, -⟩ := h
  exact ⟨_, puzzle, hpuzzle, solution, hsolution, output, hrun, conditions, hconditions, rfl⟩

theorem extractsOnAny : sim.ExtractsOnAny := by
  intro coinSpends genesis extracted h genesis'
  obtain ⟨parts, hparts, -⟩ := bind_eq_ok.mp h
  have hall : ∃ parts', coinSpends.mapM (requirements genesis') = .ok parts' := by
    rw [mapM_eq_ok] at hparts
    clear h
    induction hparts with
    | nil => exact ⟨[], rfl⟩
    | cons hspend _ ih =>
      obtain ⟨parts', hparts'⟩ := ih
      obtain ⟨required, hrequired⟩ := requirements_on_any hspend genesis'
      exact ⟨required :: parts', mapM_eq_ok.mpr (.cons hrequired (mapM_eq_ok.mp hparts'))⟩
  obtain ⟨parts', hparts'⟩ := hall
  exact ⟨_, bind_eq_ok.mpr ⟨parts', hparts', rfl⟩⟩

/-- The wallet on testnet. -/
def testnetWallet : LocalSigner := { wallet with aggSigMeExtraData := .rep 0x37 }

theorem send_spendsExactly : oneCoin.SpendsExactly sim (sendTo (.rep 0x42)) := by
  intro coins hcoins
  cases hcoins
  exact ⟨1, by decide, by decide⟩

theorem oneCoin_window (puzzleHash : Bytes32) (key : PublicKey)
    (h : oneCoin.inputs.syntheticKey puzzleHash = some key) :
    ∃ index < wallet.addressGap, wallet.syntheticPublicKey sim index = key := by
  have h : (if puzzleHash = home then some walletKey else none) = some key := h
  split_ifs at h
  cases h
  exact ⟨0, by decide, rfl⟩

end Sim

open Sim in
/-- A send built for mainnet is signed by the mainnet signer, not by the testnet one. -/
theorem network_isolated_send : ∃ unsigned,
    oneCoin.build sim spendDrivers true (sendTo (.rep 0x42)) = .ok unsigned ∧
      (∃ bundle, signUnsigned sim wallet unsigned = .ok bundle) ∧
      ¬ ∃ bundle, signUnsigned sim testnetWallet unsigned = .ok bundle := by
  obtain ⟨unsigned, hbuilt⟩ := exists_built (.rep 0x42) (by decide +kernel)
  have hisolated : ∀ signer : LocalSigner, signer.ownsPuzzleHash sim home = true →
      Isolated sim spendDrivers true oneCoin signer (sendTo (.rep 0x42)) unsigned := by
    intro signer hhome
    refine network_isolated sim layersDisjoint standardUnstructural decodeAddress_empty simTail
      outerRuns extractsOnAny spendDrivers wrap spendDrivers_emit true oneCoin oneCoin_honest signer _ ?_ _ hbuilt
    rintro puzzleHash ⟨⟩
    exact hhome
  have hmainnet := hisolated wallet wallet_owns_home
  refine ⟨unsigned, hbuilt, ?_, ?_⟩
  · refine hmainnet.signed.mpr ⟨⟨send_spendsExactly, ?_, ?_⟩, rfl, hmainnet.window oneCoin_window⟩
    · exact fun hstructural => absurd (destination_sendTo hstructural) (by decide)
    · exact fun hhome => absurd (destination_sendTo hhome) (by decide)
  · rw [(hisolated testnetWallet wallet_owns_home).signed]
    rintro ⟨-, hsame, -⟩
    cases hsame

end DigWallet
