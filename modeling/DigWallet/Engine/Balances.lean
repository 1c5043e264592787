import DigWallet.Engine.Accounts

/-!
# DigWallet.Engine.Balances — every plan pays its request and balances

`Pays` is an output of the summary, created.  `balanced_of_plan`: a plan creates the outputs of its
request and, beside them, only coins at the change puzzle hash; it reserves the fee; where its totals
are `u64`s it conserves every denomination.  `SpendsExactly` says of the inputs when they are.
-/

namespace DigWallet

open Totals SdkSpendBuilder

/-! ## The inputs -/

/-- What the provider of the inputs promises: a key controls its puzzle hash, the CATs of an asset are
of that asset and have the puzzle hash of their layer. -/
structure SpendInputs.Honest (sdk : Sdk) (drivers : SpendDrivers) (inputs : SpendInputs) : Prop where
  key : ∀ {puzzleHash key}, inputs.syntheticKey puzzleHash = some key →
    sdk.standardCurryTreeHash key = puzzleHash
  catHash : ∀ {identity assetId cats}, inputs.spendableCat identity assetId = .ok cats →
    ∀ cat ∈ cats, cat.coin.puzzleHash = drivers.catPuzzleHash cat.info
  catAsset : ∀ {identity assetId cats}, inputs.spendableCat identity assetId = .ok cats →
    ∀ cat ∈ cats, normalizeAsset assetId = hexEncode cat.info.assetId.bytes

/-- The CATs listed for an asset are of one asset. -/
theorem SpendInputs.Honest.one_asset {sdk : Sdk} {drivers : SpendDrivers} {inputs : SpendInputs}
    (hinputs : inputs.Honest sdk drivers) {identity : IdentityRef} {assetId : AssetId}
    {cats : List Cat} (hcats : inputs.spendableCat identity assetId = .ok cats) {lead : Cat}
    (hlead : lead ∈ cats) : ∀ cat ∈ cats, cat.info.assetId = lead.info.assetId := by
  intro cat hcat
  have htext := (hinputs.catAsset hcats cat hcat).symm.trans (hinputs.catAsset hcats lead hlead)
  exact Bytes32.ext (hexEncode_injective htext)

namespace BuildRequest

def identity : BuildRequest → IdentityRef
  | sendXch r => r.identity
  | sendCat r => r.identity
  | multiSendXch r => r.identity
  | multiSendCat r => r.identity
  | combineXch r => r.identity
  | splitXch r => r.identity

def fee (request : BuildRequest) : UInt64 := request.summary.fee.mojos

end BuildRequest

section Plan

variable (sdk : Sdk) (drivers : SpendDrivers) (overflowChecks : Bool) (builder : SdkSpendBuilder)

/-- The coins of one identity reach `target` without passing `u64::MAX`. -/
def SdkSpendBuilder.XchReaches (identity : IdentityRef) (target : ℕ) : Prop :=
  ∀ coins, builder.inputs.spendableXch identity = .ok coins → ReachesExactly sdk coins target

/-- The totals a CAT send takes are `u64`s. -/
def SdkSpendBuilder.CatSpendsExactly (identity : IdentityRef) (assetId : AssetId) (fee : UInt64) :
    Prop :=
  (∀ cats, builder.inputs.spendableCat identity assetId = .ok cats →
    total (coinAmounts (cats.map Cat.coin)) < 2 ^ 64) ∧
  (0 < fee → builder.XchReaches sdk identity fee.toNat)

/-- The totals a builder takes are `u64`s. -/
def SdkSpendBuilder.SpendsExactly : BuildRequest → Prop
  | .sendXch r => builder.XchReaches sdk r.identity (r.amount.mojos.toNat + r.fee.mojos.toNat)
  | .multiSendXch r => builder.XchReaches sdk r.identity
      (total (r.legs.map fun leg => leg.amount.mojos) + r.fee.mojos.toNat)
  | .sendCat r => builder.CatSpendsExactly sdk r.identity r.assetId r.fee.mojos
  | .multiSendCat r => builder.CatSpendsExactly sdk r.identity r.assetId r.fee.mojos
  | .combineXch r => ∀ coins, builder.inputs.spendableXch r.identity = .ok coins →
      total (coinAmounts ((orderedHighValueFirst sdk coins).take (max builder.coinCap 2))) < 2 ^ 64
  | .splitXch _ => True

/-- An output of a summary, created. -/
structure Pays (output : SpendOutput) (created : DecodedOutput) : Prop where
  decoded : sdk.decodeAddress output.address.text = .ok created.puzzleHash
  amount : output.amount.mojos = created.amount
  asset : reviewedAsset output.assetId = derivedAsset created.assetId

/-- What a plan does with the wallet's coins. -/
structure Balanced (request : BuildRequest) (plan : List PlannedSpend) : Prop where
  outputs : ∃ pays home, plannedOutputs plan = pays ++ home ∧
    List.Forall₂ (Pays sdk) request.summary.outputs pays ∧
    ∀ output ∈ home, builder.inputs.changePuzzleHash request.identity = .ok output.puzzleHash
  fee : plannedFee plan = request.fee.toNat
  ordinary : ∀ planned ∈ plan, ∀ c ∈ planned.conditions, Ordinary c
  cats : ∀ {spent conditions}, .cat spent conditions ∈ plan → ∃ assetId cats,
    builder.inputs.spendableCat request.identity assetId = .ok cats ∧ spent ∈ cats ∧
      reserved conditions = 0
  exact : (∀ asset?, plannedIn asset? plan < 2 ^ 64) ↔ builder.SpendsExactly sdk request
  conserves : (∀ asset?, plannedIn asset? plan < 2 ^ 64) → ∀ asset?,
    plannedIn asset? plan = plannedOut asset? plan + if asset? = none then request.fee.toNat else 0

variable {sdk drivers overflowChecks builder}

/-! ## What the helpers return -/

theorem decodeAddress_eq_ok {address : Address} {puzzleHash : Bytes32} :
    decodeAddress sdk address = .ok puzzleHash ↔ sdk.decodeAddress address.text = .ok puzzleHash := by
  unfold decodeAddress
  cases sdk.decodeAddress address.text <;> simp

theorem toNat_of_checkedAdd {a b c : UInt64} (h : checkedAdd a b = some c) :
    c.toNat = a.toNat + b.toNat := by
  unfold checkedAdd at h
  split_ifs at h with hfits
  cases h
  exact toNat_add_of_lt hfits

theorem toNat_of_checkedTarget {amount fee target : UInt64}
    (h : checkedTarget amount fee = .ok target) :
    target.toNat = amount.toNat + fee.toNat ∧ 0 < target := by
  unfold checkedTarget at h
  cases hadd : checkedAdd amount fee with
  | none =>
    rw [hadd] at h
    cases h
  | some sum =>
    simp only [hadd] at h
    split_ifs at h with hzero
    cases h
    exact ⟨toNat_of_checkedAdd hadd, UInt64.pos_iff_ne_zero.mpr hzero⟩

/-- Induction on the legs, the running total generalized. -/
theorem toNat_of_totalOf {legs : List SendLeg} {payout : UInt64} (h : totalOf legs = .ok payout) :
    payout.toNat = total (legs.map fun leg => leg.amount.mojos) := by
  unfold totalOf at h
  have hgen : payout.toNat = (0 : UInt64).toNat + total (legs.map fun leg => leg.amount.mojos) := by
    generalize (0 : UInt64) = acc at h ⊢
    induction legs generalizing acc with
    | nil =>
      cases h
      simp
    | cons leg legs ih =>
      rw [List.foldlM_cons, bind_eq_ok] at h
      obtain ⟨sum, hsum, hlegs⟩ := h
      cases hadd : checkedAdd acc leg.amount.mojos with
      | none =>
        rw [hadd] at hsum
        cases hsum
      | some acc' =>
        rw [hadd] at hsum
        cases hsum
        rw [ih sum hlegs, toNat_of_checkedAdd hadd, List.map_cons, total_cons, Nat.add_assoc]
  rw [hgen]
  exact Nat.zero_add _

/-- Each leg, decoded, with a positive amount. -/
theorem resolveLegs_eq_ok {legs : List SendLeg} {pays : Pairs} (h : resolveLegs sdk legs = .ok pays) :
    List.Forall₂ (fun (leg : SendLeg) (pair : Bytes32 × UInt64) =>
      sdk.decodeAddress leg.toAddress.text = .ok pair.1 ∧ leg.amount.mojos = pair.2 ∧ 0 < pair.2)
      legs pays ∧ legs ≠ [] := by
  unfold resolveLegs at h
  split_ifs at h with hempty
  refine ⟨(mapM_eq_ok.mp h).imp fun leg pair hleg => ?_, by simpa using hempty⟩
  unfold resolveLeg at hleg
  split_ifs at hleg with hzero
  simp only [bind_eq_ok, Except.ok.injEq] at hleg
  obtain ⟨puzzleHash, hdecode, rfl⟩ := hleg
  exact ⟨decodeAddress_eq_ok.mp hdecode, rfl, UInt64.pos_iff_ne_zero.mpr hzero⟩

theorem pairsTotal_of_resolveLegs {legs : List SendLeg} {pays : Pairs}
    (h : resolveLegs sdk legs = .ok pays) :
    pairsTotal pays = total (legs.map fun leg => leg.amount.mojos) := by
  have hall := (resolveLegs_eq_ok h).1
  clear h
  unfold pairsTotal
  congr 1
  induction hall with
  | nil => rfl
  | cons hleg _ ih => rw [List.map_cons, List.map_cons, hleg.2.1, ih]

theorem pairsTotal_pos_of_resolveLegs {legs : List SendLeg} {pays : Pairs}
    (h : resolveLegs sdk legs = .ok pays) : 0 < pairsTotal pays := by
  obtain ⟨hall, hne⟩ := resolveLegs_eq_ok h
  cases hall with
  | nil => exact absurd rfl hne
  | cons hleg _ =>
    have hpos := UInt64.lt_iff_toNat_lt.mp hleg.2.2
    rw [pairsTotal, List.map_cons, total_cons]
    exact Nat.lt_of_lt_of_le hpos (Nat.le_add_right _ _)

/-- A multi-send has a positive target. -/
theorem target_pos_of_resolveLegs {legs : List SendLeg} {pays : Pairs} {payout fee target : UInt64}
    (hpays : resolveLegs sdk legs = .ok pays) (hpayout : totalOf legs = .ok payout)
    (htarget : checkedAdd payout fee = some target) : 0 < target := by
  have hpos := pairsTotal_pos_of_resolveLegs hpays
  rw [pairsTotal_of_resolveLegs hpays, ← toNat_of_totalOf hpayout] at hpos
  refine UInt64.lt_iff_toNat_lt.mpr ?_
  rw [toNat_of_checkedAdd htarget]
  exact Nat.lt_of_lt_of_le hpos (Nat.le_add_right _ _)

/-- The outputs of a multi-send are its legs, decoded. -/
theorem pays_of_resolveLegs {legs : List SendLeg} {pays : Pairs} {assetId : Option AssetId}
    {asset? : Option Bytes32} (hasset : reviewedAsset assetId = derivedAsset asset?)
    (h : resolveLegs sdk legs = .ok pays) :
    List.Forall₂ (Pays sdk) (legOutputs legs assetId) (outputsOf asset? pays) := by
  unfold legOutputs outputsOf
  rw [List.forall₂_map_left_iff, List.forall₂_map_right_iff]
  exact (resolveLegs_eq_ok h).1.imp fun leg pair hleg => ⟨hleg.1, hleg.2.1, hasset⟩

theorem selects_eq_some {coins selected : List Coin} {target change : UInt64}
    (h : builder.selects sdk overflowChecks coins target = some (selected, change)) :
    ∃ sum, Selects sdk overflowChecks coins target selected sum ∧
      subU64 overflowChecks sum target = some change := by
  obtain ⟨sum, houtcome⟩ := selectForSpend_of_selects h
  obtain ⟨hselects, hchange⟩ := selectForSpend_selected houtcome
  exact ⟨sum, hselects, hchange⟩

/-- A selection with an exact total is the target and the change. -/
theorem Selects.total_eq {coins selected : List Coin} {target sum change : UInt64}
    (h : Selects sdk overflowChecks coins target selected sum)
    (hchange : subU64 overflowChecks sum target = some change)
    (hfits : total (coinAmounts selected) < 2 ^ 64) :
    total (coinAmounts selected) = target.toNat + change.toNat := by
  have hsum := toNat_of_sumU64 h.sum_eq hfits
  have hreached := UInt64.le_iff_toNat_le.mp h.reached
  rw [toNat_of_subU64 hchange h.reached]
  omega

/-! ## Plans of one leg and of two -/

/-- A plan over XCH coins alone. -/
theorem balanced_of_xch {request : BuildRequest} {plan : List PlannedSpend} {coins : List Coin}
    (pays : Pairs) {own : Pairs} (hleg : PlanLeg none coins (pays ++ own) request.fee.toNat plan)
    (hpays : List.Forall₂ (Pays sdk) request.summary.outputs (outputsOf none pays))
    (hown : ∀ pair ∈ own, builder.inputs.changePuzzleHash request.identity = .ok pair.1)
    (hexact : total (coinAmounts coins) < 2 ^ 64 ↔ builder.SpendsExactly sdk request)
    (hbalance : total (coinAmounts coins) < 2 ^ 64 →
      total (coinAmounts coins) = pairsTotal pays + pairsTotal own + request.fee.toNat) :
    Balanced sdk builder request plan := by
  have hfits : (∀ asset?, plannedIn asset? plan < 2 ^ 64) ↔ total (coinAmounts coins) < 2 ^ 64 := by
    simp only [hleg.amountIn]
    constructor
    · intro h
      simpa using h none
    · intro h asset?
      split_ifs <;> omega
  refine ⟨⟨outputsOf none pays, outputsOf none own, ?_, hpays, ?_⟩, hleg.reserved, hleg.ordinary,
    ?_, hfits.trans hexact, ?_⟩
  · rw [hleg.outputs, outputsOf, List.map_append]
    rfl
  · exact forall_mem_outputsOf (builder.inputs.changePuzzleHash request.identity = .ok ·) hown
  · intro spent conditions hmem
    cases hleg.asset_eq _ hmem
  · intro h asset?
    have hbalance := hbalance (hfits.mp h)
    rw [hleg.amountIn, hleg.amountOut, pairsTotal_append]
    by_cases hasset : asset? = none
    · subst hasset
      simpa using hbalance
    · rw [if_neg (Ne.symm hasset), if_neg (Ne.symm hasset), if_neg hasset]

/-- What a CAT leg and its fee leg bring in, asset by asset. -/
theorem plannedIn_catLegs {catLeg feeLeg : List PlannedSpend} {asset : Bytes32}
    {catCoins feeCoins : List Coin} {pairs feePairs : Pairs} {fee fee' : ℕ}
    (hleg : PlanLeg (some asset) catCoins pairs fee catLeg)
    (hfee : PlanLeg none feeCoins feePairs fee' feeLeg) (asset? : Option Bytes32) :
    plannedIn asset? (catLeg ++ feeLeg) =
      (if some asset = asset? then total (coinAmounts catCoins) else 0) +
        if none = asset? then total (coinAmounts feeCoins) else 0 := by
  rw [plannedIn_append, hleg.amountIn, hfee.amountIn]

theorem fits_catLegs {catLeg feeLeg : List PlannedSpend} {asset : Bytes32}
    {catCoins feeCoins : List Coin} {pairs feePairs : Pairs} {fee fee' : ℕ}
    (hleg : PlanLeg (some asset) catCoins pairs fee catLeg)
    (hfee : PlanLeg none feeCoins feePairs fee' feeLeg) :
    (∀ asset?, plannedIn asset? (catLeg ++ feeLeg) < 2 ^ 64) ↔
      total (coinAmounts catCoins) < 2 ^ 64 ∧ total (coinAmounts feeCoins) < 2 ^ 64 := by
  simp only [plannedIn_catLegs hleg hfee]
  constructor
  · intro h
    exact ⟨by simpa using h (some asset), by simpa using h none⟩
  · rintro ⟨hcat, hxch⟩ asset?
    cases asset? with
    | none => simpa using hxch
    | some other =>
      simp only [reduceCtorEq, if_false, Nat.add_zero]
      split_ifs <;> omega

/-- A plan over the CATs of one asset, with its fee on XCH coins. -/
theorem balanced_of_cat {request : BuildRequest} {catLeg feeLeg : List PlannedSpend} {asset : Bytes32}
    {assetId : AssetId} {cats : List Cat} {feeCoins : List Coin} {pays own feeOwn : Pairs}
    (hcats : builder.inputs.spendableCat request.identity assetId = .ok cats)
    (hmem : ∀ {spent conditions}, .cat spent conditions ∈ catLeg → spent ∈ cats)
    (hleg : PlanLeg (some asset) (cats.map Cat.coin) (pays ++ own) 0 catLeg)
    (hfee : PlanLeg none feeCoins feeOwn request.fee.toNat feeLeg)
    (hpays : List.Forall₂ (Pays sdk) request.summary.outputs (outputsOf (some asset) pays))
    (hown : ∀ pair ∈ own ++ feeOwn,
      builder.inputs.changePuzzleHash request.identity = .ok pair.1)
    (hexact : (total (coinAmounts (cats.map Cat.coin)) < 2 ^ 64 ∧
      total (coinAmounts feeCoins) < 2 ^ 64) ↔ builder.SpendsExactly sdk request)
    (hbalance : total (coinAmounts (cats.map Cat.coin)) < 2 ^ 64 →
      total (coinAmounts (cats.map Cat.coin)) = pairsTotal pays + pairsTotal own)
    (hfeeBalance : total (coinAmounts feeCoins) < 2 ^ 64 →
      total (coinAmounts feeCoins) = pairsTotal feeOwn + request.fee.toNat) :
    Balanced sdk builder request (catLeg ++ feeLeg) := by
  have hfits := fits_catLegs hleg hfee
  refine ⟨⟨outputsOf (some asset) pays, outputsOf (some asset) own ++ outputsOf none feeOwn, ?_,
    hpays, ?_⟩, ?_, ?_, ?_, hfits.trans hexact, ?_⟩
  · rw [plannedOutputs_append, hleg.outputs, hfee.outputs, outputsOf, List.map_append,
      List.append_assoc]
    rfl
  · obtain ⟨hcatOwn, hfeeOwn⟩ := List.forall_mem_append.mp hown
    exact List.forall_mem_append.mpr
      ⟨forall_mem_outputsOf (builder.inputs.changePuzzleHash request.identity = .ok ·) hcatOwn,
        forall_mem_outputsOf (builder.inputs.changePuzzleHash request.identity = .ok ·) hfeeOwn⟩
  · rw [plannedFee_append, hleg.reserved, hfee.reserved, Nat.zero_add]
  · exact List.forall_mem_append.mpr ⟨hleg.ordinary, hfee.ordinary⟩
  · intro spent conditions hspent
    rcases List.mem_append.mp hspent with hspent | hspent
    · exact ⟨assetId, cats, hcats, hmem hspent, hleg.unreserved hspent⟩
    · cases hfee.asset_eq _ hspent
  · intro h asset?
    obtain ⟨hcat, hxch⟩ := hfits.mp h
    have hbalance := hbalance hcat
    have hfeeBalance := hfeeBalance hxch
    rw [plannedIn_catLegs hleg hfee, plannedOut_append, hleg.amountOut, hfee.amountOut, pairsTotal_append]
    cases asset? with
    | none => simpa using hfeeBalance
    | some other =>
      simp only [reduceCtorEq, if_false, Nat.add_zero]
      split_ifs <;> omega

/-! ## The payments -/

theorem xchReaches_iff {identity : IdentityRef} {coins : List Coin} {target : ℕ}
    (h : builder.inputs.spendableXch identity = .ok coins) :
    builder.XchReaches sdk identity target ↔ ReachesExactly sdk coins target := by
  constructor
  · intro hreaches
    exact hreaches coins h
  · intro hreaches coins' h'
    obtain rfl := Except.ok.inj (h.symm.trans h')
    exact hreaches

theorem payXch_eq_some {identity : IdentityRef} {pays : Pairs} {target fee : UInt64}
    {plan : List PlannedSpend}
    (h : builder.payXch sdk drivers overflowChecks identity pays target fee = some plan) :
    ∃ changePh coins selected change paid, builder.inputs.changePuzzleHash identity = .ok changePh ∧
      builder.inputs.spendableXch identity = .ok coins ∧
      builder.selects sdk overflowChecks coins target = some (selected, change) ∧
      payments drivers pays = some paid ∧
      plan = xchPlan sdk selected (paid ++ changeCondition changePh change ++ feeCondition fee) := by
  unfold payXch fundXch at h
  simp only [Option.bind_eq_bind, Option.bind_eq_some_iff, toOption_eq_some, Option.some.injEq] at h
  obtain ⟨_, ⟨changePh, hchangePh, coins, hcoins, ⟨selected, change⟩, hselects, rfl⟩, paid, hpaid, rfl⟩ :=
    h
  exact ⟨changePh, coins, selected, change, paid, hchangePh, hcoins, hselects, hpaid, rfl⟩

theorem payCat_eq_some {identity : IdentityRef} {assetId : AssetId} {pays : Pairs}
    {payout fee : UInt64} {plan : List PlannedSpend}
    (h : builder.payCat sdk drivers overflowChecks identity assetId pays payout fee = some plan) :
    ∃ changePh cats catTotal paid feeLeg,
      builder.inputs.changePuzzleHash identity = .ok changePh ∧
      builder.inputs.spendableCat identity assetId = .ok cats ∧
      sumU64 overflowChecks (coinAmounts (cats.map Cat.coin)) = some catTotal ∧
      cats ≠ [] ∧ payout ≤ catTotal ∧ payments drivers pays = some paid ∧
      builder.feePlan sdk overflowChecks identity fee changePh cats = some feeLeg ∧
      plan = catPlan cats (paid ++ changeCondition changePh (catTotal - payout)) ++ feeLeg := by
  unfold payCat fundCat at h
  simp only [Option.bind_eq_bind, Option.bind_eq_some_iff, toOption_eq_some] at h
  obtain ⟨funding, ⟨changePh, hchangePh, cats, hcats, catTotal, hcatTotal, hfunded⟩, paid, hpaid,
    feeLeg, hfeeLeg, h⟩ := h
  split_ifs at hfunded with hcovered
  cases hfunded
  cases h
  exact ⟨changePh, cats, catTotal, paid, feeLeg, hchangePh, hcats, hcatTotal, hcovered.1, hcovered.2,
    hpaid, hfeeLeg, rfl⟩

/-- The fee leg: none without a fee, else XCH coins that pay it. -/
theorem feePlan_eq_some {identity : IdentityRef} {fee : UInt64} {changePh : Bytes32}
    {cats : List Cat} {feeLeg : List PlannedSpend}
    (h : builder.feePlan sdk overflowChecks identity fee changePh cats = some feeLeg) :
    fee = 0 ∧ feeLeg = [] ∨ 0 < fee ∧ ∃ lead coins selected change, cats.head? = some lead ∧
      builder.inputs.spendableXch identity = .ok coins ∧
      builder.selects sdk overflowChecks coins fee = some (selected, change) ∧
      feeLeg = xchPlan sdk selected (.reserveFee fee ::
        .assertConcurrentSpend (sdk.coinId lead.coin) :: changeCondition changePh change) := by
  unfold feePlan at h
  by_cases hfee : 0 < fee
  · rw [if_pos hfee] at h
    simp only [Option.bind_eq_bind, Option.bind_eq_some_iff, toOption_eq_some] at h
    obtain ⟨lead, hlead, coins, hcoins, ⟨selected, change⟩, hselects, h⟩ := h
    cases h
    exact .inr ⟨hfee, lead, coins, selected, change, hlead, hcoins, hselects, rfl⟩
  · rw [if_neg hfee] at h
    cases h
    exact .inl ⟨by simpa using hfee, rfl⟩

/-- A payment from XCH coins. -/
theorem balanced_of_payXch (request : BuildRequest) {plan : List PlannedSpend} {pays : Pairs}
    {target : UInt64} (h : builder.payXch sdk drivers overflowChecks request.identity pays target
      request.fee = some plan)
    (htarget : target.toNat = pairsTotal pays + request.fee.toNat) (hpos : 0 < target)
    (hpays : List.Forall₂ (Pays sdk) request.summary.outputs (outputsOf none pays))
    (hexact : builder.SpendsExactly sdk request ↔
      builder.XchReaches sdk request.identity target.toNat) :
    Balanced sdk builder request plan := by
  obtain ⟨changePh, coins, selected, change, paid, hchangePh, hcoins, hselects, hpaid, rfl⟩ :=
    payXch_eq_some h
  obtain ⟨sum, hselects, hchange⟩ := selects_eq_some hselects
  have hcarries := Carries.paid hpaid changePh change request.fee
  refine balanced_of_xch pays (.xchPlan sdk (hselects.ne_nil hpos) hcarries) hpays ?_ ?_ ?_
  · intro pair hpair
    rw [mem_changePairs hpair]
    exact hchangePh
  · rw [hexact, xchReaches_iff hcoins]
    exact hselects.fits_iff
  · intro hfits
    rw [hselects.total_eq hchange hfits, pairsTotal_changePairs, htarget]
    omega

/-- The fee leg, over its own XCH coins. -/
theorem planLeg_of_feePlan {identity : IdentityRef} {fee : UInt64} {changePh : Bytes32}
    {cats : List Cat} {feeLeg : List PlannedSpend}
    (h : builder.feePlan sdk overflowChecks identity fee changePh cats = some feeLeg) :
    ∃ feeCoins change, PlanLeg none feeCoins (changePairs changePh change) fee.toNat feeLeg ∧
      (total (coinAmounts feeCoins) < 2 ^ 64 ↔
        (0 < fee → builder.XchReaches sdk identity fee.toNat)) ∧
      (total (coinAmounts feeCoins) < 2 ^ 64 →
        total (coinAmounts feeCoins) = change.toNat + fee.toNat) := by
  obtain ⟨rfl, rfl⟩ | ⟨hfee, lead, coins, selected, change, -, hcoins, hselects, rfl⟩ :=
    feePlan_eq_some h
  · exact ⟨[], 0, .nil, by simp, by simp⟩
  · obtain ⟨sum, hselects, hchange⟩ := selects_eq_some hselects
    have hcarries := Carries.catFee fee (sdk.coinId lead.coin) changePh change
    refine ⟨selected, change, .xchPlan sdk (hselects.ne_nil hfee) hcarries, ?_, ?_⟩
    · rw [hselects.fits_iff, xchReaches_iff hcoins]
      simp [hfee]
    · intro hfits
      rw [hselects.total_eq hchange hfits, Nat.add_comm]

/-- A payment from the CATs of an asset. -/
theorem balanced_of_payCat (hinputs : builder.inputs.Honest sdk drivers) (request : BuildRequest)
    {plan : List PlannedSpend} {pays : Pairs} {assetId : AssetId} {payout : UInt64}
    (h : builder.payCat sdk drivers overflowChecks request.identity assetId pays payout
      request.fee = some plan)
    (hpayout : payout.toNat = pairsTotal pays)
    (hpays : ∀ asset : Bytes32, normalizeAsset assetId = hexEncode asset.bytes →
      List.Forall₂ (Pays sdk) request.summary.outputs (outputsOf (some asset) pays))
    (hexact : builder.SpendsExactly sdk request ↔
      builder.CatSpendsExactly sdk request.identity assetId request.fee) :
    Balanced sdk builder request plan := by
  obtain ⟨changePh, cats, catTotal, paid, feeLeg, hchangePh, hcats, hcatTotal, hne, hcovers, hpaid,
    hfeeLeg, rfl⟩ := payCat_eq_some h
  obtain ⟨lead, hlead⟩ := List.exists_mem_of_ne_nil cats hne
  have hasset := hinputs.catAsset hcats
  have hassets := hinputs.one_asset hcats hlead
  obtain ⟨feeCoins, feeChange, hfee, hfeeExact, hfeeBalance⟩ := planLeg_of_feePlan hfeeLeg
  have hcarries := (Carries.payments hpaid).append (.change changePh (catTotal - payout))
  rw [Nat.zero_add] at hcarries
  refine balanced_of_cat hcats ?_ (.catPlan hne hassets hcarries) hfee (hpays _ (hasset lead hlead))
    ?_ ?_ ?_ ?_
  · intro spent conditions hspent
    cases cats with
    | nil => cases hspent
    | cons first rest =>
      rcases List.mem_cons.mp hspent with heq | hrest
      · cases heq
        exact List.mem_cons_self
      · obtain ⟨cat, hcat, heq⟩ := List.mem_map.mp hrest
        cases heq
        exact List.mem_cons_of_mem _ hcat
  · intro pair hpair
    rcases List.mem_append.mp hpair with hpair | hpair
    · rw [mem_changePairs hpair]
      exact hchangePh
    · rw [mem_changePairs hpair]
      exact hchangePh
  · rw [hexact, SdkSpendBuilder.CatSpendsExactly, hfeeExact]
    refine and_congr_left fun _ => ⟨fun hfits cats' hcats' => ?_, fun hfits => hfits cats hcats⟩
    obtain rfl := Except.ok.inj (hcats.symm.trans hcats')
    exact hfits
  · intro hfits
    have hsum := toNat_of_sumU64 hcatTotal hfits
    have hle := UInt64.le_iff_toNat_le.mp hcovers
    have hsub : (catTotal - payout).toNat = catTotal.toNat - payout.toNat :=
      UInt64.toNat_sub_of_le _ _ hcovers
    rw [pairsTotal_changePairs, hsub, ← hpayout]
    omega
  · intro hfits
    rw [hfeeBalance hfits, pairsTotal_changePairs]

/-! ## Every plan -/

theorem reviewedAsset_some {assetId : AssetId} {asset : Bytes32}
    (h : normalizeAsset assetId = hexEncode asset.bytes) :
    reviewedAsset (some assetId) = derivedAsset (some asset) :=
  congrArg some h

/-- A single payment, decoded. -/
theorem pays_single {address : Address} {amount : UInt64} {destination : Bytes32}
    {assetId : Option AssetId} {asset? : Option Bytes32}
    (hdecode : decodeAddress sdk address = .ok destination)
    (hasset : reviewedAsset assetId = derivedAsset asset?) :
    List.Forall₂ (Pays sdk) [⟨address, ⟨amount⟩, assetId⟩] (outputsOf asset? [(destination, amount)]) :=
  .cons ⟨decodeAddress_eq_ok.mp hdecode, rfl, hasset⟩ .nil

theorem pairsTotal_single (destination : Bytes32) (amount : UInt64) :
    pairsTotal [(destination, amount)] = amount.toNat := by
  simp [pairsTotal]

/-! ### What each request's plan is made of -/

theorem sendXchPlan_eq_some {r : SendXchRequest} {plan : List PlannedSpend}
    (h : builder.plan sdk drivers overflowChecks (.sendXch r) = some plan) :
    ∃ target destination, checkedTarget r.amount.mojos r.fee.mojos = .ok target ∧
      decodeAddress sdk r.toAddress = .ok destination ∧
      builder.payXch sdk drivers overflowChecks r.identity [(destination, r.amount.mojos)] target
        r.fee.mojos = some plan := by
  simp only [SdkSpendBuilder.plan, Option.bind_eq_bind, Option.bind_eq_some_iff,
    toOption_eq_some] at h
  obtain ⟨target, htarget, destination, hdestination, h⟩ := h
  exact ⟨target, destination, htarget, hdestination, h⟩

theorem sendCatPlan_eq_some {r : SendCatRequest} {plan : List PlannedSpend}
    (h : builder.plan sdk drivers overflowChecks (.sendCat r) = some plan) :
    r.amount.mojos ≠ 0 ∧ ∃ destination, decodeAddress sdk r.toAddress = .ok destination ∧
      builder.payCat sdk drivers overflowChecks r.identity r.assetId
        [(destination, r.amount.mojos)] r.amount.mojos r.fee.mojos = some plan := by
  simp only [SdkSpendBuilder.plan] at h
  split_ifs at h with hzero
  simp only [Option.bind_eq_bind, Option.bind_eq_some_iff, toOption_eq_some] at h
  exact ⟨hzero, h⟩

theorem multiSendXchPlan_eq_some {r : MultiSendXchRequest} {plan : List PlannedSpend}
    (h : builder.plan sdk drivers overflowChecks (.multiSendXch r) = some plan) :
    ∃ destinations payout target, resolveLegs sdk r.legs = .ok destinations ∧
      totalOf r.legs = .ok payout ∧ checkedAdd payout r.fee.mojos = some target ∧
      builder.payXch sdk drivers overflowChecks r.identity destinations target r.fee.mojos =
        some plan := by
  simp only [SdkSpendBuilder.plan, Option.bind_eq_bind, Option.bind_eq_some_iff,
    toOption_eq_some] at h
  obtain ⟨destinations, hdestinations, payout, hpayout, target, htarget, h⟩ := h
  exact ⟨destinations, payout, target, hdestinations, hpayout, htarget, h⟩

theorem multiSendCatPlan_eq_some {r : MultiSendCatRequest} {plan : List PlannedSpend}
    (h : builder.plan sdk drivers overflowChecks (.multiSendCat r) = some plan) :
    ∃ destinations payout, resolveLegs sdk r.legs = .ok destinations ∧
      totalOf r.legs = .ok payout ∧
      builder.payCat sdk drivers overflowChecks r.identity r.assetId destinations payout
        r.fee.mojos = some plan := by
  simp only [SdkSpendBuilder.plan, Option.bind_eq_bind, Option.bind_eq_some_iff,
    toOption_eq_some] at h
  obtain ⟨destinations, hdestinations, payout, hpayout, h⟩ := h
  exact ⟨destinations, payout, hdestinations, hpayout, h⟩

theorem combinePlan_eq_some {r : CombineXchRequest} {plan : List PlannedSpend}
    (h : builder.plan sdk drivers overflowChecks (.combineXch r) = some plan) :
    ∃ changePh coins selected sum, builder.inputs.changePuzzleHash r.identity = .ok changePh ∧
      builder.inputs.spendableXch r.identity = .ok coins ∧
      selected = (orderedHighValueFirst sdk coins).take (max builder.coinCap 2) ∧ selected ≠ [] ∧
      sumU64 overflowChecks (coinAmounts selected) = some sum ∧ r.fee.mojos ≤ sum ∧
      plan = xchPlan sdk selected
        (.createCoin ⟨changePh, sum - r.fee.mojos, none⟩ :: feeCondition r.fee.mojos) := by
  unfold SdkSpendBuilder.plan at h
  simp only [Option.bind_eq_bind, Option.bind_eq_some_iff, toOption_eq_some] at h
  obtain ⟨changePh, hchangePh, coins, hcoins, selected, hselected, sum, hsum, merged, hmerged, h⟩ := h
  cases h
  unfold selectForConsolidation at hselected
  split_ifs at hselected with hfew
  cases hselected
  obtain ⟨hmerged, -⟩ := Option.filter_eq_some_iff.mp hmerged
  unfold checkedSub at hmerged
  split_ifs at hmerged with hcovers
  cases hmerged
  refine ⟨changePh, coins, _, sum, hchangePh, hcoins, rfl, fun hnil => ?_, hsum, hcovers, rfl⟩
  have hlength := (orderedHighValueFirst_perm sdk coins).length_eq
  have hzero := congrArg List.length hnil
  rw [List.length_take, List.length_nil] at hzero
  omega

/-- Induction on the coins still to compare, the best so far generalized. -/
theorem mem_of_largestSpendable {coins : List Coin} {selected : Coin}
    (h : largestSpendable sdk coins = .ok selected) : selected ∈ coins := by
  cases coins with
  | nil => cases h
  | cons coin coins =>
    cases h
    induction coins generalizing coin with
    | nil => exact List.mem_singleton.mpr rfl
    | cons next coins ih =>
      rw [List.foldl_cons]
      by_cases houtranks : Outranks sdk coin next
      · rw [if_pos houtranks]
        rcases List.mem_cons.mp (ih coin) with heq | hmem
        · rw [heq]
          exact List.mem_cons_self
        · exact List.mem_cons_of_mem _ (List.mem_cons_of_mem _ hmem)
      · rw [if_neg houtranks]
        exact List.mem_cons_of_mem _ (ih next)

theorem splitPlan_eq_some {r : SplitXchRequest} {plan : List PlannedSpend}
    (h : builder.plan sdk drivers overflowChecks (.splitXch r) = some plan) :
    ∃ changePh coins selected amounts, builder.inputs.changePuzzleHash r.identity = .ok changePh ∧
      builder.inputs.spendableXch r.identity = .ok coins ∧ selected ∈ coins ∧
      r.fee.mojos ≤ selected.amount ∧
      staggeredAmounts overflowChecks (selected.amount - r.fee.mojos) r.parts.toUInt64 =
        some (some amounts) ∧
      plan = xchPlan sdk [selected]
        (amounts.map (fun amount => .createCoin ⟨changePh, amount, none⟩) ++
          feeCondition r.fee.mojos) := by
  unfold SdkSpendBuilder.plan at h
  dsimp only at h
  split_ifs at h with hparts
  simp only [Option.bind_eq_bind, Option.bind_eq_some_iff, toOption_eq_some] at h
  obtain ⟨changePh, hchangePh, coins, hcoins, selected, hselected, divisible, hdivisible, staggered,
    hstaggered, amounts, hamounts, h⟩ := h
  cases h
  subst hamounts
  unfold checkedSub at hdivisible
  split_ifs at hdivisible with hcovers
  cases hdivisible
  exact ⟨changePh, coins, selected, amounts, hchangePh, hcoins, mem_of_largestSpendable hselected,
    hcovers, hstaggered, rfl⟩

theorem toNat_sub_add {a b : UInt64} (h : b ≤ a) : (a - b).toNat + b.toNat = a.toNat := by
  have hle := UInt64.le_iff_toNat_le.mp h
  rw [UInt64.toNat_sub_of_le _ _ h]
  omega

theorem balanced_of_combine {r : CombineXchRequest} {plan : List PlannedSpend}
    (h : builder.plan sdk drivers overflowChecks (.combineXch r) = some plan) :
    Balanced sdk builder (.combineXch r) plan := by
  obtain ⟨changePh, coins, selected, sum, hchangePh, hcoins, hselected, hne, hsum, hcovers, rfl⟩ :=
    combinePlan_eq_some h
  have hcarries := Carries.merged changePh (sum - r.fee.mojos) r.fee.mojos
  refine balanced_of_xch [] (.xchPlan sdk hne hcarries) .nil ?_ ?_ ?_
  · intro pair hpair
    rw [List.mem_singleton.mp hpair]
    exact hchangePh
  · rw [hselected]
    refine ⟨fun hfits coins' hcoins' => ?_, fun hfits => hfits coins hcoins⟩
    obtain rfl := Except.ok.inj (hcoins.symm.trans hcoins')
    exact hfits
  · intro hfits
    rw [← toNat_of_sumU64 hsum hfits, ← toNat_sub_add hcovers, pairsTotal_single]
    exact congrArg (· + _) (Nat.zero_add _).symm

theorem balanced_of_split {r : SplitXchRequest} {plan : List PlannedSpend}
    (h : builder.plan sdk drivers overflowChecks (.splitXch r) = some plan) :
    Balanced sdk builder (.splitXch r) plan := by
  obtain ⟨changePh, coins, selected, amounts, hchangePh, -, -, hcovers, hstaggered, rfl⟩ :=
    splitPlan_eq_some h
  have hcarries := Carries.spread changePh amounts r.fee.mojos
  have hamount : total (coinAmounts [selected]) = selected.amount.toNat := by simp
  refine balanced_of_xch [] (.xchPlan sdk (List.cons_ne_nil selected []) hcarries) .nil
    ?_ ?_ ?_
  · intro pair hpair
    obtain ⟨amount, -, rfl⟩ := List.mem_map.mp hpair
    exact hchangePh
  · have hlt := selected.amount.toNat_lt
    simp only [hamount, SdkSpendBuilder.SpendsExactly, iff_true]
    exact hlt
  · intro _
    rw [hamount, pairsTotal_spread, total_of_staggeredAmounts hstaggered, ← toNat_sub_add hcovers]
    exact congrArg (· + _) (Nat.zero_add _).symm

/-- **Every plan pays its request and balances.** -/
theorem balanced_of_plan (hinputs : builder.inputs.Honest sdk drivers) {request : BuildRequest}
    {plan : List PlannedSpend} (h : builder.plan sdk drivers overflowChecks request = some plan) :
    Balanced sdk builder request plan := by
  cases request with
  | combineXch r => exact balanced_of_combine h
  | splitXch r => exact balanced_of_split h
  | sendXch r =>
    obtain ⟨target, destination, htarget, hdestination, h⟩ := sendXchPlan_eq_some h
    obtain ⟨hsum, hpos⟩ := toNat_of_checkedTarget htarget
    refine balanced_of_payXch (.sendXch r) h ?_ hpos (pays_single hdestination rfl) ?_
    · rw [pairsTotal_single]
      exact hsum
    · rw [hsum]
      rfl
  | multiSendXch r =>
    obtain ⟨destinations, payout, target, hdestinations, hpayout, htarget, h⟩ :=
      multiSendXchPlan_eq_some h
    have hsum := toNat_of_checkedAdd htarget
    have htotal := toNat_of_totalOf hpayout
    refine balanced_of_payXch (.multiSendXch r) h ?_ ?_ (pays_of_resolveLegs rfl hdestinations) ?_
    · rw [pairsTotal_of_resolveLegs hdestinations, ← htotal]
      exact hsum
    · exact target_pos_of_resolveLegs hdestinations hpayout htarget
    · rw [hsum, htotal]
      rfl
  | sendCat r =>
    obtain ⟨-, destination, hdestination, h⟩ := sendCatPlan_eq_some h
    exact balanced_of_payCat hinputs (.sendCat r) h
      (pairsTotal_single destination r.amount.mojos).symm
      (fun asset hasset => pays_single hdestination (reviewedAsset_some hasset)) .rfl
  | multiSendCat r =>
    obtain ⟨destinations, payout, hdestinations, hpayout, h⟩ := multiSendCatPlan_eq_some h
    refine balanced_of_payCat hinputs (.multiSendCat r) h ?_
      (fun asset hasset => pays_of_resolveLegs (reviewedAsset_some hasset) hdestinations) .rfl
    rw [toNat_of_totalOf hpayout, pairsTotal_of_resolveLegs hdestinations]

end Plan

end DigWallet
