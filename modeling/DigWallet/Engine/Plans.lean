import DigWallet.Engine.BuildExtended
import DigWallet.Engine.Drivers

/-!
# DigWallet.Engine.Plans — what a request asks the drivers for

The abstract side of the builders.  A `PlannedSpend` is a coin with the conditions it is spent with;
`plan` is the list of planned spends of a request: the payments, the change and the fee on the lead
coin, the other coins bound to it, and the fee leg of a CAT spend.

`build_planned`: what a builder returns is the plan, emitted by the drivers, under the summary of the
request.
-/

namespace DigWallet

open Faults Totals

/-! ## Planned spends -/

inductive PlannedSpend
  | standard (coin : Coin) (conditions : List Condition)
  | cat (spent : Cat) (conditions : List Condition)

namespace PlannedSpend

def coin : PlannedSpend → Coin
  | standard coin _ => coin
  | cat spent _ => spent.coin

def conditions : PlannedSpend → List Condition
  | standard _ conditions | cat _ conditions => conditions

/-- The asset the coin is denominated in, `none` for XCH. -/
def asset? : PlannedSpend → Option Bytes32
  | standard _ _ => none
  | cat spent _ => some spent.info.assetId

def creates (planned : PlannedSpend) : List CreateCoin :=
  planned.conditions.filterMap Condition.asCreateCoin

/-- The puzzle hash of a child created at `puzzleHash`. -/
def childHash (wrap : CatInfo → Bytes32 → Bytes32) : PlannedSpend → Bytes32 → Bytes32
  | standard _ _, puzzleHash => puzzleHash
  | cat spent _, puzzleHash => wrap spent.info puzzleHash

/-- The coins the planned spend creates. -/
def created (sdk : Sdk) (wrap : CatInfo → Bytes32 → Bytes32) (planned : PlannedSpend) : List Coin :=
  planned.creates.map fun create =>
    ⟨sdk.coinId planned.coin, planned.childHash wrap create.puzzleHash, create.amount⟩

end PlannedSpend

/-- The lead coin carries the conditions, the others assert that it is spent. -/
def xchPlan (sdk : Sdk) (selected : List Coin) (conditions : List Condition) : List PlannedSpend :=
  match selected with
  | [] => []
  | lead :: supporting => .standard lead conditions ::
      supporting.map fun coin => .standard coin [.assertConcurrentSpend (sdk.coinId lead)]

/-- The lead CAT carries the conditions, the others none. -/
def catPlan (cats : List Cat) (conditions : List Condition) : List PlannedSpend :=
  match cats with
  | [] => []
  | lead :: rest => .cat lead conditions :: rest.map fun spent => .cat spent []

/-! ## Emission -/

section Emission

variable (sdk : Sdk) (drivers : SpendDrivers) (wrap : CatInfo → Bytes32 → Bytes32)
  (inputs : SpendInputs)

/-- The coin spend is what the drivers emit for the planned spend. -/
inductive Emitted : PlannedSpend → CoinSpend → Prop
  | standard {coin conditions key spend} (hkey : inputs.syntheticKey coin.puzzleHash = some key)
      (hspend : drivers.standardSpend key coin conditions = .ok spend) :
      Emitted (.standard coin conditions) spend
  | cat {spent conditions key inner spend}
      (hkey : inputs.syntheticKey spent.info.p2PuzzleHash = some key)
      (hinner : drivers.standardInner key conditions = .ok inner)
      (hspend : EmitsCat sdk drivers wrap ⟨spent, inner⟩ spend) :
      Emitted (.cat spent conditions) spend

variable {sdk drivers wrap inputs} {builder : SdkSpendBuilder}

theorem Emitted.coin_eq (hdrivers : drivers.Emit sdk wrap) {planned : PlannedSpend}
    {spend : CoinSpend} (h : Emitted sdk drivers wrap inputs planned spend) :
    spend.coin = planned.coin := by
  cases h with
  | standard hkey hspend =>
    obtain ⟨inner, -, hemits⟩ := hdrivers.standard hspend
    exact hemits.coin_eq
  | cat hkey hinner hspend => exact hspend.coin_eq

variable (sdk wrap) in
theorem spendStandard_eq_ok {ctx ctx' : List CoinSpend} {coin : Coin} {conditions : List Condition}
    (h : builder.spendStandard drivers ctx coin conditions = .ok ctx') :
    ∃ spend, ctx' = ctx ++ [spend] ∧
      Emitted sdk drivers wrap builder.inputs (.standard coin conditions) spend := by
  unfold SdkSpendBuilder.spendStandard SdkSpendBuilder.keyFor at h
  cases hkey : builder.inputs.syntheticKey coin.puzzleHash with
  | none =>
    rw [hkey] at h
    cases h
  | some key =>
    rw [hkey] at h
    simp only [bind_eq_ok, orSpendFailed_eq_ok, Except.ok.injEq] at h
    obtain ⟨key', rfl, spend, hspend, rfl⟩ := h
    exact ⟨spend, rfl, .standard hkey hspend⟩

variable (sdk wrap) in
/-- Induction on the coins spent, the context generalized. -/
theorem foldlM_spendStandard {coins : List Coin} {conditions : List Condition}
    {ctx ctx' : List CoinSpend}
    (h : coins.foldlM (fun ctx coin => builder.spendStandard drivers ctx coin conditions) ctx =
      .ok ctx') : ∃ spends, ctx' = ctx ++ spends ∧
        List.Forall₂ (Emitted sdk drivers wrap builder.inputs)
          (coins.map fun coin => .standard coin conditions) spends := by
  induction coins generalizing ctx with
  | nil =>
    cases h
    exact ⟨[], by simp, .nil⟩
  | cons coin coins ih =>
    rw [List.foldlM_cons, bind_eq_ok] at h
    obtain ⟨ctx₁, hcoin, hcoins⟩ := h
    obtain ⟨spend, rfl, hemitted⟩ := spendStandard_eq_ok sdk wrap hcoin
    obtain ⟨spends, rfl, hall⟩ := ih hcoins
    exact ⟨spend :: spends, by simp, .cons hemitted hall⟩

variable (wrap) in
theorem xchSpends_eq_ok {ctx ctx₁ ctx₂ : List CoinSpend} {lead : Coin} {selected : List Coin}
    {conditions : List Condition} (hhead : selected.head? = some lead)
    (hlead : builder.spendStandard drivers ctx lead conditions = .ok ctx₁)
    (hlink : builder.linkSupportingCoins sdk drivers ctx₁ selected = .ok ctx₂) :
    ∃ spends, ctx₂ = ctx ++ spends ∧
      List.Forall₂ (Emitted sdk drivers wrap builder.inputs) (xchPlan sdk selected conditions)
        spends := by
  obtain ⟨supporting, rfl⟩ := List.head?_eq_some_iff.mp hhead
  obtain ⟨spend, rfl, hemitted⟩ := spendStandard_eq_ok sdk wrap hlead
  obtain ⟨spends, rfl, hall⟩ := foldlM_spendStandard sdk wrap hlink
  exact ⟨spend :: spends, by simp, .cons hemitted hall⟩

variable (wrap) in
/-- The same from an empty context. -/
theorem emitted_of_xchSpends {ctx coinSpends : List CoinSpend} {lead : Coin} {selected : List Coin}
    {conditions : List Condition} (hhead : selected.head? = some lead)
    (hlead : builder.spendStandard drivers [] lead conditions = .ok ctx)
    (hlink : builder.linkSupportingCoins sdk drivers ctx selected = .ok coinSpends) :
    List.Forall₂ (Emitted sdk drivers wrap builder.inputs) (xchPlan sdk selected conditions)
      coinSpends := by
  obtain ⟨spends, heq, hemitted⟩ := xchSpends_eq_ok wrap hhead hlead hlink
  rw [heq]
  exact hemitted

/-- The ring entry is the inner spend of the planned spend. -/
inductive InRing (drivers : SpendDrivers) (inputs : SpendInputs) : PlannedSpend → CatSpend → Prop
  | mk {spent conditions key inner} (hkey : inputs.syntheticKey spent.info.p2PuzzleHash = some key)
      (hinner : drivers.standardInner key conditions = .ok inner) :
      InRing drivers inputs (.cat spent conditions) ⟨spent, inner⟩

theorem catInnerSpend_eq_ok {spent : Cat} {conditions : WalletResult (List Condition)}
    {catSpend : CatSpend} (h : builder.catInnerSpend drivers spent conditions = .ok catSpend) :
    ∃ carried, conditions = .ok carried ∧ InRing drivers builder.inputs (.cat spent carried) catSpend := by
  unfold SdkSpendBuilder.catInnerSpend SdkSpendBuilder.catKey at h
  cases hkey : builder.inputs.syntheticKey spent.info.p2PuzzleHash with
  | none =>
    rw [hkey] at h
    cases h
  | some key =>
    rw [hkey] at h
    simp only [bind_eq_ok, orSpendFailed_eq_ok, Except.ok.injEq] at h
    obtain ⟨key', rfl, carried, hcarried, inner, hinner, rfl⟩ := h
    exact ⟨carried, hcarried, .mk hkey hinner⟩

theorem catRing_eq_ok {cats : List Cat} {conditions : WalletResult (List Condition)}
    {ring : List CatSpend} (h : builder.catRing drivers cats conditions = .ok ring)
    (hne : cats ≠ []) : ∃ carried, conditions = .ok carried ∧
      List.Forall₂ (InRing drivers builder.inputs) (catPlan cats carried) ring := by
  cases cats with
  | nil => exact absurd rfl hne
  | cons lead rest =>
    unfold SdkSpendBuilder.catRing at h
    simp only [bind_eq_ok, Except.ok.injEq] at h
    obtain ⟨leadSpend, hlead, restSpends, hrest, rfl⟩ := h
    obtain ⟨carried, hcarried, hin⟩ := catInnerSpend_eq_ok hlead
    refine ⟨carried, hcarried, .cons hin ?_⟩
    rw [List.forall₂_map_left_iff]
    refine (mapM_eq_ok.mp hrest).imp ?_
    intro spent catSpend hspent
    obtain ⟨carried', hcarried', hin'⟩ := catInnerSpend_eq_ok hspent
    cases hcarried'
    exact hin'

/-- The ring, emitted. -/
theorem emitted_of_ring (hdrivers : drivers.Emit sdk wrap) {plan : List PlannedSpend}
    {ring : List CatSpend} {spends : List CoinSpend}
    (hring : List.Forall₂ (InRing drivers inputs) plan ring)
    (hspends : drivers.catSpendAll ring = .ok spends) :
    List.Forall₂ (Emitted sdk drivers wrap inputs) plan spends := by
  have hemits := hdrivers.cat hspends
  clear hspends
  induction hring generalizing spends with
  | nil =>
    cases hemits
    exact .nil
  | cons hin hring ih =>
    cases hemits with
    | cons hemit htail =>
      cases hin with
      | mk hkey hinner => exact .cons (.cat hkey hinner hemit) (ih htail)

end Emission

/-! ## The plan of a request -/

inductive BuildRequest
  | sendXch (request : SendXchRequest)
  | sendCat (request : SendCatRequest)
  | multiSendXch (request : MultiSendXchRequest)
  | multiSendCat (request : MultiSendCatRequest)
  | combineXch (request : CombineXchRequest)
  | splitXch (request : SplitXchRequest)

/-- The summary a request is built under. -/
def BuildRequest.summary (request : BuildRequest) : TransactionSummary where
  outputs :=
    match request with
    | sendXch r => [⟨r.toAddress, r.amount, none⟩]
    | sendCat r => [⟨r.toAddress, r.amount, some r.assetId⟩]
    | multiSendXch r => SdkSpendBuilder.legOutputs r.legs none
    | multiSendCat r => SdkSpendBuilder.legOutputs r.legs (some r.assetId)
    | combineXch _ | splitXch _ => []
  received := []
  fee :=
    match request with
    | sendXch r => r.fee
    | sendCat r => r.fee
    | multiSendXch r => r.fee
    | multiSendCat r => r.fee
    | combineXch r => r.fee
    | splitXch r => r.fee
  meltedSingletons := []
  nftOperations := []

/-- What a send spends, and the change it leaves. -/
structure Funding (α : Type) where
  changePh : Bytes32
  spent : List α
  change : UInt64

namespace SdkSpendBuilder

variable (sdk : Sdk) (drivers : SpendDrivers) (overflowChecks : Bool) (builder : SdkSpendBuilder)

/-- The dispatch of a request to its builder. -/
def build : BuildRequest → Call WalletError UnsignedSpend
  | .sendXch r => builder.buildSendXch sdk drivers overflowChecks r
  | .sendCat r => builder.buildSendCat sdk drivers overflowChecks r
  | .multiSendXch r => builder.buildMultiSendXch sdk drivers overflowChecks r
  | .multiSendCat r => builder.buildMultiSendCat sdk drivers overflowChecks r
  | .combineXch r => builder.buildCombineXch sdk drivers overflowChecks r
  | .splitXch r => builder.buildSplitXch sdk drivers overflowChecks r

/-- The coins the wallet's own selection takes for `target`. -/
def selects (coins : List Coin) (target : UInt64) : Option (List Coin × UInt64) := do
  match ← selectForSpend sdk overflowChecks coins target builder.coinCap with
  | .selected selected _ change => some (selected, change)
  | .needsConsolidation .. | .insufficientFunds .. => none

def fundXch (identity : IdentityRef) (target : UInt64) : Option (Funding Coin) := do
  let changePh ← (builder.inputs.changePuzzleHash identity).toOption
  let coins ← (builder.inputs.spendableXch identity).toOption
  let (selected, change) ← builder.selects sdk overflowChecks coins target
  some ⟨changePh, selected, change⟩

def fundCat (identity : IdentityRef) (assetId : AssetId) (payout : UInt64) : Option (Funding Cat) := do
  let changePh ← (builder.inputs.changePuzzleHash identity).toOption
  let cats ← (builder.inputs.spendableCat identity assetId).toOption
  let catTotal ← sumU64 overflowChecks (coinAmounts (cats.map Cat.coin))
  if cats ≠ [] ∧ payout ≤ catTotal then some ⟨changePh, cats, catTotal - payout⟩ else none

/-- The payments, each hinted to its destination. -/
def payments (pays : List (Bytes32 × UInt64)) : Option (List Condition) :=
  (pays.mapM fun (puzzleHash, amount) => hintedCreateCoin drivers puzzleHash amount).toOption

def payXch (identity : IdentityRef) (pays : List (Bytes32 × UInt64)) (target fee : UInt64) :
    Option (List PlannedSpend) := do
  let funding ← builder.fundXch sdk overflowChecks identity target
  let paid ← payments drivers pays
  some (xchPlan sdk funding.spent
    (paid ++ changeCondition funding.changePh funding.change ++ feeCondition fee))

/-- The fee of a CAT spend, paid from XCH coins bound to the lead CAT. -/
def feePlan (identity : IdentityRef) (fee : UInt64) (changePh : Bytes32) (cats : List Cat) :
    Option (List PlannedSpend) :=
  if 0 < fee then do
    let lead ← cats.head?
    let coins ← (builder.inputs.spendableXch identity).toOption
    let (selected, change) ← builder.selects sdk overflowChecks coins fee
    some (xchPlan sdk selected (.reserveFee fee :: .assertConcurrentSpend (sdk.coinId lead.coin) ::
      changeCondition changePh change))
  else some []

def payCat (identity : IdentityRef) (assetId : AssetId) (pays : List (Bytes32 × UInt64))
    (payout fee : UInt64) : Option (List PlannedSpend) := do
  let funding ← builder.fundCat overflowChecks identity assetId payout
  let paid ← payments drivers pays
  let feeLeg ← builder.feePlan sdk overflowChecks identity fee funding.changePh funding.spent
  some (catPlan funding.spent (paid ++ changeCondition funding.changePh funding.change) ++ feeLeg)

/-- What the request asks the drivers for, when the inputs cover it. -/
def plan : BuildRequest → Option (List PlannedSpend)
  | .sendXch r => do
    let target ← (checkedTarget r.amount.mojos r.fee.mojos).toOption
    let destination ← (decodeAddress sdk r.toAddress).toOption
    builder.payXch sdk drivers overflowChecks r.identity [(destination, r.amount.mojos)] target
      r.fee.mojos
  | .sendCat r =>
    if r.amount.mojos = 0 then none
    else do
      let destination ← (decodeAddress sdk r.toAddress).toOption
      builder.payCat sdk drivers overflowChecks r.identity r.assetId
        [(destination, r.amount.mojos)] r.amount.mojos r.fee.mojos
  | .multiSendXch r => do
    let destinations ← (resolveLegs sdk r.legs).toOption
    let payout ← (totalOf r.legs).toOption
    let target ← checkedAdd payout r.fee.mojos
    builder.payXch sdk drivers overflowChecks r.identity destinations target r.fee.mojos
  | .multiSendCat r => do
    let destinations ← (resolveLegs sdk r.legs).toOption
    let payout ← (totalOf r.legs).toOption
    builder.payCat sdk drivers overflowChecks r.identity r.assetId destinations payout r.fee.mojos
  | .combineXch r => do
    let changePh ← (builder.inputs.changePuzzleHash r.identity).toOption
    let coins ← (builder.inputs.spendableXch r.identity).toOption
    let selected ← (selectForConsolidation sdk coins builder.coinCap).toOption
    let total ← sumU64 overflowChecks (coinAmounts selected)
    let merged ← (checkedSub total r.fee.mojos).filter (0 < ·)
    some (xchPlan sdk selected (.createCoin ⟨changePh, merged, none⟩ :: feeCondition r.fee.mojos))
  | .splitXch r =>
    if r.parts.toUInt64 < 2 then none
    else do
      let changePh ← (builder.inputs.changePuzzleHash r.identity).toOption
      let coins ← (builder.inputs.spendableXch r.identity).toOption
      let selected ← (largestSpendable sdk coins).toOption
      let divisible ← checkedSub selected.amount r.fee.mojos
      let amounts ← (← staggeredAmounts overflowChecks divisible r.parts.toUInt64)
      some [.standard selected
        (amounts.map (fun amount => .createCoin ⟨changePh, amount, none⟩) ++
          feeCondition r.fee.mojos)]

end SdkSpendBuilder

/-! ## The builders follow the plan -/

/-- What a build returned is the plan of the request, emitted, under the request's summary. -/
structure Planned (sdk : Sdk) (drivers : SpendDrivers) (wrap : CatInfo → Bytes32 → Bytes32)
    (overflowChecks : Bool) (builder : SdkSpendBuilder) (request : BuildRequest)
    (unsigned : UnsignedSpend) (plan : List PlannedSpend) : Prop where
  plan_eq : builder.plan sdk drivers overflowChecks request = some plan
  emitted : List.Forall₂ (Emitted sdk drivers wrap builder.inputs) plan unsigned.coinSpends
  runs : ∀ spend ∈ unsigned.coinSpends, sdk.Runs spend
  nonempty : unsigned.coinSpends ≠ []
  summary_eq : unsigned.summary = request.summary

section Planned

open SdkSpendBuilder

variable {sdk : Sdk} {drivers : SpendDrivers} {wrap : CatInfo → Bytes32 → Bytes32}
  {overflowChecks : Bool} {builder : SdkSpendBuilder} {unsigned : UnsignedSpend}

theorem finish_eq_ok {coinSpends : List CoinSpend} {summary : TransactionSummary}
    (h : builder.finish sdk drivers coinSpends summary = .ok unsigned) :
    unsigned.coinSpends = coinSpends ∧ unsigned.summary = summary ∧ coinSpends ≠ [] ∧
      ∃ genesis required, sdk.fromCoinSpends coinSpends genesis = .ok required := by
  unfold finish ensureSignedOffline requiredSignatures at h
  simp only [bind_eq_ok, orSpendFailed_eq_ok, Except.ok.injEq] at h
  obtain ⟨required, ⟨extracted, hextracted, -⟩, _, hsigned, rfl⟩ := h
  refine ⟨rfl, rfl, ?_, _, _, hextracted⟩
  rintro rfl
  cases hsigned

theorem signed_of_finish {coinSpends : List CoinSpend} {summary : TransactionSummary}
    (h : builder.finish sdk drivers coinSpends summary = .ok unsigned) :
    unsigned.requiredSignatures ≠ [] := by
  obtain ⟨required, -, h⟩ := bind_eq_ok.mp h
  obtain ⟨hsigned, h⟩ := guard_bind_eq_ok.mp h
  obtain rfl := Except.ok.inj h
  unfold ensureSignedOffline at hsigned
  split_ifs at hsigned with hspends hrequired
  simpa using hrequired

/-- What every builder ends with: the plan's spends, emitted and finished under the summary. -/
theorem planned_of_finish (hdrivers : drivers.Emit sdk wrap) {request : BuildRequest}
    {plan : List PlannedSpend} {coinSpends : List CoinSpend}
    (hplan : builder.plan sdk drivers overflowChecks request = some plan)
    (hemitted : List.Forall₂ (Emitted sdk drivers wrap builder.inputs) plan coinSpends)
    (hfinish : builder.finish sdk drivers coinSpends request.summary = .ok unsigned) :
    Planned sdk drivers wrap overflowChecks builder request unsigned plan := by
  obtain ⟨hspends, hsummary, hne, genesis, required, hextracted⟩ := finish_eq_ok hfinish
  rw [← hspends] at hemitted hne hextracted
  exact ⟨hplan, hemitted, hdrivers.extracts hextracted, hne, hsummary⟩

theorem selectOrFail_eq_ok {coins selected : List Coin} {target : UInt64} {cap : ℕ} {asset : String}
    (h : selectOrFail sdk overflowChecks coins target cap asset = .ok selected) :
    ∃ sum change, selectForSpend sdk overflowChecks coins target cap =
      some (.selected selected sum change) := by
  unfold selectOrFail at h
  simp only [bind_eq_ok, orPanic_eq_ok] at h
  obtain ⟨outcome, houtcome, h⟩ := h
  cases outcome with
  | needsConsolidation _ _ _ _ => cases h
  | insufficientFunds _ _ => cases h
  | selected selected' sum change =>
    cases h
    exact ⟨sum, change, houtcome⟩

/-- The totals a builder takes of its selection are those of the selection itself. -/
theorem selectForSpend_of_selects {coins selected : List Coin} {target change : UInt64}
    (h : builder.selects sdk overflowChecks coins target = some (selected, change)) :
    ∃ sum, selectForSpend sdk overflowChecks coins target builder.coinCap =
      some (.selected selected sum change) := by
  unfold selects at h
  simp only [Option.bind_eq_bind, Option.bind_eq_some_iff] at h
  obtain ⟨outcome, houtcome, h⟩ := h
  cases outcome with
  | needsConsolidation _ _ _ _ => cases h
  | insufficientFunds _ _ => cases h
  | selected coins total change' =>
    cases h
    exact ⟨total, houtcome⟩

theorem selects_of_selectOrFail {coins selected : List Coin} {target total change : UInt64}
    {asset : String}
    (h : selectOrFail sdk overflowChecks coins target builder.coinCap asset = .ok selected)
    (htotal : sumU64 overflowChecks (coinAmounts selected) = some total)
    (hchange : subU64 overflowChecks total target = some change) :
    builder.selects sdk overflowChecks coins target = some (selected, change) := by
  obtain ⟨sum, change', houtcome⟩ := selectOrFail_eq_ok h
  obtain ⟨hselects, hchange'⟩ := selectForSpend_selected houtcome
  have hsum := hselects.sum_eq
  rw [htotal] at hsum
  cases hsum
  rw [hchange] at hchange'
  cases hchange'
  unfold selects
  rw [houtcome]
  rfl

theorem buildSendXch_planned (hdrivers : drivers.Emit sdk wrap) {r : SendXchRequest}
    (h : builder.buildSendXch sdk drivers overflowChecks r = .ok unsigned) :
    ∃ plan, Planned sdk drivers wrap overflowChecks builder (.sendXch r) unsigned plan := by
  unfold buildSendXch at h
  simp only [bind_eq_ok, ofResult_eq_ok, orPanic_eq_ok] at h
  obtain ⟨target, htarget, destination, hdestination, changePh, hchangePh, coins, hcoins, selected,
    hselected, total, htotal, change, hchange, paid, hpaid, lead, hlead, ctx, hctx, coinSpends,
    hcoinSpends, outputs, -, -, -, hfinish⟩ := h
  have hselects := selects_of_selectOrFail hselected htotal hchange
  have hemitted := emitted_of_xchSpends wrap hlead hctx hcoinSpends
  refine ⟨_, planned_of_finish hdrivers ?_ hemitted hfinish⟩
  simp [plan, payXch, fundXch, payments, Except.toOption, htarget, hdestination, hchangePh, hcoins,
    hselects, hpaid]

theorem buildMultiSendXch_planned (hdrivers : drivers.Emit sdk wrap) {r : MultiSendXchRequest}
    (h : builder.buildMultiSendXch sdk drivers overflowChecks r = .ok unsigned) :
    ∃ plan, Planned sdk drivers wrap overflowChecks builder (.multiSendXch r) unsigned plan := by
  unfold buildMultiSendXch at h
  simp only [bind_eq_ok, ofResult_eq_ok, orPanic_eq_ok] at h
  obtain ⟨destinations, hdestinations, payout, hpayout, target, htarget, changePh, hchangePh, coins,
    hcoins, selected, hselected, total, htotal, change, hchange, lead, hlead, -, -, paid, hpaid, ctx,
    hctx, coinSpends, hcoinSpends, outputs, -, -, -, hfinish⟩ := h
  have hselects := selects_of_selectOrFail hselected htotal hchange
  have htarget' : checkedAdd payout r.fee.mojos = some target := okOr_eq_ok.mp htarget
  have hemitted := emitted_of_xchSpends wrap hlead hctx hcoinSpends
  refine ⟨_, planned_of_finish hdrivers ?_ hemitted hfinish⟩
  simp [plan, payXch, fundXch, payments, Except.toOption, htarget', hdestinations, hpayout,
    hchangePh, hcoins, hselects, hpaid]

/-- The two CAT builders, after their own checks. -/
theorem catPlanned {identity : IdentityRef} {fee : UInt64} {changePh : Bytes32}
    {cats : List Cat} {conditions : WalletResult (List Condition)} {ring : List CatSpend}
    {ctx coinSpends : List CoinSpend} (hdrivers : drivers.Emit sdk wrap) (hne : cats ≠ [])
    (hring : builder.catRing drivers cats conditions = .ok ring)
    (hctx : drivers.catSpendAll ring = .ok ctx)
    (hfee : builder.addCatFee sdk drivers overflowChecks ctx identity fee changePh cats =
      .ok coinSpends) : ∃ carried feeLeg, conditions = .ok carried ∧
        builder.feePlan sdk overflowChecks identity fee changePh cats = some feeLeg ∧
        List.Forall₂ (Emitted sdk drivers wrap builder.inputs) (catPlan cats carried ++ feeLeg)
          coinSpends := by
  obtain ⟨carried, hcarried, hin⟩ := catRing_eq_ok hring hne
  have hemitted := emitted_of_ring hdrivers hin hctx
  unfold addCatFee at hfee
  by_cases hpos : 0 < fee
  · rw [if_pos hpos] at hfee
    unfold addXchFee at hfee
    simp only [bind_eq_ok, ofResult_eq_ok, orPanic_eq_ok] at hfee
    obtain ⟨leadCat, hleadCat, xch, hxch, selected, hselected, total, htotal, xchChange, hxchChange,
      lead, hlead, ctx₁, hctx₁, hlink⟩ := hfee
    have hselects := selects_of_selectOrFail hselected htotal hxchChange
    obtain ⟨spends, rfl, hfeeLeg⟩ := xchSpends_eq_ok wrap hlead hctx₁ hlink
    refine ⟨carried, _, hcarried, ?_, List.rel_append hemitted hfeeLeg⟩
    simp [feePlan, Except.toOption, hpos, hleadCat, hxch, hselects]
  · rw [if_neg hpos] at hfee
    cases hfee
    refine ⟨carried, [], hcarried, ?_, ?_⟩
    · simp [feePlan, hpos]
    · rw [List.append_nil]
      exact hemitted

theorem buildSendCat_planned (hdrivers : drivers.Emit sdk wrap) {r : SendCatRequest}
    (h : builder.buildSendCat sdk drivers overflowChecks r = .ok unsigned) :
    ∃ plan, Planned sdk drivers wrap overflowChecks builder (.sendCat r) unsigned plan := by
  unfold buildSendCat buildCatInnerSpends at h
  simp only [bind_eq_ok, ofResult_eq_ok, orPanic_eq_ok, refuseIf_eq_ok, orSpendFailed_eq_ok] at h
  obtain ⟨-, hamount, destination, hdestination, changePh, hchangePh, cats, hcats, -, hne, catTotal,
    hcatTotal, -, hfunded, change, hchange, ring, hring, ctx, hctx, coinSpends, hcoinSpends,
    hfinish⟩ := h
  obtain ⟨carried, feeLeg, hcarried, hfeeLeg, hemitted⟩ :=
    catPlanned hdrivers hne hring hctx hcoinSpends
  simp only [bind_eq_ok, Except.ok.injEq] at hcarried
  obtain ⟨paid, hpaid, rfl⟩ := hcarried
  have hle : r.amount.mojos ≤ catTotal := UInt64.not_lt.mp hfunded
  have hsub : change = catTotal - r.amount.mojos := eq_sub_of_subU64 hchange
  refine ⟨_, planned_of_finish hdrivers ?_ hemitted hfinish⟩
  subst hsub
  simp [plan, payCat, fundCat, payments, Except.toOption, hamount, hdestination, hchangePh, hcats,
    hcatTotal, hne, hle, hpaid, hfeeLeg]

theorem buildMultiSendCat_planned (hdrivers : drivers.Emit sdk wrap) {r : MultiSendCatRequest}
    (h : builder.buildMultiSendCat sdk drivers overflowChecks r = .ok unsigned) :
    ∃ plan, Planned sdk drivers wrap overflowChecks builder (.multiSendCat r) unsigned plan := by
  unfold buildMultiSendCat catRingPaying at h
  simp only [bind_eq_ok, ofResult_eq_ok, orPanic_eq_ok, refuseIf_eq_ok, orSpendFailed_eq_ok,
    not_or] at h
  obtain ⟨destinations, hdestinations, payout, hpayout, changePh, hchangePh, cats, hcats, catTotal,
    hcatTotal, -, ⟨hne, hfunded⟩, change, hchange, lead, hlead, -, -, ring, hring, ctx, hctx,
    coinSpends, hcoinSpends, outputs, -, -, -, hfinish⟩ := h
  obtain ⟨carried, feeLeg, hcarried, hfeeLeg, hemitted⟩ :=
    catPlanned hdrivers hne hring hctx hcoinSpends
  simp only [bind_eq_ok, Except.ok.injEq] at hcarried
  obtain ⟨paid, hpaid, rfl⟩ := hcarried
  have hle : payout ≤ catTotal := UInt64.not_lt.mp hfunded
  have hsub : change = catTotal - payout := eq_sub_of_subU64 hchange
  refine ⟨_, planned_of_finish hdrivers ?_ hemitted hfinish⟩
  subst hsub
  simp [plan, payCat, fundCat, payments, Except.toOption, hdestinations, hpayout, hchangePh, hcats,
    hcatTotal, hne, hle, hpaid, hfeeLeg]

theorem buildCombineXch_planned (hdrivers : drivers.Emit sdk wrap) {r : CombineXchRequest}
    (h : builder.buildCombineXch sdk drivers overflowChecks r = .ok unsigned) :
    ∃ plan, Planned sdk drivers wrap overflowChecks builder (.combineXch r) unsigned plan := by
  unfold buildCombineXch finishSelfDirected at h
  simp only [bind_eq_ok, ofResult_eq_ok, orPanic_eq_ok] at h
  obtain ⟨changePh, hchangePh, coins, hcoins, selected, hselected, total, htotal, merged, hmerged,
    lead, hlead, ctx, hctx, coinSpends, hcoinSpends, -, -, hfinish⟩ := h
  have hmerged' : (checkedSub total r.fee.mojos).filter (0 < ·) = some merged :=
    okOr_eq_ok.mp hmerged
  have hemitted := emitted_of_xchSpends wrap hlead hctx hcoinSpends
  refine ⟨_, planned_of_finish hdrivers ?_ hemitted hfinish⟩
  simp [plan, Except.toOption, hchangePh, hcoins, hselected, htotal, hmerged']

theorem buildSplitXch_planned (hdrivers : drivers.Emit sdk wrap) {r : SplitXchRequest}
    (h : builder.buildSplitXch sdk drivers overflowChecks r = .ok unsigned) :
    ∃ plan, Planned sdk drivers wrap overflowChecks builder (.splitXch r) unsigned plan := by
  unfold buildSplitXch finishSelfDirected at h
  simp only [bind_eq_ok, ofResult_eq_ok, orPanic_eq_ok, refuseIf_eq_ok] at h
  obtain ⟨-, hparts, changePh, hchangePh, coins, hcoins, selected, hselected, divisible, hdivisible,
    staggered, hstaggered, amounts, hamounts, -, -, coinSpends, hcoinSpends, outputs, -, -, -,
    hfinish⟩ := h
  have hdivisible' := okOr_eq_ok.mp hdivisible
  have hamounts' := okOr_eq_ok.mp hamounts
  obtain ⟨spend, heq, hemitted⟩ := spendStandard_eq_ok sdk wrap hcoinSpends
  rw [List.nil_append] at heq
  subst heq
  have hall := List.Forall₂.cons hemitted List.Forall₂.nil
  refine ⟨_, planned_of_finish hdrivers ?_ hall hfinish⟩
  subst hamounts'
  simp [plan, Except.toOption, hparts, hchangePh, hcoins, hselected, hdivisible', hstaggered]

/-- **What a builder returns is the plan of the request.** -/
theorem build_planned (hdrivers : drivers.Emit sdk wrap) {request : BuildRequest}
    (h : builder.build sdk drivers overflowChecks request = .ok unsigned) :
    ∃ plan, Planned sdk drivers wrap overflowChecks builder request unsigned plan := by
  cases request with
  | sendXch r => exact buildSendXch_planned hdrivers h
  | sendCat r => exact buildSendCat_planned hdrivers h
  | multiSendXch r => exact buildMultiSendXch_planned hdrivers h
  | multiSendCat r => exact buildMultiSendCat_planned hdrivers h
  | combineXch r => exact buildCombineXch_planned hdrivers h
  | splitXch r => exact buildSplitXch_planned hdrivers h

end Planned

end DigWallet
