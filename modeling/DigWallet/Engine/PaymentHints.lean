import DigWallet.Engine.Collisions
import DigWallet.Engine.Discovery
import DigWallet.SimLayered

/-!
# DigWallet.Engine.PaymentHints — a built payment is found by its recipient

The builders hint every payment to its destination, the index reads hints off coin spends.
`payments_discoverable`: each output of the request is a coin of its own that the bundle creates at the
output's address, and indexing the bundle, in any order, makes exactly these coins findable, each under
its destination and no other hint; for a CAT that is the inner puzzle hash.
-/

namespace DigWallet

open Totals SdkSpendBuilder

/-- `SpendContext::hint` allocates the memo list of the puzzle hash alone. -/
def SpendDrivers.HintAlone (drivers : SpendDrivers) : Prop :=
  ∀ {puzzleHash memos}, drivers.hint puzzleHash = .ok memos → atomList memos = some [puzzleHash.bytes]

/-- A run within the cost limit is the run without one. -/
def Sdk.Unmetered (sdk : Sdk) (runProgram : Node → Node → Except String Node) : Prop :=
  ∀ {puzzle solution output}, sdk.runPuzzle puzzle solution = .ok output →
    runProgram puzzle solution = .ok output

section Planned

variable (sdk : Sdk) (wrap : CatInfo → Bytes32 → Bytes32)

/-- The hinted coins among those created. -/
def hintedCreates (parent : Bytes32) (creates : List CreateCoin) : List (String × List Hint) :=
  creates.filterMap fun create => hintedCoin sdk parent (.createCoin create)

/-- The hinted coins a planned spend creates. -/
def PlannedSpend.hinted (planned : PlannedSpend) : List (String × List Hint) :=
  hintedCreates sdk (sdk.coinId planned.coin)
    (planned.creates.map (CreateCoin.rehashed (planned.childHash wrap)))

/-- A payment: the destination and the coin created for it. -/
abbrev PaidCoin := Bytes32 × Coin

/-- The entry of the index a payment makes. -/
def paymentEntry (payment : PaidCoin) : String × List Hint :=
  (hexEncode (sdk.coinId payment.2).bytes, [Hint.fromBytes payment.1.bytes])

/-- The payments of some pairs: the children of `parent`, each at the hash its layer gives it. -/
def paymentsOf (parent : Bytes32) (childHash : Bytes32 → Bytes32) (pays : Pairs) : List PaidCoin :=
  pays.map fun pay => (pay.1, ⟨parent, childHash pay.1, pay.2⟩)

/-- No created coin has memos. -/
def Unhinted (conditions : List Condition) : Prop :=
  ∀ create ∈ conditions.filterMap Condition.asCreateCoin, create.memos = none

end Planned

section

variable {sdk : Sdk} {drivers : SpendDrivers} {wrap : CatInfo → Bytes32 → Bytes32}
  {runProgram : Node → Node → Except String Node} {inputs : SpendInputs}

/-! ## Extraction -/

theorem filterMap_hintedCoin (parent : Bytes32) (conditions : List Condition) :
    conditions.filterMap (hintedCoin sdk parent) =
      hintedCreates sdk parent (conditions.filterMap Condition.asCreateCoin) := by
  rw [hintedCreates, List.filterMap_filterMap]
  refine List.filterMap_congr fun condition _ => ?_
  cases condition <;> rfl

theorem hints_of_run {spend : CoinSpend} {puzzle solution : Node} {conditions : List Condition}
    (hrun : sdk.Unmetered runProgram) (hpuzzle : sdk.nodeFromBytes spend.puzzleReveal = .ok puzzle)
    (hsolution : sdk.nodeFromBytes spend.solution = .ok solution)
    (hconditions : sdk.conditionsOf puzzle solution = .ok conditions) :
    hintsFromCoinSpend sdk runProgram spend =
      .ok (hintedCreates sdk (sdk.coinId spend.coin)
        (conditions.filterMap Condition.asCreateCoin)) := by
  obtain ⟨output, houtput, hdecode⟩ := Sdk.conditionsOf_eq_ok.mp hconditions
  have hprogram := hrun houtput
  unfold hintsFromCoinSpend
  simp only [hpuzzle, hsolution, hprogram, hdecode, orHintParseFailed, bind, Except.bind]
  rw [filterMap_hintedCoin]

/-- What is extracted from an emitted spend. -/
theorem hints_emitted (hdrivers : drivers.Emit sdk wrap) (hrun : sdk.Unmetered runProgram)
    {planned : PlannedSpend} {spend : CoinSpend} (hordinary : ∀ c ∈ planned.conditions, Ordinary c)
    (hruns : sdk.Runs spend) (h : Emitted sdk drivers wrap inputs planned spend) :
    hintsFromCoinSpend sdk runProgram spend = .ok (planned.hinted sdk wrap) := by
  cases h with
  | @standard coin conditions key spend hkey hspend =>
    obtain ⟨inner, hinner, hemits⟩ := hdrivers.standard hspend
    obtain ⟨layer, -, -, hconditions⟩ := (hdrivers.inner hinner).signs
    rw [hints_of_run hrun hemits.reveal hemits.solution hconditions, hemits.coin_eq]
    have hsame : (conditions.filterMap Condition.asCreateCoin).map (CreateCoin.rehashed
        ((PlannedSpend.standard coin conditions).childHash wrap)) =
          conditions.filterMap Condition.asCreateCoin := List.map_id _
    exact congrArg (fun creates => Except.ok (hintedCreates sdk (sdk.coinId coin) creates)) hsame.symm
  | @cat spent conditions key inner spend hkey hinner hspend =>
    obtain ⟨layer, -, -, hconditions⟩ := (hdrivers.inner hinner).signs
    obtain ⟨puzzle, solution, hpuzzle, hsolution, -, -, houter⟩ := hspend.wraps
    have hno : Condition.runCatTail ∉
        .aggSigMe ⟨key, (sdk.treeHash layer.delegatedPuzzle).bytes⟩ :: conditions := by
      intro hmem
      rcases List.mem_cons.mp hmem with heq | hmem
      · cases heq
      · cases hordinary _ hmem
    obtain ⟨puzzle', solution', outer, hpuzzle', hsolution', hrunOuter⟩ := hruns
    obtain rfl := Except.ok.inj (hpuzzle.symm.trans hpuzzle')
    obtain rfl := Except.ok.inj (hsolution.symm.trans hsolution')
    have hcreates := houter _ _ hconditions hno hrunOuter
    rw [hints_of_run hrun hpuzzle hsolution hrunOuter, hcreates, hspend.coin_eq]
    rfl

/-! ## What a plan hints -/

theorem hintedCreates_of_unhinted {parent : Bytes32} {creates : List CreateCoin}
    (h : ∀ create ∈ creates, create.memos = none) : hintedCreates sdk parent creates = [] := by
  refine List.filterMap_eq_nil_iff.mpr fun create hcreate => ?_
  unfold hintedCoin
  simp [Condition.asCreateCoin, h create hcreate]

theorem hinted_of_unhinted {planned : PlannedSpend} (h : Unhinted planned.conditions) :
    planned.hinted sdk wrap = [] := by
  refine hintedCreates_of_unhinted fun create hcreate => ?_
  obtain ⟨inner, hinner, rfl⟩ := List.mem_map.mp hcreate
  exact h inner hinner

theorem unhinted_change (changePh : Bytes32) (amount : UInt64) :
    Unhinted (changeCondition changePh amount) := by
  unfold changeCondition
  split_ifs
  · intro create hcreate
    rw [List.mem_singleton.mp hcreate]
  · intro create hcreate
    cases hcreate

theorem unhinted_fee (fee : UInt64) : Unhinted (feeCondition fee) := by
  unfold feeCondition
  split_ifs <;> rintro create ⟨⟩

theorem Unhinted.append {conditions conditions' : List Condition} (h : Unhinted conditions)
    (h' : Unhinted conditions') : Unhinted (conditions ++ conditions') := by
  intro create hcreate
  rw [List.filterMap_append] at hcreate
  exact (List.mem_append.mp hcreate).elim (h create) (h' create)

/-- The payments, hinted; what follows them is not. -/
theorem hintedCreates_of_payments (hhints : drivers.HintAlone) {pays : Pairs}
    {paid rest : List Condition} (hpaid : payments drivers pays = some paid) (hrest : Unhinted rest)
    (parent : Bytes32) (childHash : Bytes32 → Bytes32) :
    hintedCreates sdk parent (((paid ++ rest).filterMap Condition.asCreateCoin).map
        (CreateCoin.rehashed childHash)) =
      (paymentsOf parent childHash pays).map (paymentEntry sdk) := by
  have hall := mapM_eq_ok.mp (toOption_eq_some.mp hpaid)
  clear hpaid
  induction hall with
  | nil =>
    refine hintedCreates_of_unhinted fun create hcreate => ?_
    obtain ⟨inner, hinner, rfl⟩ := List.mem_map.mp hcreate
    exact hrest inner hinner
  | @cons pay condition pays conditions hpay _ ih =>
    unfold hintedCreateCoin at hpay
    simp only [bind_eq_ok, orSpendFailed_eq_ok, Except.ok.injEq] at hpay
    obtain ⟨memos, hmemos, rfl⟩ := hpay
    have hatoms := hhints hmemos
    have hhead : hintedCoin sdk parent (.createCoin ⟨childHash pay.1, pay.2, some memos⟩) =
        some (paymentEntry sdk (pay.1, ⟨parent, childHash pay.1, pay.2⟩)) := by
      simp [hintedCoin, Condition.asCreateCoin, hatoms, paymentEntry]
    rw [paymentsOf, List.map_cons, List.map_cons, ← paymentsOf, ← ih]
    show List.filterMap _ (CreateCoin.rehashed childHash ⟨pay.1, pay.2, some memos⟩ :: _) = _
    exact List.filterMap_cons_some (f := fun create => hintedCoin sdk parent (.createCoin create)) hhead

/-! ## What a request hints -/

/-- The plan hints the payments and nothing else, and creates their coins. -/
structure Hinted (sdk : Sdk) (wrap : CatInfo → Bytes32 → Bytes32) (plan : List PlannedSpend)
    (paid : List PaidCoin) : Prop where
  ordinary : ∀ planned ∈ plan, ∀ c ∈ planned.conditions, Ordinary c
  entries : plan.flatMap (PlannedSpend.hinted sdk wrap) = paid.map (paymentEntry sdk)
  created : ∀ payment ∈ paid, payment.2 ∈ plannedCoins sdk wrap plan

theorem hinted_xchPlan_idle (supporting : List Coin) (lead : Coin) :
    (supporting.map fun coin => PlannedSpend.standard coin
      [.assertConcurrentSpend (sdk.coinId lead)]).flatMap (PlannedSpend.hinted sdk wrap) = [] := by
  rw [List.flatMap_map]
  refine List.flatMap_eq_nil_iff.mpr fun coin _ => hinted_of_unhinted ?_
  rintro create ⟨⟩

/-- An XCH plan without memos hints nothing. -/
theorem hinted_xchPlan_unhinted {conditions : List Condition} (h : Unhinted conditions)
    (selected : List Coin) :
    (xchPlan sdk selected conditions).flatMap (PlannedSpend.hinted sdk wrap) = [] := by
  cases selected with
  | nil => rfl
  | cons lead supporting =>
    rw [xchPlan, List.flatMap_cons, hinted_xchPlan_idle, List.append_nil]
    exact hinted_of_unhinted h

theorem paymentsOf_created {parent : Coin} {childHash : Bytes32 → Bytes32} {pays pairs : Pairs}
    (h : pays ⊆ pairs) : ∀ payment ∈ paymentsOf (sdk.coinId parent) childHash pays,
      payment.2 ∈ childrenAt sdk parent (pairs.map fun pay => (childHash pay.1, pay.2)) := by
  intro payment hpayment
  obtain ⟨pay, hpay, rfl⟩ := List.mem_map.mp hpayment
  refine List.mem_map.mpr ⟨(childHash pay.1, pay.2), ?_, rfl⟩
  exact List.mem_map.mpr ⟨pay, h hpay, rfl⟩

/-- A payment in XCH. -/
theorem hinted_payXch (hhints : drivers.HintAlone) {lead : Coin} {supporting : List Coin}
    {pays : Pairs} {paid : List Condition} (hpaid : payments drivers pays = some paid)
    (changePh : Bytes32) (change fee : UInt64) :
    Hinted sdk wrap (xchPlan sdk (lead :: supporting)
      (paid ++ changeCondition changePh change ++ feeCondition fee))
      (paymentsOf (sdk.coinId lead) id pays) := by
  have hcarries := Carries.paid hpaid changePh change fee
  have hrest := (unhinted_change changePh change).append (unhinted_fee fee)
  refine ⟨ordinary_xchPlan hcarries.ordinary _, ?_, ?_⟩
  · rw [xchPlan, List.flatMap_cons, hinted_xchPlan_idle, List.append_nil, List.append_assoc]
    exact hintedCreates_of_payments hhints hpaid hrest (sdk.coinId lead) id
  · rw [plannedCoins_xchPlan, hcarries.created]
    intro payment hpayment
    have hmem := paymentsOf_created (List.subset_append_left pays (changePairs changePh change))
      payment hpayment
    rwa [show (fun pay : Bytes32 × UInt64 => (id pay.1, pay.2)) = id from rfl, List.map_id] at hmem

/-- A payment in a CAT, with its fee leg. -/
theorem hinted_payCat (hhints : drivers.HintAlone) {lead : Cat} {rest : List Cat} {pays : Pairs}
    {paid : List Condition} (hpaid : payments drivers pays = some paid) (changePh : Bytes32)
    (change : UInt64) {feeLeg : List PlannedSpend}
    (hfee : ∀ planned ∈ feeLeg, ∀ c ∈ planned.conditions, Ordinary c)
    (hquiet : feeLeg.flatMap (PlannedSpend.hinted sdk wrap) = []) :
    Hinted sdk wrap (catPlan (lead :: rest) (paid ++ changeCondition changePh change) ++ feeLeg)
      (paymentsOf (sdk.coinId lead.coin) (wrap lead.info) pays) := by
  have hcarries := (Carries.payments hpaid).append (.change changePh change)
  have hidle : (rest.map fun spent => PlannedSpend.cat spent []).flatMap
      (PlannedSpend.hinted sdk wrap) = [] := by
    rw [List.flatMap_map]
    exact List.flatMap_eq_nil_iff.mpr fun spent _ => rfl
  refine ⟨List.forall_mem_append.mpr ⟨ordinary_catPlan hcarries.ordinary _, hfee⟩, ?_, ?_⟩
  · rw [List.flatMap_append, hquiet, List.append_nil, catPlan, List.flatMap_cons, hidle,
      List.append_nil]
    exact hintedCreates_of_payments hhints hpaid (unhinted_change changePh change)
      (sdk.coinId lead.coin) (wrap lead.info)
  · rw [plannedCoins_append, plannedCoins_catPlan, hcarries.created]
    intro payment hpayment
    exact List.mem_append_left _
      (paymentsOf_created (List.subset_append_left pays _) payment hpayment)

variable {overflowChecks : Bool} {builder : SdkSpendBuilder}

/-- The coin a payment to `destination` makes, a child of a listed coin of the asset: at the
destination itself, or at what the CAT layer of its parent makes of it. -/
inductive PaidFrom (sdk : Sdk) (wrap : CatInfo → Bytes32 → Bytes32) (inputs : SpendInputs)
    (identity : IdentityRef) (destination : Bytes32) : Option AssetId → Coin → Prop
  | xch {coins lead amount} (hcoins : inputs.spendableXch identity = .ok coins)
      (hlead : lead ∈ coins) :
      PaidFrom sdk wrap inputs identity destination none ⟨sdk.coinId lead, destination, amount⟩
  | cat {assetId cats lead amount} (hcats : inputs.spendableCat identity assetId = .ok cats)
      (hlead : lead ∈ cats) :
      PaidFrom sdk wrap inputs identity destination (some assetId)
        ⟨sdk.coinId lead.coin, wrap lead.info destination, amount⟩

variable (sdk wrap inputs) in
/-- An output of a summary, and the payment made of it. -/
structure Meets (identity : IdentityRef) (output : SpendOutput) (payment : PaidCoin) : Prop where
  destination : sdk.decodeAddress output.address.text = .ok payment.1
  amount : payment.2.amount = output.amount.mojos
  coin : PaidFrom sdk wrap inputs identity payment.1 output.assetId payment.2

variable (sdk) in
/-- An output of an asset, and the pair it pays. -/
structure PaysOutput (assetId : Option AssetId) (output : SpendOutput) (pay : Bytes32 × UInt64) : Prop where
  asset : output.assetId = assetId
  destination : sdk.decodeAddress output.address.text = .ok pay.1
  amount : output.amount.mojos = pay.2

theorem meets_paymentsOf {identity : IdentityRef} {assetId : Option AssetId}
    {outputs : List SpendOutput} {pays : Pairs} (h : List.Forall₂ (PaysOutput sdk assetId) outputs pays)
    {parent : Bytes32} {childHash : Bytes32 → Bytes32}
    (hpaid : ∀ destination amount, PaidFrom sdk wrap inputs identity destination assetId
      ⟨parent, childHash destination, amount⟩) :
    List.Forall₂ (Meets sdk wrap inputs identity) outputs (paymentsOf parent childHash pays) := by
  rw [paymentsOf, List.forall₂_map_right_iff]
  refine h.imp fun output pay hpay => ⟨hpay.destination, hpay.amount.symm, ?_⟩
  rw [hpay.asset]
  exact hpaid pay.1 pay.2

theorem paysOutput_of_resolveLegs {legs : List SendLeg} {pays : Pairs}
    (h : resolveLegs sdk legs = .ok pays) (assetId : Option AssetId) :
    List.Forall₂ (PaysOutput sdk assetId) (legOutputs legs assetId) pays := by
  rw [legOutputs, List.forall₂_map_left_iff]
  exact (resolveLegs_eq_ok h).1.imp fun leg pay hleg => ⟨rfl, hleg.1, hleg.2.1⟩

/-- The coins of different payments differ, if the layer keeps their hashes apart. -/
theorem nodup_paymentsOf {parent : Coin} {childHash : Bytes32 → Bytes32} {pays : Pairs}
    (happart : ∀ pay ∈ pays, ∀ pay' ∈ pays, childHash pay.1 = childHash pay'.1 → pay.1 = pay'.1)
    (h : pays.Nodup) :
    ((paymentsOf (sdk.coinId parent) childHash pays).map Prod.snd).Nodup := by
  rw [paymentsOf, List.map_map]
  refine h.map_on fun pay hpay pay' hpay' heq => ?_
  have hhash := happart pay hpay pay' hpay' (congrArg Coin.puzzleHash heq)
  exact Prod.ext hhash (congrArg Coin.amount heq)

variable (sdk wrap inputs) in
/-- The plan hints the payments of the pairs, children of a listed coin, which are apart when the
pairs are. -/
structure HintsPays (identity : IdentityRef) (assetId : Option AssetId) (pays : Pairs)
    (plan : List PlannedSpend) (parent : Coin) (childHash : Bytes32 → Bytes32) : Prop where
  hinted : Hinted sdk wrap plan (paymentsOf (sdk.coinId parent) childHash pays)
  paid : ∀ destination amount, PaidFrom sdk wrap inputs identity destination assetId
    ⟨sdk.coinId parent, childHash destination, amount⟩
  distinct : WrapsApart wrap plan → pays.Nodup →
    ((paymentsOf (sdk.coinId parent) childHash pays).map Prod.snd).Nodup

variable (wrap) in
theorem hintsPays_payXch (hhints : drivers.HintAlone) {identity : IdentityRef} {pays : Pairs}
    {target fee : UInt64} {plan : List PlannedSpend} (hpos : 0 < target)
    (h : builder.payXch sdk drivers overflowChecks identity pays target fee = some plan) :
    ∃ parent childHash,
      HintsPays sdk wrap builder.inputs identity none pays plan parent childHash := by
  obtain ⟨changePh, coins, selected, change, paid, -, hcoins, hselects, hpaid, rfl⟩ :=
    payXch_eq_some h
  obtain ⟨sum, hselected, -⟩ := selects_eq_some hselects
  cases selected with
  | nil => exact absurd rfl (hselected.ne_nil hpos)
  | cons lead supporting =>
    have hlead : lead ∈ coins := hselected.subset List.mem_cons_self
    exact ⟨lead, id, hinted_payXch hhints hpaid changePh change fee,
      fun destination amount => .xch hcoins hlead,
      fun _ => nodup_paymentsOf fun pay _ pay' _ heq => heq⟩

variable (wrap) in
theorem hintsPays_payCat (hhints : drivers.HintAlone) {identity : IdentityRef}
    {assetId : AssetId} {pays : Pairs} {payout fee : UInt64} {plan : List PlannedSpend}
    (h : builder.payCat sdk drivers overflowChecks identity assetId pays payout fee = some plan) :
    ∃ parent childHash,
      HintsPays sdk wrap builder.inputs identity (some assetId) pays plan parent childHash := by
  obtain ⟨changePh, cats, catTotal, paid, feeLeg, -, hcats, -, hne, -, hpaid, hfeeLeg, rfl⟩ :=
    payCat_eq_some h
  cases cats with
  | nil => exact absurd rfl hne
  | cons lead rest =>
    -- the fee leg is of XCH coins without memos
    have hfee : (∀ planned ∈ feeLeg, ∀ c ∈ planned.conditions, Ordinary c) ∧
        feeLeg.flatMap (PlannedSpend.hinted sdk wrap) = [] := by
      obtain ⟨-, rfl⟩ | ⟨-, lead', coins, selected, change, -, -, -, rfl⟩ := feePlan_eq_some hfeeLeg
      · exact ⟨by simp, rfl⟩
      · have hfee := Carries.catFee fee (sdk.coinId lead'.coin) changePh change
        have hquiet : Unhinted (.reserveFee fee :: .assertConcurrentSpend (sdk.coinId lead'.coin) ::
            changeCondition changePh change) := unhinted_change changePh change
        exact ⟨ordinary_xchPlan hfee.ordinary selected, hinted_xchPlan_unhinted hquiet selected⟩
    refine ⟨lead.coin, wrap lead.info, hinted_payCat hhints hpaid changePh _ hfee.1 hfee.2,
      fun destination amount => .cat hcats List.mem_cons_self, fun hwraps => nodup_paymentsOf ?_⟩
    have hcreated := ((Carries.payments hpaid).append (.change changePh (catTotal - payout))).created
    intro pay hpay pay' hpay'
    refine hwraps.lead pay ?_ pay' ?_
    · rw [hcreated]
      exact List.mem_append_left _ hpay
    · rw [hcreated]
      exact List.mem_append_left _ hpay'

/-- A built multi-send pays no pair twice. -/
theorem nodup_of_buildMultiSendXch {r : MultiSendXchRequest} {unsigned : UnsignedSpend}
    {destinations : Pairs} {payout target : UInt64} {plan : List PlannedSpend}
    (hbuilt : builder.buildMultiSendXch sdk drivers overflowChecks r = .ok unsigned)
    (hdestinations : resolveLegs sdk r.legs = .ok destinations) (hpayout : totalOf r.legs = .ok payout)
    (htarget : checkedAdd payout r.fee.mojos = some target)
    (hpay : builder.payXch sdk drivers overflowChecks r.identity destinations target r.fee.mojos =
      some plan) : destinations.Nodup := by
  have hpos := target_pos_of_resolveLegs hdestinations hpayout htarget
  obtain ⟨funding, hfunding, -⟩ := leadCreates_payXch (fun _ => id) hpos hpay
  by_contra hcollides
  obtain ⟨e, herror, -⟩ := buildMultiSendXch_refuses hdestinations hpayout htarget hpos hpay hfunding
    fun hnodup => hcollides (List.nodup_append'.mp hnodup).1
  cases herror.symm.trans hbuilt

theorem nodup_of_buildMultiSendCat {r : MultiSendCatRequest} {unsigned : UnsignedSpend}
    {destinations : Pairs} {payout : UInt64} {plan : List PlannedSpend}
    (hbuilt : builder.buildMultiSendCat sdk drivers overflowChecks r = .ok unsigned)
    (hdestinations : resolveLegs sdk r.legs = .ok destinations) (hpayout : totalOf r.legs = .ok payout)
    (hpay : builder.payCat sdk drivers overflowChecks r.identity r.assetId destinations payout
      r.fee.mojos = some plan) : destinations.Nodup := by
  obtain ⟨changePh, cats, catTotal, -, -, hchangePh, hcats, hcatTotal, hne, hcovers, -⟩ :=
    payCat_eq_some hpay
  have hfunding : builder.fundCat overflowChecks r.identity r.assetId payout =
      some ⟨changePh, cats, catTotal - payout⟩ := by
    simp [fundCat, Except.toOption, hchangePh, hcats, hcatTotal, hne, hcovers]
  by_contra hcollides
  obtain ⟨e, herror, -⟩ := buildMultiSendCat_refuses hdestinations hpayout hpay hfunding
    fun hnodup => hcollides (List.nodup_append'.mp hnodup).1
  cases herror.symm.trans hbuilt

/-- A plan that pays nobody. -/
theorem hinted_home (selected : List Coin) {conditions : List Condition}
    (hordinary : ∀ c ∈ conditions, Ordinary c) (h : Unhinted conditions) :
    Hinted sdk wrap (xchPlan sdk selected conditions) [] :=
  ⟨ordinary_xchPlan hordinary selected, hinted_xchPlan_unhinted h selected, by simp⟩

variable (wrap) in
/-- **What the plan of a built request hints are its outputs.** -/
theorem exists_hinted (hhints : drivers.HintAlone) {request : BuildRequest} {plan : List PlannedSpend}
    {unsigned : UnsignedSpend}
    (hbuilt : builder.build sdk drivers overflowChecks request = .ok unsigned)
    (h : builder.plan sdk drivers overflowChecks request = some plan)
    (hwraps : WrapsApart wrap plan) :
    ∃ paid, List.Forall₂ (Meets sdk wrap builder.inputs request.identity) request.summary.outputs
        paid ∧ (paid.map Prod.snd).Nodup ∧ Hinted sdk wrap plan paid := by
  cases request with
  | sendXch r =>
    obtain ⟨target, destination, htarget, hdestination, hpay⟩ := sendXchPlan_eq_some h
    obtain ⟨parent, childHash, hpays⟩ :=
      hintsPays_payXch wrap hhints (toNat_of_checkedTarget htarget).2 hpay
    exact ⟨_, meets_paymentsOf (.cons ⟨rfl, decodeAddress_eq_ok.mp hdestination, rfl⟩ .nil) hpays.paid,
      List.nodup_singleton _, hpays.hinted⟩
  | sendCat r =>
    obtain ⟨-, destination, hdestination, hpay⟩ := sendCatPlan_eq_some h
    obtain ⟨parent, childHash, hpays⟩ := hintsPays_payCat wrap hhints hpay
    exact ⟨_, meets_paymentsOf (.cons ⟨rfl, decodeAddress_eq_ok.mp hdestination, rfl⟩ .nil) hpays.paid,
      List.nodup_singleton _, hpays.hinted⟩
  | multiSendXch r =>
    obtain ⟨destinations, payout, target, hdestinations, hpayout, htarget, hpay⟩ :=
      multiSendXchPlan_eq_some h
    have hpos := target_pos_of_resolveLegs hdestinations hpayout htarget
    -- two legs of one pair would be refused, so the payment coins differ
    have hnodup := nodup_of_buildMultiSendXch hbuilt hdestinations hpayout htarget hpay
    obtain ⟨parent, childHash, hpays⟩ := hintsPays_payXch wrap hhints hpos hpay
    exact ⟨_, meets_paymentsOf (paysOutput_of_resolveLegs hdestinations none) hpays.paid,
      hpays.distinct hwraps hnodup, hpays.hinted⟩
  | multiSendCat r =>
    obtain ⟨destinations, payout, hdestinations, hpayout, hpay⟩ := multiSendCatPlan_eq_some h
    have hnodup := nodup_of_buildMultiSendCat hbuilt hdestinations hpayout hpay
    obtain ⟨parent, childHash, hpays⟩ := hintsPays_payCat wrap hhints hpay
    exact ⟨_, meets_paymentsOf (paysOutput_of_resolveLegs hdestinations (some r.assetId)) hpays.paid,
      hpays.distinct hwraps hnodup, hpays.hinted⟩
  | combineXch r =>
    -- a combine and a split have no outputs, and what they create is not hinted
    obtain ⟨changePh, coins, selected, sum, -, -, -, -, -, -, rfl⟩ := combinePlan_eq_some h
    have hcarries := Carries.merged changePh (sum - r.fee.mojos) r.fee.mojos
    refine ⟨[], .nil, List.nodup_nil, hinted_home selected hcarries.ordinary ?_⟩
    intro create hcreate
    rcases List.mem_cons.mp hcreate with rfl | hcreate
    · rfl
    · exact unhinted_fee _ create hcreate
  | splitXch r =>
    obtain ⟨changePh, coins, selected, amounts, -, -, -, -, -, rfl⟩ := splitPlan_eq_some h
    have hcarries := Carries.spread changePh amounts r.fee.mojos
    refine ⟨[], .nil, List.nodup_nil, hinted_home [selected] hcarries.ordinary ?_⟩
    refine Unhinted.append (fun create hcreate => ?_) (unhinted_fee _)
    obtain ⟨condition, hcondition, hsome⟩ := List.mem_filterMap.mp hcreate
    obtain ⟨amount, -, rfl⟩ := List.mem_map.mp hcondition
    rw [← Option.some.inj hsome]

/-! ## Indexing a bundle -/

/-- `index_hints_from_spend` of every spend, one after the other. -/
def WalletState.indexBundle (sdk : Sdk) (runProgram : Node → Node → Except String Node)
    (state : WalletState) (coinSpends : List CoinSpend) : WalletState :=
  coinSpends.foldl (fun state spend => (state.indexHintsFromSpend sdk runProgram spend).1) state

/-- Induction on the spends, the state generalized. -/
theorem mem_bucket_indexBundle {extract : CoinSpend → List (String × List Hint)}
    {coinSpends : List CoinSpend}
    (h : ∀ spend ∈ coinSpends, hintsFromCoinSpend sdk runProgram spend = .ok (extract spend))
    {state : WalletState} {id : String} {hint : Hint} :
    id ∈ (state.indexBundle sdk runProgram coinSpends).hints.bucket hint ↔
      id ∈ state.hints.bucket hint ∨
        ∃ spend ∈ coinSpends, ∃ memos, (id, memos) ∈ extract spend ∧ hint ∈ memos := by
  induction coinSpends generalizing state with
  | nil => simp [WalletState.indexBundle]
  | cons spend coinSpends ih =>
    have hindexed : (state.indexHintsFromSpend sdk runProgram spend).1 =
        state.indexHints (extract spend) := by
      unfold WalletState.indexHintsFromSpend
      rw [h spend List.mem_cons_self]
    have htail : id ∈ ((state.indexHints (extract spend)).indexBundle sdk runProgram
        coinSpends).hints.bucket hint ↔ _ :=
      ih fun spend' hspend' => h spend' (List.mem_cons_of_mem _ hspend')
    have hhead : id ∈ (state.indexHints (extract spend)).hints.bucket hint ↔
        (∃ memos, (id, memos) ∈ extract spend ∧ hint ∈ memos) ∨ id ∈ state.hints.bucket hint :=
      HintIndex.mem_bucket_indexAll
    rw [WalletState.indexBundle, List.foldl_cons, hindexed]
    refine htail.trans ?_
    rw [hhead, List.exists_mem_cons_iff, or_comm (a := ∃ memos, _), or_assoc]

theorem coins_indexBundle (state : WalletState) (coinSpends : List CoinSpend) :
    (state.indexBundle sdk runProgram coinSpends).coins = state.coins := by
  induction coinSpends generalizing state with
  | nil => rfl
  | cons spend coinSpends ih =>
    refine (ih (state.indexHintsFromSpend sdk runProgram spend).1).trans ?_
    unfold WalletState.indexHintsFromSpend
    cases hintsFromCoinSpend sdk runProgram spend with
    | error e => rfl
    | ok extracted => rfl

/-- The bundle is read in full, in any order. -/
structure Discoverable (sdk : Sdk) (runProgram : Node → Node → Except String Node)
    (coinSpends : List CoinSpend) (paid : List PaidCoin) : Prop where
  runs : ∀ spend ∈ coinSpends, ∃ extracted, hintsFromCoinSpend sdk runProgram spend = .ok extracted
  found : ∀ (spends : List CoinSpend), spends.Perm coinSpends → ∀ (state : WalletState) (hint : Hint)
    (record : CoinRecord),
    record ∈ (state.indexBundle sdk runProgram spends).coinsByHint hint ↔
      record ∈ state.coinsByHint hint ∨ ∃ payment ∈ paid, Hint.fromBytes payment.1.bytes = hint ∧
        state.coins.get? (hexEncode (sdk.coinId payment.2).bytes) = some record

/-- What is extracted from the emitted spends, in any order, is what the plan hints. -/
theorem entries_of_emitted {plan : List PlannedSpend} {coinSpends spends : List CoinSpend}
    (h : List.Forall₂ (fun (planned : PlannedSpend) spend =>
      hintsFromCoinSpend sdk runProgram spend = .ok (planned.hinted sdk wrap)) plan coinSpends)
    (hperm : spends.Perm coinSpends) {extract : CoinSpend → List (String × List Hint)}
    (hextract : ∀ spend ∈ spends, hintsFromCoinSpend sdk runProgram spend = .ok (extract spend))
    (entry : String × List Hint) :
    (∃ spend ∈ spends, entry ∈ extract spend) ↔
      entry ∈ plan.flatMap (PlannedSpend.hinted sdk wrap) := by
  rw [List.mem_flatMap]
  constructor
  · rintro ⟨spend, hspend, hmem⟩
    obtain ⟨planned, hplanned, hok⟩ := exists_mem_left h (hperm.mem_iff.mp hspend)
    have hsame : extract spend = planned.hinted sdk wrap :=
      Except.ok.inj ((hextract spend hspend).symm.trans hok)
    exact ⟨planned, hplanned, hsame ▸ hmem⟩
  · rintro ⟨planned, hplanned, hmem⟩
    obtain ⟨spend, hspend, hok⟩ := exists_mem_right h hplanned
    have hin := hperm.mem_iff.mpr hspend
    refine ⟨spend, hin, ?_⟩
    rwa [Except.ok.inj ((hextract spend hin).symm.trans hok)]

/-- An emitted plan that hints its payments makes them discoverable. -/
theorem discoverable_of_hinted (hdrivers : drivers.Emit sdk wrap) (hrun : sdk.Unmetered runProgram)
    {plan : List PlannedSpend} {paid : List PaidCoin} {coinSpends : List CoinSpend}
    (hhinted : Hinted sdk wrap plan paid) (hspends : ∀ spend ∈ coinSpends, sdk.Runs spend)
    (hemitted : List.Forall₂ (Emitted sdk drivers wrap inputs) plan coinSpends) :
    Discoverable sdk runProgram coinSpends paid := by
  have hextracted : List.Forall₂ (fun (planned : PlannedSpend) spend =>
      hintsFromCoinSpend sdk runProgram spend = .ok (planned.hinted sdk wrap)) plan coinSpends := by
    have hboth := (List.forall₂_and_left _ _).mpr ⟨hhinted.ordinary, hemitted⟩
    have hall := (List.forall₂_and_left _ _).mpr ⟨hspends, hboth.flip⟩
    exact hall.flip.imp fun planned spend h => hints_emitted hdrivers hrun h.2.1 h.1 h.2.2
  have hruns : ∀ spend ∈ coinSpends, ∃ extracted,
      hintsFromCoinSpend sdk runProgram spend = .ok extracted := by
    intro spend hspend
    obtain ⟨planned, -, hok⟩ := exists_mem_left hextracted hspend
    exact ⟨_, hok⟩
  refine ⟨hruns, fun spends hperm state hint record => ?_⟩
  -- the indexed entries are the payments, whatever the order of the spends
  let extract := fun spend => (hintsFromCoinSpend sdk runProgram spend).toOption.getD []
  have hextract : ∀ spend ∈ spends, hintsFromCoinSpend sdk runProgram spend = .ok (extract spend) := by
    intro spend hspend
    obtain ⟨extracted, hok⟩ := hruns spend (hperm.mem_iff.mp hspend)
    show _ = Except.ok ((hintsFromCoinSpend sdk runProgram spend).toOption.getD [])
    rw [hok]
    rfl
  have hentries : ∀ id memos, (∃ spend ∈ spends, (id, memos) ∈ extract spend) ↔
      ∃ payment ∈ paid, paymentEntry sdk payment = (id, memos) := by
    intro id memos
    rw [entries_of_emitted hextracted hperm hextract, hhinted.entries, List.mem_map]
  unfold WalletState.coinsByHint
  rw [mem_resolve, mem_resolve, coins_indexBundle]
  simp only [HintIndex.mem_coinsByHint, mem_bucket_indexBundle hextract]
  -- a hit is one the index had before, or one of these entries
  constructor
  · rintro ⟨id, hold | ⟨spend, hspend, memos, hmem, hhint⟩, hget⟩
    · exact .inl ⟨id, hold, hget⟩
    · obtain ⟨payment, hpayment, hentry⟩ := (hentries id memos).mp ⟨spend, hspend, hmem⟩
      cases hentry
      exact .inr ⟨payment, hpayment, (List.mem_singleton.mp hhint).symm, hget⟩
  · rintro (⟨id, hold, hget⟩ | ⟨payment, hpayment, rfl, hget⟩)
    · exact ⟨id, .inl hold, hget⟩
    · obtain ⟨spend, hspend, hmem⟩ := (hentries _ _).mpr ⟨payment, hpayment, rfl⟩
      exact ⟨_, .inr ⟨spend, hspend, _, hmem, List.mem_singleton.mpr rfl⟩, hget⟩

end

/-- **A built payment is found by its recipient**: the outputs of the request are different coins that
the bundle creates at their addresses, and indexing the bundle adds exactly these, each under its
destination. -/
theorem payments_discoverable (sdk : Sdk) (drivers : SpendDrivers)
    (wrap : CatInfo → Bytes32 → Bytes32) (hdrivers : drivers.Emit sdk wrap)
    (hhints : drivers.HintAlone) (runProgram : Node → Node → Except String Node)
    (hrun : sdk.Unmetered runProgram) (overflowChecks : Bool) (builder : SdkSpendBuilder)
    (request : BuildRequest)
    (hwraps : ∀ plan, builder.plan sdk drivers overflowChecks request = some plan →
      WrapsApart wrap plan) (unsigned : UnsignedSpend)
    (hbuilt : builder.build sdk drivers overflowChecks request = .ok unsigned) :
    ∃ paid created,
      List.Forall₂ (Meets sdk wrap builder.inputs request.identity) request.summary.outputs paid ∧
      (paid.map Prod.snd).Nodup ∧
      createdCoinObjects sdk unsigned.coinSpends = .ok created ∧
      (∀ payment ∈ paid, payment.2 ∈ created) ∧
      Discoverable sdk runProgram unsigned.coinSpends paid := by
  obtain ⟨plan, hplanned⟩ := build_planned hdrivers hbuilt
  obtain ⟨paid, hmeets, hnodup, hhinted⟩ :=
    exists_hinted wrap hhints hbuilt hplanned.plan_eq (hwraps plan hplanned.plan_eq)
  exact ⟨paid, _, hmeets, hnodup,
    createdCoinObjects_emitted hdrivers hhinted.ordinary hplanned.runs hplanned.emitted,
    hhinted.created, discoverable_of_hinted hdrivers hrun hhinted hplanned.runs hplanned.emitted⟩

namespace Sim

theorem layeredDrivers_hintAlone : layeredDrivers.HintAlone := by
  rintro puzzleHash memos ⟨⟩
  rfl

end Sim

open Sim in
/-- 40 of a CAT sent to a foreign address: the coin is at the hash of the CAT of that address. -/
theorem payments_discoverable_cat :
    let wallet := builder [] [catCoin 1 100]
    let request := BuildRequest.sendCat
      ⟨identity, ⟨hexEncode asset.bytes⟩, addressOf (.rep 0x42), ⟨40⟩, ⟨0⟩⟩
    ∃ (unsigned : UnsignedSpend) (paid : List PaidCoin) (created : List Coin),
      wallet.build layered layeredDrivers true request = .ok unsigned ∧
      List.Forall₂ (Meets layered wrapLayered wallet.inputs request.identity)
        request.summary.outputs paid ∧
      (paid.map Prod.snd).Nodup ∧
      createdCoinObjects layered unsigned.coinSpends = .ok created ∧
      (∀ payment ∈ paid, payment.2 ∈ created) ∧
      Discoverable layered layered.runPuzzle unsigned.coinSpends paid := by
  intro wallet request
  have hbuilds : (wallet.build layered layeredDrivers true request).toOption.isSome = true := by
    decide +kernel
  have happart : ((wallet.plan layered layeredDrivers true request).all fun plan =>
      decide (WrapsApart wrapLayered plan)) = true := by decide +kernel
  obtain ⟨unsigned, hbuilt⟩ := Option.isSome_iff_exists.mp hbuilds
  obtain ⟨paid, created, hpaid⟩ := payments_discoverable layered layeredDrivers wrapLayered
    layeredDrivers_emit layeredDrivers_hintAlone layered.runPuzzle id true wallet request
    (fun plan hplan => by
      rw [hplan] at happart
      exact of_decide_eq_true happart) unsigned (toOption_eq_some.mp hbuilt)
  exact ⟨unsigned, paid, created, toOption_eq_some.mp hbuilt, hpaid⟩

end DigWallet
