import DigWallet.Engine.Balances
import DigWallet.Engine.Refusals
import DigWallet.SimBuild
import Mathlib.Data.List.Nodup

/-!
# DigWallet.Engine.Collisions — the ids of the coins a build creates

`NeverCollides`: what a builder returns creates coins with distinct ids, and a request whose coins
would collide is refused as `InvalidInput`.  `neverCollides_iff`: it holds of every request but a
single send that pays the change address the very change it leaves.
-/

namespace DigWallet

open Faults Totals SdkSpendBuilder

/-! ## Created coins -/

section Created

variable (sdk : Sdk) (wrap : CatInfo → Bytes32 → Bytes32)

/-- The coins one spend creates. -/
def createdBySpend (spend : CoinSpend) : Except String (List Coin) := do
  let puzzle ← sdk.nodeFromBytes spend.puzzleReveal
  let solution ← sdk.nodeFromBytes spend.solution
  let conditions ← sdk.conditionsOf puzzle solution
  .ok ((conditions.filterMap Condition.asCreateCoin).map fun create =>
    ⟨sdk.coinId spend.coin, create.puzzleHash, create.amount⟩)

/-- `created_coin_objects`, over the built coin spends. -/
def createdCoinObjects (coinSpends : List CoinSpend) : Except String (List Coin) := do
  .ok (← coinSpends.mapM (createdBySpend sdk)).flatten

/-- The coins the spend creates have pairwise distinct ids. -/
def DistinctIds (unsigned : UnsignedSpend) : Prop :=
  ∃ created, createdCoinObjects sdk unsigned.coinSpends = .ok created ∧
    (created.map sdk.coinId).Nodup

/-- No two of the coins share an id. -/
def Sdk.CoinIdsApart (coins : List Coin) : Prop :=
  ∀ coin ∈ coins, ∀ coin' ∈ coins, sdk.coinId coin = sdk.coinId coin' → coin = coin'

instance (coins : List Coin) : Decidable (sdk.CoinIdsApart coins) :=
  inferInstanceAs (Decidable (∀ coin ∈ coins, ∀ coin' ∈ coins,
    sdk.coinId coin = sdk.coinId coin' → coin = coin'))

/-- The coins with the given puzzle hashes and amounts that `parent` creates. -/
def childrenAt (parent : Coin) (pairs : Pairs) : List Coin :=
  pairs.map fun pair => ⟨sdk.coinId parent, pair.1, pair.2⟩

/-- The coins a plan creates. -/
def plannedCoins (plan : List PlannedSpend) : List Coin :=
  plan.flatMap (PlannedSpend.created sdk wrap)

/-- The layer of each planned spend gives different hashes to the different ones it creates at. -/
def WrapsApart (plan : List PlannedSpend) : Prop :=
  ∀ planned ∈ plan, ∀ create ∈ planned.creates, ∀ create' ∈ planned.creates,
    planned.childHash wrap create.puzzleHash = planned.childHash wrap create'.puzzleHash →
      create.puzzleHash = create'.puzzleHash

instance (plan : List PlannedSpend) : Decidable (WrapsApart wrap plan) :=
  inferInstanceAs (Decidable (∀ planned ∈ plan, ∀ create ∈ planned.creates,
    ∀ create' ∈ planned.creates,
    planned.childHash wrap create.puzzleHash = planned.childHash wrap create'.puzzleHash →
      create.puzzleHash = create'.puzzleHash))

/-- The coins a plan spends and those it creates. -/
def coinsInPlay (plan : List PlannedSpend) : List Coin :=
  plan.map PlannedSpend.coin ++ plannedCoins sdk wrap plan

variable {sdk wrap} {drivers : SpendDrivers} {inputs : SpendInputs}

theorem createdBySpend_eq_ok {spend : CoinSpend} {puzzle solution : Node}
    {conditions : List Condition} (hpuzzle : sdk.nodeFromBytes spend.puzzleReveal = .ok puzzle)
    (hsolution : sdk.nodeFromBytes spend.solution = .ok solution)
    (hrun : sdk.conditionsOf puzzle solution = .ok conditions) :
    createdBySpend sdk spend = .ok ((conditions.filterMap Condition.asCreateCoin).map fun create =>
      ⟨sdk.coinId spend.coin, create.puzzleHash, create.amount⟩) := by
  unfold createdBySpend
  rw [hpuzzle, hsolution]
  show (sdk.conditionsOf puzzle solution >>= _) = _
  rw [hrun]
  rfl

/-- An emitted spend creates the planned coins. -/
theorem createdBySpend_emitted (hdrivers : drivers.Emit sdk wrap) {planned : PlannedSpend}
    {spend : CoinSpend} (hordinary : ∀ c ∈ planned.conditions, Ordinary c) (hruns : sdk.Runs spend)
    (h : Emitted sdk drivers wrap inputs planned spend) :
    createdBySpend sdk spend = .ok (planned.created sdk wrap) := by
  cases h with
  | standard hkey hspend =>
    obtain ⟨inner, hinner, hemits⟩ := hdrivers.standard hspend
    obtain ⟨layer, -, -, hrun⟩ := (hdrivers.inner hinner).signs
    rw [createdBySpend_eq_ok hemits.reveal hemits.solution hrun, hemits.coin_eq]
    rfl
  | @cat spent conditions key inner spend hkey hinner hspend =>
    obtain ⟨layer, -, -, hrun⟩ := (hdrivers.inner hinner).signs
    obtain ⟨puzzle, solution, hpuzzle, hsolution, -, -, houter⟩ := hspend.wraps
    have hno : Condition.runCatTail ∉
        .aggSigMe ⟨key, (sdk.treeHash layer.delegatedPuzzle).bytes⟩ :: conditions := by
      intro hmem
      rcases List.mem_cons.mp hmem with heq | hmem
      · cases heq
      · cases hordinary _ hmem
    obtain ⟨puzzle', solution', outer, hpuzzle', hsolution', hrunOuter⟩ := hruns
    obtain rfl := Except.ok.inj (hpuzzle.symm.trans hpuzzle')
    obtain rfl := Except.ok.inj (hsolution.symm.trans hsolution')
    have hcreates := houter _ _ hrun hno hrunOuter
    rw [createdBySpend_eq_ok hpuzzle hsolution hrunOuter, hcreates, hspend.coin_eq, List.map_map]
    rfl

theorem createdCoinObjects_emitted (hdrivers : drivers.Emit sdk wrap) {plan : List PlannedSpend}
    {coinSpends : List CoinSpend} (hordinary : ∀ planned ∈ plan, ∀ c ∈ planned.conditions, Ordinary c)
    (hruns : ∀ spend ∈ coinSpends, sdk.Runs spend)
    (h : List.Forall₂ (Emitted sdk drivers wrap inputs) plan coinSpends) :
    createdCoinObjects sdk coinSpends = .ok (plannedCoins sdk wrap plan) := by
  have hall : coinSpends.mapM (createdBySpend sdk) = .ok (plan.map (PlannedSpend.created sdk wrap)) := by
    rw [mapM_eq_ok, List.forall₂_map_right_iff]
    have hmem := (List.forall₂_and_left _ _).mpr ⟨hordinary, h⟩
    have hall := (List.forall₂_and_left _ _).mpr ⟨hruns, hmem.flip⟩
    exact hall.imp fun spend planned hboth =>
      createdBySpend_emitted hdrivers hboth.2.1 hboth.1 hboth.2.2
  unfold createdCoinObjects
  rw [hall]
  rfl

/-! ## Distinct children -/

theorem nodup_ids_iff {coins : List Coin} (h : sdk.CoinIdsApart coins) :
    (coins.map sdk.coinId).Nodup ↔ coins.Nodup :=
  ⟨List.Nodup.of_map _, fun hnodup => hnodup.map_on h⟩

theorem Sdk.CoinIdsApart.mono {coins coins' : List Coin} (h : sdk.CoinIdsApart coins')
    (hsub : coins ⊆ coins') : sdk.CoinIdsApart coins :=
  fun coin hcoin coin' hcoin' => h coin (hsub hcoin) coin' (hsub hcoin')

theorem nodup_childrenAt {parent : Coin} {pairs : Pairs} :
    (childrenAt sdk parent pairs).Nodup ↔ pairs.Nodup := by
  refine List.nodup_map_iff ?_
  rintro ⟨hash, amount⟩ ⟨hash', amount'⟩ heq
  cases heq
  rfl

/-- The pairs, at the hashes the CAT layer gives them. -/
def wrapped (wrap : CatInfo → Bytes32 → Bytes32) (info : CatInfo) (pairs : Pairs) : Pairs :=
  pairs.map fun pair => (wrap info pair.1, pair.2)

theorem nodup_wrapped {info : CatInfo} {pairs : Pairs}
    (h : ∀ pair ∈ pairs, ∀ pair' ∈ pairs, wrap info pair.1 = wrap info pair'.1 → pair.1 = pair'.1) :
    (wrapped wrap info pairs).Nodup ↔ pairs.Nodup := by
  refine ⟨List.Nodup.of_map _, List.Nodup.map_on ?_⟩
  intro pair hpair pair' hpair' heq
  obtain ⟨hhash, hamount⟩ := Prod.mk.inj heq
  exact Prod.ext (h pair hpair pair' hpair' hhash) hamount

theorem nodup_changePairs (changePh : Bytes32) (amount : UInt64) :
    (changePairs changePh amount).Nodup := by
  unfold changePairs
  split_ifs
  · exact List.nodup_singleton _
  · exact List.nodup_nil

/-- A single payment collides with the change exactly when it is the change. -/
theorem nodup_single_iff {destination changePh : Bytes32} {amount change : UInt64} :
    ([(destination, amount)] ++ changePairs changePh change).Nodup ↔
      ¬ (0 < change ∧ destination = changePh ∧ change = amount) := by
  unfold changePairs
  by_cases hpos : 0 < change
  · rw [if_pos hpos]
    simp only [List.singleton_append, List.nodup_cons, List.mem_singleton, List.not_mem_nil,
      not_false_eq_true, List.nodup_nil, and_true, Prod.mk.injEq, hpos, true_and]
    rw [eq_comm (a := amount)]
  · simp [hpos]

/-! ## The check -/

/-- Induction on the coins, the ids seen generalized. -/
theorem ensureDistinctFrom_eq_ok {parent : Bytes32} {seen : List Bytes32} {created : Pairs} :
    ensureDistinctFrom sdk parent seen created = .ok () ↔
      (created.map fun pair => sdk.coinId ⟨parent, pair.1, pair.2⟩).Nodup ∧
        ∀ pair ∈ created, sdk.coinId ⟨parent, pair.1, pair.2⟩ ∉ seen := by
  induction created generalizing seen with
  | nil => simp [ensureDistinctFrom]
  | cons pair created ih =>
    obtain ⟨puzzleHash, amount⟩ := pair
    rw [ensureDistinctFrom]
    by_cases hseen : sdk.coinId ⟨parent, puzzleHash, amount⟩ ∈ seen
    · simp [hseen]
    · rw [if_neg hseen, ih, List.map_cons, List.nodup_cons, List.forall_mem_cons]
      constructor
      · rintro ⟨hnodup, hfresh⟩
        refine ⟨⟨fun hmem => ?_, hnodup⟩, hseen, fun pair hpair hold => ?_⟩
        · obtain ⟨pair, hpair, heq⟩ := List.mem_map.mp hmem
          exact hfresh pair hpair (heq ▸ List.mem_cons_self)
        · exact hfresh pair hpair (List.mem_cons_of_mem _ hold)
      · rintro ⟨⟨hfirst, hnodup⟩, -, hfresh⟩
        refine ⟨hnodup, fun pair hpair hold => ?_⟩
        rcases List.mem_cons.mp hold with heq | hold
        · exact hfirst (List.mem_map.mpr ⟨pair, hpair, heq⟩)
        · exact hfresh pair hpair hold

theorem ensureDistinctCreatedCoins_eq_ok {parent : Coin} {created : Pairs} :
    ensureDistinctCreatedCoins sdk (sdk.coinId parent) created = .ok () ↔
      ((childrenAt sdk parent created).map sdk.coinId).Nodup := by
  rw [ensureDistinctCreatedCoins, ensureDistinctFrom_eq_ok, childrenAt, List.map_map]
  simp [Function.comp_def]

/-- Colliding children are refused. -/
theorem ensureDistinct_refuses (sdk : Sdk) (parent : Coin) {created : Pairs} (h : ¬ created.Nodup) :
    ∃ e, ensureDistinctCreatedCoins sdk (sdk.coinId parent) created = .error e ∧
      e.code = .invalidInput := by
  cases hcheck : ensureDistinctCreatedCoins sdk (sdk.coinId parent) created with
  | error e => exact ⟨e, rfl, blames_ensureDistinctFrom _ _ _ e hcheck⟩
  | ok u =>
    have hids := ensureDistinctCreatedCoins_eq_ok.mp hcheck
    exact absurd (nodup_childrenAt.mp hids.of_map) h

end Created

/-! ## What a plan creates -/

section Plan

variable {sdk : Sdk} {wrap : CatInfo → Bytes32 → Bytes32} {conditions : List Condition}

@[simp] theorem plannedCoins_append (plan plan' : List PlannedSpend) :
    plannedCoins sdk wrap (plan ++ plan') =
      plannedCoins sdk wrap plan ++ plannedCoins sdk wrap plan' :=
  List.flatMap_append

theorem created_standard (coin : Coin) : PlannedSpend.created sdk wrap (.standard coin conditions) =
    childrenAt sdk coin (createdPairs conditions) := by
  simp [PlannedSpend.created, childrenAt, createdPairs, PlannedSpend.creates,
    PlannedSpend.conditions, PlannedSpend.coin, PlannedSpend.childHash]

theorem created_cat (spent : Cat) : PlannedSpend.created sdk wrap (.cat spent conditions) =
    childrenAt sdk spent.coin (wrapped wrap spent.info (createdPairs conditions)) := by
  simp [PlannedSpend.created, childrenAt, wrapped, createdPairs, PlannedSpend.creates,
    PlannedSpend.conditions, PlannedSpend.coin, PlannedSpend.childHash]

/-- Only the lead creates. -/
theorem plannedCoins_xchPlan (lead : Coin) (supporting : List Coin) :
    plannedCoins sdk wrap (xchPlan sdk (lead :: supporting) conditions) =
      childrenAt sdk lead (createdPairs conditions) := by
  have hidle : (supporting.map fun coin => PlannedSpend.standard coin
      [.assertConcurrentSpend (sdk.coinId lead)]).flatMap (PlannedSpend.created sdk wrap) = [] := by
    rw [List.flatMap_map]
    exact List.flatMap_eq_nil_iff.mpr fun coin _ => rfl
  rw [plannedCoins, xchPlan, List.flatMap_cons, hidle, List.append_nil, created_standard]

theorem plannedCoins_catPlan (lead : Cat) (rest : List Cat) :
    plannedCoins sdk wrap (catPlan (lead :: rest) conditions) =
      childrenAt sdk lead.coin (wrapped wrap lead.info (createdPairs conditions)) := by
  have hidle : (rest.map fun spent => PlannedSpend.cat spent []).flatMap
      (PlannedSpend.created sdk wrap) = [] := by
    rw [List.flatMap_map]
    exact List.flatMap_eq_nil_iff.mpr fun spent _ => rfl
  rw [plannedCoins, catPlan, List.flatMap_cons, hidle, List.append_nil, created_cat]

/-- What a CAT's lead creates at different hashes is apart. -/
theorem WrapsApart.lead {lead : Cat} {rest : List Cat} {plan : List PlannedSpend}
    (h : WrapsApart wrap (catPlan (lead :: rest) conditions ++ plan)) :
    ∀ pair ∈ createdPairs conditions, ∀ pair' ∈ createdPairs conditions,
      wrap lead.info pair.1 = wrap lead.info pair'.1 → pair.1 = pair'.1 := by
  intro pair hpair pair' hpair'
  obtain ⟨create, hcreate, rfl⟩ := List.mem_map.mp hpair
  obtain ⟨create', hcreate', rfl⟩ := List.mem_map.mp hpair'
  exact h (.cat lead conditions) List.mem_cons_self create hcreate create' hcreate'

/-- The standard layer keeps the hash. -/
theorem wrapsApart_xchPlan (selected : List Coin) :
    WrapsApart wrap (xchPlan sdk selected conditions) := by
  intro planned hplanned create _ create' _ heq
  cases selected with
  | nil => cases hplanned
  | cons lead supporting =>
    rcases List.mem_cons.mp hplanned with rfl | hplanned
    · exact heq
    · obtain ⟨coin, -, rfl⟩ := List.mem_map.mp hplanned
      exact heq

theorem ordinary_xchPlan (h : ∀ c ∈ conditions, Ordinary c) (selected : List Coin) :
    ∀ planned ∈ xchPlan sdk selected conditions, ∀ c ∈ planned.conditions, Ordinary c := by
  cases selected with
  | nil => simp [xchPlan]
  | cons lead supporting =>
    refine List.forall_mem_cons.mpr ⟨h, fun planned hplanned c hc => ?_⟩
    obtain ⟨coin, -, rfl⟩ := List.mem_map.mp hplanned
    rw [List.mem_singleton.mp hc]
    exact .assertConcurrentSpend _

theorem ordinary_catPlan (h : ∀ c ∈ conditions, Ordinary c) (cats : List Cat) :
    ∀ planned ∈ catPlan cats conditions, ∀ c ∈ planned.conditions, Ordinary c := by
  cases cats with
  | nil => simp [catPlan]
  | cons lead rest =>
    refine List.forall_mem_cons.mpr ⟨h, fun planned hplanned c hc => ?_⟩
    obtain ⟨spent, -, rfl⟩ := List.mem_map.mp hplanned
    cases hc

variable (sdk wrap) in
/-- A plan whose created coins are distinct exactly when the pairs of its lead are. -/
structure LeadCreates (plan : List PlannedSpend) (pairs : Pairs) : Prop where
  ordinary : ∀ planned ∈ plan, ∀ c ∈ planned.conditions, Ordinary c
  distinct : sdk.CoinIdsApart (coinsInPlay sdk wrap plan) → WrapsApart wrap plan →
    (((plannedCoins sdk wrap plan).map sdk.coinId).Nodup ↔ pairs.Nodup)

theorem plannedCoins_subset (plan : List PlannedSpend) :
    plannedCoins sdk wrap plan ⊆ coinsInPlay sdk wrap plan := by
  intro coin hcoin
  exact List.mem_append_right _ hcoin

variable (sdk wrap) in
theorem leadCreates_xch {pairs : Pairs} {fee : ℕ} (hcarries : Carries conditions pairs fee)
    {selected : List Coin} (hne : selected ≠ []) :
    LeadCreates sdk wrap (xchPlan sdk selected conditions) pairs := by
  refine ⟨ordinary_xchPlan hcarries.ordinary selected, fun hids _ => ?_⟩
  cases selected with
  | nil => exact absurd rfl hne
  | cons lead supporting =>
    rw [nodup_ids_iff (hids.mono (plannedCoins_subset _)), plannedCoins_xchPlan, hcarries.created,
      nodup_childrenAt]

variable {drivers : SpendDrivers} {overflowChecks : Bool} {builder : SdkSpendBuilder}

/-- No coin of the provider is both an XCH coin and a CAT. -/
def SpendInputs.Apart (inputs : SpendInputs) : Prop :=
  ∀ identity assetId coins cats, inputs.spendableXch identity = .ok coins →
    inputs.spendableCat identity assetId = .ok cats → ∀ cat ∈ cats, cat.coin ∉ coins

variable (wrap) in
theorem leadCreates_payXch {identity : IdentityRef} {pays : Pairs} {target fee : UInt64}
    {plan : List PlannedSpend} (hpos : 0 < target)
    (h : builder.payXch sdk drivers overflowChecks identity pays target fee = some plan) :
    ∃ funding, builder.fundXch sdk overflowChecks identity target = some funding ∧
      LeadCreates sdk wrap plan (pays ++ changePairs funding.changePh funding.change) := by
  obtain ⟨changePh, coins, selected, change, paid, hchangePh, hcoins, hselects, hpaid, rfl⟩ :=
    payXch_eq_some h
  obtain ⟨sum, hselected, -⟩ := selects_eq_some hselects
  have hcarries := Carries.paid hpaid changePh change fee
  refine ⟨⟨changePh, selected, change⟩, ?_, leadCreates_xch sdk wrap hcarries (hselected.ne_nil hpos)⟩
  simp [fundXch, Except.toOption, hchangePh, hcoins, hselects]

/-- The children of two different coins are apart. -/
theorem disjoint_childrenAt {parent parent' : Coin} (h : sdk.coinId parent ≠ sdk.coinId parent')
    (pairs pairs' : Pairs) :
    List.Disjoint (childrenAt sdk parent pairs) (childrenAt sdk parent' pairs') := by
  intro coin hcoin hcoin'
  obtain ⟨pair, -, rfl⟩ := List.mem_map.mp hcoin
  obtain ⟨pair', -, heq⟩ := List.mem_map.mp hcoin'
  exact h (congrArg Coin.parentCoinInfo heq).symm

theorem leadCreates_payCat (happart : builder.inputs.Apart) {identity : IdentityRef} {assetId : AssetId}
    {pays : Pairs} {payout fee : UInt64} {plan : List PlannedSpend}
    (h : builder.payCat sdk drivers overflowChecks identity assetId pays payout fee = some plan) :
    ∃ funding, builder.fundCat overflowChecks identity assetId payout = some funding ∧
      LeadCreates sdk wrap plan (pays ++ changePairs funding.changePh funding.change) := by
  obtain ⟨changePh, cats, catTotal, paid, feeLeg, hchangePh, hcats, hcatTotal, hne, hcovers, hpaid,
    hfeeLeg, rfl⟩ := payCat_eq_some h
  have hcarries := (Carries.payments hpaid).append (.change changePh (catTotal - payout))
  refine ⟨⟨changePh, cats, catTotal - payout⟩, ?_, ?_, fun hids hwraps => ?_⟩
  · simp [fundCat, Except.toOption, hchangePh, hcats, hcatTotal, hne, hcovers]
  · refine List.forall_mem_append.mpr ⟨ordinary_catPlan hcarries.ordinary cats, ?_⟩
    obtain ⟨-, rfl⟩ | ⟨-, lead, coins, selected, change, -, -, -, rfl⟩ := feePlan_eq_some hfeeLeg
    · simp
    · have hfee := Carries.catFee fee (sdk.coinId lead.coin) changePh change
      exact ordinary_xchPlan hfee.ordinary selected
  · rw [nodup_ids_iff (hids.mono (plannedCoins_subset _)), plannedCoins_append]
    cases cats with
    | nil => exact absurd rfl hne
    | cons lead rest =>
      have hlead : (childrenAt sdk lead.coin (wrapped wrap lead.info
          (createdPairs (paid ++ changeCondition changePh (catTotal - payout))))).Nodup ↔
          (pays ++ changePairs changePh (catTotal - payout)).Nodup := by
        rw [nodup_childrenAt, nodup_wrapped hwraps.lead, hcarries.created]
      rw [plannedCoins_catPlan, List.nodup_append', hlead, and_iff_left]
      obtain ⟨-, rfl⟩ | ⟨hpos, lead', coins, selected, change, hlead', hcoins, hselects, rfl⟩ :=
        feePlan_eq_some hfeeLeg
      · exact ⟨List.nodup_nil, List.disjoint_nil_right _⟩
      · obtain ⟨sum, hselected, -⟩ := selects_eq_some hselects
        have hfee := Carries.catFee fee (sdk.coinId lead'.coin) changePh change
        cases selected with
        | nil => exact absurd rfl (hselected.ne_nil hpos)
        | cons feeLead supporting =>
          have hcreated : createdPairs (.reserveFee fee :: .assertConcurrentSpend
              (sdk.coinId lead'.coin) :: changeCondition changePh change) =
              changePairs changePh change := hfee.created
          rw [plannedCoins_xchPlan, hcreated, nodup_childrenAt]
          refine ⟨nodup_changePairs _ _, disjoint_childrenAt ?_ _ _⟩
          -- the fee coins are XCH coins, the lead is a CAT
          intro heq
          have hcoin : lead.coin = feeLead :=
            hids lead.coin (by simp [coinsInPlay, catPlan, PlannedSpend.coin]) feeLead
              (by simp [coinsInPlay, xchPlan, PlannedSpend.coin]) heq
          refine happart _ _ _ _ hcoins hcats lead List.mem_cons_self ?_
          rw [hcoin]
          exact hselected.subset List.mem_cons_self

/-! ## Colliding requests -/

variable (sdk drivers overflowChecks builder) in
/-- What the builder returns creates no coin id twice, and a request whose coins would collide is
refused as `InvalidInput`. -/
def NeverCollides (wrap : CatInfo → Bytes32 → Bytes32) (request : BuildRequest) : Prop :=
  (∀ unsigned, builder.build sdk drivers overflowChecks request = .ok unsigned →
    DistinctIds sdk unsigned) ∧
  ∀ plan, builder.plan sdk drivers overflowChecks request = some plan →
    ¬ ((plannedCoins sdk wrap plan).map sdk.coinId).Nodup →
    ∃ e, builder.build sdk drivers overflowChecks request = .error (.refused e) ∧
      e.code = .invalidInput

variable (sdk overflowChecks builder) in
/-- The single send pays the change puzzle hash the very change its inputs leave. -/
def PaysTheChange : BuildRequest → Prop
  | .sendXch r => ∃ target funding, checkedTarget r.amount.mojos r.fee.mojos = .ok target ∧
      builder.fundXch sdk overflowChecks r.identity target = some funding ∧
      decodeAddress sdk r.toAddress = .ok funding.changePh ∧
      0 < funding.change ∧ funding.change = r.amount.mojos
  | .sendCat r => ∃ funding,
      builder.fundCat overflowChecks r.identity r.assetId r.amount.mojos = some funding ∧
      decodeAddress sdk r.toAddress = .ok funding.changePh ∧
      0 < funding.change ∧ funding.change = r.amount.mojos
  | .multiSendXch _ | .multiSendCat _ | .combineXch _ | .splitXch _ => False

/-- With a plan, either the pairs of its lead are distinct or the builder refuses. -/
theorem neverCollides_of_plan (hdrivers : drivers.Emit sdk wrap) {request : BuildRequest}
    {plan : List PlannedSpend} {pairs : Pairs}
    (hplan : builder.plan sdk drivers overflowChecks request = some plan)
    (hids : sdk.CoinIdsApart (coinsInPlay sdk wrap plan)) (hwraps : WrapsApart wrap plan)
    (hleads : LeadCreates sdk wrap plan pairs) :
    NeverCollides sdk drivers overflowChecks builder wrap request ↔ pairs.Nodup ∨
      ∃ e, builder.build sdk drivers overflowChecks request = .error (.refused e) ∧
        e.code = .invalidInput := by
  have hnodup := hleads.distinct hids hwraps
  constructor
  · rintro ⟨-, hrefuses⟩
    by_cases h : pairs.Nodup
    · exact .inl h
    · exact .inr (hrefuses plan hplan (mt hnodup.mp h))
  · intro h
    refine ⟨fun unsigned hbuilt => ?_, fun plan' hplan' hcollides => ?_⟩
    · obtain h | ⟨e, herror, -⟩ := h
      · obtain ⟨plan', hplanned⟩ := build_planned hdrivers hbuilt
        obtain rfl := Option.some.inj (hplan.symm.trans hplanned.plan_eq)
        exact ⟨_, createdCoinObjects_emitted hdrivers hleads.ordinary hplanned.runs hplanned.emitted,
          hnodup.mpr h⟩
      · cases herror.symm.trans hbuilt
    · obtain rfl := Option.some.inj (hplan.symm.trans hplan')
      obtain h | hrefused := h
      · exact absurd (hnodup.mpr h) hcollides
      · exact hrefused

/-! ## The multi-sends check -/

theorem selectOrFail_of_selects {coins selected : List Coin} {target change : UInt64}
    (h : builder.selects sdk overflowChecks coins target = some (selected, change)) (asset : String) :
    selectOrFail sdk overflowChecks coins target builder.coinCap asset = .ok selected := by
  obtain ⟨sum, houtcome⟩ := selectForSpend_of_selects h
  unfold selectOrFail
  rw [houtcome]
  rfl

theorem buildMultiSendXch_refuses {r : MultiSendXchRequest} {destinations : Pairs}
    {payout target : UInt64} {plan : List PlannedSpend} {funding : Funding Coin}
    (hdestinations : resolveLegs sdk r.legs = .ok destinations) (hpayout : totalOf r.legs = .ok payout)
    (htarget : checkedAdd payout r.fee.mojos = some target) (hpos : 0 < target)
    (hplan : builder.payXch sdk drivers overflowChecks r.identity destinations target r.fee.mojos =
      some plan)
    (hfunding : builder.fundXch sdk overflowChecks r.identity target = some funding)
    (h : ¬ (destinations ++ changePairs funding.changePh funding.change).Nodup) :
    ∃ e, builder.buildMultiSendXch sdk drivers overflowChecks r = .error (.refused e) ∧
      e.code = .invalidInput := by
  obtain ⟨changePh, coins, selected, change, paid, hchangePh, hcoins, hselects, -, -⟩ :=
    payXch_eq_some hplan
  simp only [fundXch, hchangePh, hcoins, Except.toOption, Option.bind_eq_bind, Option.bind_some,
    hselects, Option.some.injEq] at hfunding
  subst hfunding
  obtain ⟨sum, hselected, hchange⟩ := selects_eq_some hselects
  have hne := hselected.ne_nil hpos
  obtain ⟨e, he, hcode⟩ := ensureDistinct_refuses sdk (selected.head hne) h
  refine ⟨e, ?_, hcode⟩
  unfold buildMultiSendXch
  simp [hdestinations, hpayout, htarget, hchangePh, hcoins, selectOrFail_of_selects hselects,
    hselected.sum_eq, hchange, List.head?_eq_some_head hne, he, okOr, bind, Except.bind]

theorem buildMultiSendCat_refuses {r : MultiSendCatRequest} {destinations : Pairs}
    {payout : UInt64} {plan : List PlannedSpend} {funding : Funding Cat}
    (hdestinations : resolveLegs sdk r.legs = .ok destinations) (hpayout : totalOf r.legs = .ok payout)
    (hplan : builder.payCat sdk drivers overflowChecks r.identity r.assetId destinations payout
      r.fee.mojos = some plan)
    (hfunding : builder.fundCat overflowChecks r.identity r.assetId payout = some funding)
    (h : ¬ (destinations ++ changePairs funding.changePh funding.change).Nodup) :
    ∃ e, builder.buildMultiSendCat sdk drivers overflowChecks r = .error (.refused e) ∧
      e.code = .invalidInput := by
  obtain ⟨changePh, cats, catTotal, paid, feeLeg, hchangePh, hcats, hcatTotal, hne, hcovers, -, -, -⟩ :=
    payCat_eq_some hplan
  simp only [fundCat, hchangePh, hcats, hcatTotal, Except.toOption, Option.bind_eq_bind,
    Option.bind_some, ne_eq, hne, not_false_eq_true, hcovers, and_self, if_true,
    Option.some.injEq] at hfunding
  subst hfunding
  have hshort : ¬ catTotal < payout := UInt64.not_lt.mpr hcovers
  have hsub : subU64 overflowChecks catTotal payout = some (catTotal - payout) :=
    if_neg fun h => hshort h.2
  obtain ⟨e, he, hcode⟩ := ensureDistinct_refuses sdk (cats.head hne).coin h
  refine ⟨e, ?_, hcode⟩
  unfold buildMultiSendCat
  simp [hdestinations, hpayout, hchangePh, hcats, hcatTotal, hne, hshort, hsub,
    List.head?_eq_some_head hne, he, refuseIf, bind, Except.bind]

/-! ## The single sends do not -/

/-- No refusal of the call is an `InvalidInput`. -/
def KeepsInput {α : Type} (c : Call WalletError α) : Prop :=
  ∀ e, c = .error (.refused e) → e.code ≠ .invalidInput

theorem not_invalidInput_of_isRefusal (e : WalletError) (h : IsRefusal e) : e.code ≠ .invalidInput := by
  intro hcode
  cases h.symm.trans hcode

theorem insufficientFunds_not_invalidInput (message : String) :
    (insufficientFunds message).code ≠ .invalidInput := by
  intro hcode
  cases hcode

variable (drivers overflowChecks) in
/-- Past its inputs, an XCH send blames no input. -/
theorem keepsInput_buildSendXch {r : SendXchRequest} {target : UInt64}
    {destination changePh : Bytes32} {coins : List Coin}
    (htarget : checkedTarget r.amount.mojos r.fee.mojos = .ok target)
    (hdestination : decodeAddress sdk r.toAddress = .ok destination)
    (hchangePh : builder.inputs.changePuzzleHash r.identity = .ok changePh)
    (hcoins : builder.inputs.spendableXch r.identity = .ok coins) :
    KeepsInput (builder.buildSendXch sdk drivers overflowChecks r) :=
  refusedWith_buildSendXch not_invalidInput_of_isRefusal (refusedWith_of_ok htarget)
    (refusedWith_of_ok hdestination) (refusedWith_of_ok hchangePh) (refusedWith_of_ok hcoins)
    (fun _ _ _ => insufficientFunds_not_invalidInput _) fun _ _ => insufficientFunds_not_invalidInput _

variable (drivers overflowChecks) in
/-- Past its inputs, a CAT send blames no input. -/
theorem keepsInput_buildSendCat {r : SendCatRequest} {destination changePh : Bytes32}
    {cats : List Cat} (hamount : r.amount.mojos ≠ 0)
    (hdestination : decodeAddress sdk r.toAddress = .ok destination)
    (hchangePh : builder.inputs.changePuzzleHash r.identity = .ok changePh)
    (hcats : builder.inputs.spendableCat r.identity r.assetId = .ok cats)
    (hfee : 0 < r.fee.mojos → ∃ coins, builder.inputs.spendableXch r.identity = .ok coins) :
    KeepsInput (builder.buildSendCat sdk drivers overflowChecks r) := by
  have hpays : RefusedWith (fun e => e.code ≠ .invalidInput) (refuseIf (r.amount.mojos = 0)
      (invalidInput "a CAT send must move a non-zero amount")) := by
    rw [refuseIf, if_neg hamount]
    exact refusedWith_ok ()
  refine refusedWith_buildSendCat not_invalidInput_of_isRefusal hpays (refusedWith_of_ok hdestination)
    (refusedWith_of_ok hchangePh) (refusedWith_of_ok hcats) (insufficientFunds_not_invalidInput _)
    (fun _ => insufficientFunds_not_invalidInput _) (fun hpos => ?_)
    (fun _ _ _ => insufficientFunds_not_invalidInput _) fun _ _ => insufficientFunds_not_invalidInput _
  obtain ⟨coins, hcoins⟩ := hfee hpos
  exact refusedWith_of_ok hcoins

/-! ## Every request -/

theorem neverCollides_sendXch (hdrivers : drivers.Emit sdk wrap) {r : SendXchRequest}
    {plan : List PlannedSpend}
    (hplan : builder.plan sdk drivers overflowChecks (.sendXch r) = some plan)
    (hids : sdk.CoinIdsApart (coinsInPlay sdk wrap plan)) (hwraps : WrapsApart wrap plan) :
    NeverCollides sdk drivers overflowChecks builder wrap (.sendXch r) ↔
      ¬ PaysTheChange sdk overflowChecks builder (.sendXch r) := by
  have hpay := hplan
  obtain ⟨target, destination, htarget, hdestination, hpay⟩ := sendXchPlan_eq_some hpay
  obtain ⟨funding, hfunding, hleads⟩ :=
    leadCreates_payXch wrap (toNat_of_checkedTarget htarget).2 hpay
  obtain ⟨changePh, coins, -, -, -, hchangePh, hcoins, -, -, -⟩ := payXch_eq_some hpay
  have hkeeps := keepsInput_buildSendXch drivers overflowChecks
    htarget hdestination hchangePh hcoins
  rw [neverCollides_of_plan hdrivers hplan hids hwraps hleads, nodup_single_iff, or_iff_left, not_iff_not]
  · constructor
    · rintro ⟨hpos, rfl, hamount⟩
      exact ⟨target, funding, htarget, hfunding, hdestination, hpos, hamount⟩
    · rintro ⟨target', funding', htarget', hfunding', hdestination', hpos, hamount⟩
      obtain rfl := Except.ok.inj (htarget.symm.trans htarget')
      obtain rfl := Option.some.inj (hfunding.symm.trans hfunding')
      exact ⟨hpos, Except.ok.inj (hdestination.symm.trans hdestination'), hamount⟩
  · rintro ⟨e, herror, hcode⟩
    exact hkeeps e herror hcode

theorem neverCollides_sendCat (hdrivers : drivers.Emit sdk wrap) (happart : builder.inputs.Apart)
    {r : SendCatRequest} {plan : List PlannedSpend}
    (hplan : builder.plan sdk drivers overflowChecks (.sendCat r) = some plan)
    (hids : sdk.CoinIdsApart (coinsInPlay sdk wrap plan)) (hwraps : WrapsApart wrap plan) :
    NeverCollides sdk drivers overflowChecks builder wrap (.sendCat r) ↔
      ¬ PaysTheChange sdk overflowChecks builder (.sendCat r) := by
  have hpay := hplan
  obtain ⟨hzero, destination, hdestination, hpay⟩ := sendCatPlan_eq_some hpay
  obtain ⟨funding, hfunding, hleads⟩ := leadCreates_payCat happart hpay
  obtain ⟨changePh, cats, -, -, feeLeg, hchangePh, hcats, -, -, -, -, hfeeLeg, -⟩ :=
    payCat_eq_some hpay
  have hfee : 0 < r.fee.mojos → ∃ coins, builder.inputs.spendableXch r.identity = .ok coins := by
    intro hpos
    obtain ⟨hnone, -⟩ | ⟨-, -, coins, -, -, -, hcoins, -, -⟩ := feePlan_eq_some hfeeLeg
    · rw [hnone] at hpos
      exact absurd hpos (by decide)
    · exact ⟨coins, hcoins⟩
  have hkeeps := keepsInput_buildSendCat drivers overflowChecks
    hzero hdestination hchangePh hcats hfee
  rw [neverCollides_of_plan hdrivers hplan hids hwraps hleads, nodup_single_iff, or_iff_left, not_iff_not]
  · constructor
    · rintro ⟨hpos, rfl, hamount⟩
      exact ⟨funding, hfunding, hdestination, hpos, hamount⟩
    · rintro ⟨funding', hfunding', hdestination', hpos, hamount⟩
      obtain rfl := Option.some.inj (hfunding.symm.trans hfunding')
      exact ⟨hpos, Except.ok.inj (hdestination.symm.trans hdestination'), hamount⟩
  · rintro ⟨e, herror, hcode⟩
    exact hkeeps e herror hcode

theorem neverCollides_multiSendXch (hdrivers : drivers.Emit sdk wrap) {r : MultiSendXchRequest}
    {plan : List PlannedSpend}
    (hplan : builder.plan sdk drivers overflowChecks (.multiSendXch r) = some plan)
    (hids : sdk.CoinIdsApart (coinsInPlay sdk wrap plan)) (hwraps : WrapsApart wrap plan) :
    NeverCollides sdk drivers overflowChecks builder wrap (.multiSendXch r) := by
  have hpay := hplan
  obtain ⟨destinations, payout, target, hdestinations, hpayout, htarget, hpay⟩ :=
    multiSendXchPlan_eq_some hpay
  have hpos := target_pos_of_resolveLegs hdestinations hpayout htarget
  obtain ⟨funding, hfunding, hleads⟩ := leadCreates_payXch wrap hpos hpay
  rw [neverCollides_of_plan hdrivers hplan hids hwraps hleads]
  refine or_iff_not_imp_left.mpr fun hcollides => ?_
  exact buildMultiSendXch_refuses hdestinations hpayout htarget hpos hpay hfunding hcollides

theorem neverCollides_multiSendCat (hdrivers : drivers.Emit sdk wrap)
    (happart : builder.inputs.Apart) {r : MultiSendCatRequest} {plan : List PlannedSpend}
    (hplan : builder.plan sdk drivers overflowChecks (.multiSendCat r) = some plan)
    (hids : sdk.CoinIdsApart (coinsInPlay sdk wrap plan)) (hwraps : WrapsApart wrap plan) :
    NeverCollides sdk drivers overflowChecks builder wrap (.multiSendCat r) := by
  have hpay := hplan
  obtain ⟨destinations, payout, hdestinations, hpayout, hpay⟩ := multiSendCatPlan_eq_some hpay
  obtain ⟨funding, hfunding, hleads⟩ := leadCreates_payCat happart hpay
  rw [neverCollides_of_plan hdrivers hplan hids hwraps hleads]
  refine or_iff_not_imp_left.mpr fun hcollides => ?_
  exact buildMultiSendCat_refuses hdestinations hpayout hpay hfunding hcollides

theorem neverCollides_combineXch (hdrivers : drivers.Emit sdk wrap) {r : CombineXchRequest}
    {plan : List PlannedSpend}
    (hplan : builder.plan sdk drivers overflowChecks (.combineXch r) = some plan)
    (hids : sdk.CoinIdsApart (coinsInPlay sdk wrap plan)) (hwraps : WrapsApart wrap plan) :
    NeverCollides sdk drivers overflowChecks builder wrap (.combineXch r) := by
  obtain ⟨changePh, coins, selected, sum, -, -, -, hne, -, -, rfl⟩ := combinePlan_eq_some hplan
  have hcarries := Carries.merged changePh (sum - r.fee.mojos) r.fee.mojos
  exact (neverCollides_of_plan hdrivers hplan hids hwraps (leadCreates_xch sdk wrap hcarries hne)).mpr
    (.inl (List.nodup_singleton _))

/-- The amounts of a split are distinct, so its check never fails. -/
theorem neverCollides_splitXch (hdrivers : drivers.Emit sdk wrap) {r : SplitXchRequest}
    {plan : List PlannedSpend}
    (hplan : builder.plan sdk drivers overflowChecks (.splitXch r) = some plan)
    (hids : sdk.CoinIdsApart (coinsInPlay sdk wrap plan)) (hwraps : WrapsApart wrap plan) :
    NeverCollides sdk drivers overflowChecks builder wrap (.splitXch r) := by
  obtain ⟨changePh, coins, selected, amounts, -, -, -, -, hamounts, rfl⟩ := splitPlan_eq_some hplan
  have hcarries := Carries.spread changePh amounts r.fee.mojos
  have hleads := leadCreates_xch sdk wrap hcarries (List.cons_ne_nil selected [])
  have hpairs := (nodup_of_staggeredAmounts hamounts).map (f := fun amount => (changePh, amount))
    fun amount amount' heq => congrArg Prod.snd heq
  exact (neverCollides_of_plan hdrivers hplan hids hwraps hleads).mpr (.inl hpairs)

/-- Without a plan nothing is built. -/
theorem neverCollides_of_none (hdrivers : drivers.Emit sdk wrap) {request : BuildRequest}
    (hplan : builder.plan sdk drivers overflowChecks request = none) :
    NeverCollides sdk drivers overflowChecks builder wrap request := by
  refine ⟨fun unsigned hbuilt => ?_, fun plan hsome => ?_⟩
  · obtain ⟨plan, hplanned⟩ := build_planned hdrivers hbuilt
    cases hplan.symm.trans hplanned.plan_eq
  · cases hplan.symm.trans hsome

end Plan

/-- **The created coins are distinct or the request is refused, except where** a single send that the
inputs cover pays the change address the very change. -/
theorem neverCollides_iff (sdk : Sdk) (drivers : SpendDrivers) (wrap : CatInfo → Bytes32 → Bytes32)
    (hdrivers : drivers.Emit sdk wrap) (overflowChecks : Bool) (builder : SdkSpendBuilder)
    (happart : builder.inputs.Apart) (request : BuildRequest)
    (hids : ∀ plan, builder.plan sdk drivers overflowChecks request = some plan →
      sdk.CoinIdsApart (coinsInPlay sdk wrap plan) ∧ WrapsApart wrap plan) :
    NeverCollides sdk drivers overflowChecks builder wrap request ↔
      ¬ ((∃ plan, builder.plan sdk drivers overflowChecks request = some plan) ∧
        PaysTheChange sdk overflowChecks builder request) := by
  cases hplan : builder.plan sdk drivers overflowChecks request with
  | none => simp [neverCollides_of_none hdrivers hplan]
  | some plan =>
    obtain ⟨hapart, hwraps⟩ := hids plan hplan
    have hsome : ∃ plan', some plan = some plan' := ⟨plan, rfl⟩
    rw [and_iff_right hsome]
    cases request with
    | sendXch r => exact neverCollides_sendXch hdrivers hplan hapart hwraps
    | sendCat r => exact neverCollides_sendCat hdrivers happart hplan hapart hwraps
    | multiSendXch r =>
      exact iff_of_true (neverCollides_multiSendXch hdrivers hplan hapart hwraps) not_false
    | multiSendCat r =>
      exact iff_of_true (neverCollides_multiSendCat hdrivers happart hplan hapart hwraps) not_false
    | combineXch r => exact iff_of_true (neverCollides_combineXch hdrivers hplan hapart hwraps) not_false
    | splitXch r => exact iff_of_true (neverCollides_splitXch hdrivers hplan hapart hwraps) not_false

namespace Sim

/-- Half of the coin, without a fee. -/
def sendHalf (hash : Bytes32) : BuildRequest := .sendXch ⟨identity, addressOf hash, ⟨50⟩, ⟨0⟩⟩

theorem oneCoin_apart : oneCoin.inputs.Apart := by
  intro identity assetId coins cats _ hcats cat hcat
  have hnone : cats = [] := by
    simp only [oneCoin, builder, inputs, ite_self, Except.ok.injEq] at hcats
    exact hcats.symm
  subst hnone
  cases hcat

/-- The hashes in play, checked on the plan a request comes to. -/
theorem hashesApart_of_all {planned : Option (List PlannedSpend)} {plan : List PlannedSpend}
    (hplan : planned = some plan)
    (hfacts : (planned.all fun plan => decide (sim.CoinIdsApart (coinsInPlay sim wrap plan) ∧
      WrapsApart wrap plan)) = true) :
    sim.CoinIdsApart (coinsInPlay sim wrap plan) ∧ WrapsApart wrap plan := by
  rw [hplan] at hfacts
  exact of_decide_eq_true hfacts

end Sim

open Sim in
/-- Half of a coin sent to a foreign address. -/
theorem neverCollides_foreign :
    NeverCollides sim spendDrivers true oneCoin wrap (sendHalf (.rep 0x42)) := by
  refine (neverCollides_iff sim spendDrivers wrap spendDrivers_emit true oneCoin oneCoin_apart
    (sendHalf (.rep 0x42)) fun plan hplan => hashesApart_of_all hplan (by decide +kernel)).mpr ?_
  rintro ⟨-, target, funding, -, hfunding, hdestination, -⟩
  have hchange : home = funding.changePh := by
    unfold SdkSpendBuilder.fundXch at hfunding
    simp only [Option.bind_eq_bind, Option.bind_eq_some_iff] at hfunding
    obtain ⟨changePh, hchangePh, coins, -, ⟨selected, change⟩, -, hfunding⟩ := hfunding
    cases hfunding
    exact Option.some.inj hchangePh
  have hforeign : decodeAddress sim (addressOf (.rep 0x42)) = .ok (.rep 0x42) := by decide +kernel
  have hhome : Bytes32.rep 0x42 = home :=
    (Except.ok.inj (hforeign.symm.trans hdestination)).trans hchange.symm
  exact absurd hhome (by decide)

open Sim in
/-- Half of a coin sent home: the payment and the change share an id. -/
theorem collides_home : ∃ unsigned,
    oneCoin.build sim spendDrivers true (sendHalf home) = .ok unsigned ∧
      ¬ DistinctIds sim unsigned := by
  have hcollides : (oneCoin.build sim spendDrivers true (sendHalf home)).toOption.any
      (fun unsigned => (createdCoinObjects sim unsigned.coinSpends).toOption.any fun created =>
        !decide (created.map sim.coinId).Nodup) = true := by decide +kernel
  obtain ⟨unsigned, hbuilt, hany⟩ := (Option.any_eq_true _ _).mp hcollides
  obtain ⟨created, hcreated, hnot⟩ := (Option.any_eq_true _ _).mp hany
  refine ⟨unsigned, toOption_eq_some.mp hbuilt, ?_⟩
  rintro ⟨created', hcreated', hnodup⟩
  obtain rfl := Except.ok.inj ((toOption_eq_some.mp hcreated).symm.trans hcreated')
  exact absurd hnodup (by simpa using hnot)

end DigWallet
