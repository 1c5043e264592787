import DigWallet.Engine.BuildTips
import DigWallet.Engine.PaysRequest
import DigWallet.Engine.Signable
import DigWallet.SimOptions

/-!
# DigWallet.Engine.HonestTips — what a tip spends and what a day of tips costs

`tips_honest`: a tip is drawn from the largest group of coins under one key and signs as summarized; an
auto-tip that is skipped touches no funds; the auto-tips of a day stay within its caps.
-/

namespace DigWallet

open Faults Totals SdkSpendBuilder

/-! ## The documented behaviour of `dig_tips` -/

/-- The ring entry spends the planned CAT under `key`. -/
inductive SpentBy (drivers : SpendDrivers) (key : PublicKey) : PlannedSpend → CatSpend → Prop
  | mk {spent conditions inner} (hinner : drivers.standardInner key conditions = .ok inner) :
      SpentBy drivers key (.cat spent conditions) ⟨spent, inner⟩

/-- One CAT payment from some of the coins offered, the rest returned as change. -/
structure PaysTip (drivers : SpendDrivers) (request : DigTips.TipRequest) (coinSpends : List CoinSpend)
    (selected : List Cat) (change : UInt64) (conditions : List Condition) (ring : List CatSpend) :
    Prop where
  offered : selected.Subperm request.cats
  nonempty : selected ≠ []
  balance : total (coinAmounts (selected.map Cat.coin)) = request.amount.toNat + change.toNat
  carries : Carries conditions
    ((request.recipient, request.amount) :: changePairs request.changeP2PuzzleHash change) 0
  spentBy : List.Forall₂ (SpentBy drivers request.ownerPk) (catPlan selected conditions) ring
  spends : drivers.catSpendAll ring = .ok coinSpends

/-- Every coin offered is of the asset and under the owner's key. -/
def DigTips.TipRequest.SingleKey (sdk : Sdk) (request : DigTips.TipRequest) : Prop :=
  ∀ cat ∈ request.cats, cat.info.assetId = request.assetId ∧
    cat.info.p2PuzzleHash = sdk.standardCurryTreeHash request.ownerPk

/-- `decide_auto_tip` tips within the caps, `build_tip` pays what it is asked and
`build_tip_if_allowed` is the one after the other. -/
structure TipLibs.Lawful (libs : TipLibs) : Prop where
  caps : ∀ {policy primary snapshot amount},
    libs.decideAutoTip policy primary snapshot = .tip amount →
    policy.enabled = true ∧ policy.mode = .auto ∧ policy.threshold ≤ primary ∧
      snapshot.tipsToday.toNat + 1 ≤ policy.maxTipsPerDay.toNat ∧
      snapshot.amountToday.toNat + amount.toNat ≤ policy.maxAmountPerDay.toNat
  ifAllowed : ∀ policy primary snapshot cats ownerPk change,
    libs.buildTipIfAllowed policy primary snapshot cats ownerPk change =
      match libs.decideAutoTip policy primary snapshot with
      | .tip amount =>
        (libs.buildTip ⟨cats, ownerPk, policy.assetId, policy.recipient, amount, change⟩).map
          fun coinSpends => (.tip amount, some coinSpends)
      | skip => .ok (skip, none)
  pays : ∀ {request coinSpends}, request.SingleKey libs.sdk →
    libs.buildTip request = .ok coinSpends → ∃ selected change conditions ring,
      PaysTip libs.drivers request coinSpends selected change conditions ring

/-! ## The search for the largest group -/

section Search

variable {overflowChecks : Bool} {inputs : SpendInputs} {cats : List Cat}

/-- What the loop knows after the coins of the puzzle hashes `done`. -/
structure Searched (overflowChecks : Bool) (inputs : SpendInputs) (cats : List Cat)
    (done : List Bytes32) (search : GroupSearch) : Prop where
  seen : ∀ puzzleHash, puzzleHash ∈ search.seen ↔ puzzleHash ∈ done
  keyless : search.best = none → ∀ puzzleHash ∈ done, inputs.syntheticKey puzzleHash = none
  largest : ∀ {key group sum}, search.best = some (key, group, sum) →
    (∃ puzzleHash ∈ done, inputs.syntheticKey puzzleHash = some key ∧ group = groupOf cats puzzleHash ∧
      sumU64 overflowChecks (coinAmounts (group.map Cat.coin)) = some sum) ∧
    ∀ other ∈ done, (inputs.syntheticKey other).isSome → ∃ otherSum,
      sumU64 overflowChecks (coinAmounts ((groupOf cats other).map Cat.coin)) = some otherSum ∧
        otherSum ≤ sum

/-- A puzzle hash seen before or without a key changes nothing. -/
theorem Searched.keep {done : List Bytes32} {search search' : GroupSearch} {puzzleHash : Bytes32}
    (h : Searched overflowChecks inputs cats done search)
    (hpast : puzzleHash ∈ done ∨ inputs.syntheticKey puzzleHash = none)
    (hseen : ∀ other, other ∈ search'.seen ↔ other ∈ done ++ [puzzleHash])
    (hbest : search'.best = search.best) :
    Searched overflowChecks inputs cats (done ++ [puzzleHash]) search' := by
  refine ⟨hseen, fun hnone other hother => ?_, fun hsome => ?_⟩
  · have hkeyless := h.keyless (hbest.symm.trans hnone)
    rcases List.mem_append.mp hother with hother | hother
    · exact hkeyless other hother
    · rw [List.mem_singleton.mp hother]
      exact hpast.elim (hkeyless puzzleHash) id
  · obtain ⟨⟨p, hp, hgroup⟩, hlargest⟩ := h.largest (hbest.symm.trans hsome)
    refine ⟨⟨p, List.mem_append_left _ hp, hgroup⟩, fun other hother hkey => ?_⟩
    rcases List.mem_append.mp hother with hother | hother
    · exact hlargest other hother hkey
    · rw [List.mem_singleton] at hother
      subst hother
      rcases hpast with hpast | hnone
      · exact hlargest other hpast hkey
      · rw [hnone] at hkey
        cases hkey

/-- A new group takes the lead when it is worth more, and only then. -/
theorem Searched.compare {done : List Bytes32} {search : GroupSearch} {puzzleHash : Bytes32}
    {key : PublicKey} {sum : UInt64} (h : Searched overflowChecks inputs cats done search)
    (hkey : inputs.syntheticKey puzzleHash = some key)
    (hsum : sumU64 overflowChecks (coinAmounts ((groupOf cats puzzleHash).map Cat.coin)) = some sum) :
    Searched overflowChecks inputs cats (done ++ [puzzleHash])
      ⟨if search.best.all fun (_, _, bestTotal) => bestTotal < sum then
          some (key, groupOf cats puzzleHash, sum) else search.best, search.seen ++ [puzzleHash]⟩ := by
  have hlast : puzzleHash ∈ done ++ [puzzleHash] := by simp
  have hseen : ∀ other, other ∈ search.seen ++ [puzzleHash] ↔ other ∈ done ++ [puzzleHash] := by
    intro other
    rw [List.mem_append, List.mem_append, h.seen]
  by_cases himproves : (search.best.all fun (_, _, bestTotal) => bestTotal < sum) = true
  · rw [if_pos himproves]
    refine ⟨hseen, nofun, fun hbest => ?_⟩
    cases hbest
    refine ⟨⟨puzzleHash, hlast, hkey, rfl, hsum⟩, fun other hother hsome => ?_⟩
    rcases List.mem_append.mp hother with hother | hother
    · cases hbest : search.best with
      | none =>
        rw [h.keyless hbest other hother] at hsome
        cases hsome
      | some best =>
        obtain ⟨bestKey, bestGroup, bestTotal⟩ := best
        obtain ⟨otherSum, hotherSum, hle⟩ := (h.largest hbest).2 other hother hsome
        rw [hbest] at himproves
        exact ⟨otherSum, hotherSum, le_of_lt (lt_of_le_of_lt hle (of_decide_eq_true himproves))⟩
    · rw [List.mem_singleton.mp hother]
      exact ⟨sum, hsum, le_refl _⟩
  · rw [if_neg himproves]
    have hbest : ∃ best, search.best = some best ∧ sum ≤ best.2.2 := by
      cases hbest : search.best with
      | none => exact absurd (by rw [hbest]; rfl) himproves
      | some best =>
        rw [hbest] at himproves
        exact ⟨best, rfl, le_of_not_gt fun hlt => himproves (decide_eq_true hlt)⟩
    obtain ⟨best, hbest, hle⟩ := hbest
    refine ⟨hseen, fun hnone => ?_, fun {bestKey bestGroup bestTotal} hsome => ?_⟩
    · rw [hbest] at hnone
      cases hnone
    · obtain rfl : best = (bestKey, bestGroup, bestTotal) := Option.some.inj (hbest.symm.trans hsome)
      obtain ⟨⟨p, hp, hgroup⟩, hlargest⟩ := h.largest hsome
      refine ⟨⟨p, List.mem_append_left _ hp, hgroup⟩, fun other hother hotherKey => ?_⟩
      rcases List.mem_append.mp hother with hother | hother
      · exact hlargest other hother hotherKey
      · rw [List.mem_singleton.mp hother]
        exact ⟨sum, hsum, hle⟩

theorem Searched.turn {done : List Bytes32} {search search' : GroupSearch} {cat : Cat}
    (h : Searched overflowChecks inputs cats done search)
    (hturn : inputs.considerGroup overflowChecks cats search cat = some search') :
    Searched overflowChecks inputs cats (done ++ [cat.info.p2PuzzleHash]) search' := by
  unfold SpendInputs.considerGroup at hturn
  generalize cat.info.p2PuzzleHash = puzzleHash at hturn ⊢
  dsimp only at hturn
  by_cases hseen : puzzleHash ∈ search.seen
  · rw [if_pos hseen] at hturn
    cases hturn
    have hdone := (h.seen puzzleHash).mp hseen
    refine h.keep (.inl hdone) (fun other => ?_) rfl
    rw [h.seen, List.mem_append, List.mem_singleton]
    exact (or_iff_left_of_imp fun hother => hother ▸ hdone).symm
  · rw [if_neg hseen] at hturn
    cases hkey : inputs.syntheticKey puzzleHash with
    | none =>
      rw [hkey] at hturn
      cases hturn
      refine h.keep (.inr hkey) (fun other => ?_) rfl
      rw [List.mem_append, List.mem_append, h.seen]
    | some key =>
      rw [hkey] at hturn
      simp only [Option.bind_eq_bind, Option.bind_eq_some_iff, Option.some.injEq] at hturn
      obtain ⟨sum, hsum, rfl⟩ := hturn
      exact h.compare hkey hsum

/-- Induction on the coins, the search generalized. -/
theorem Searched.run {done : List Bytes32} {search search' : GroupSearch} {rest : List Cat}
    (h : Searched overflowChecks inputs cats done search)
    (hrun : rest.foldlM (inputs.considerGroup overflowChecks cats) search = some search') :
    Searched overflowChecks inputs cats (done ++ rest.map fun cat => cat.info.p2PuzzleHash)
      search' := by
  induction rest generalizing done search with
  | nil =>
    cases hrun
    rw [List.map_nil, List.append_nil]
    exact h
  | cons cat rest ih =>
    simp only [List.foldlM_cons, Option.bind_eq_bind, Option.bind_eq_some_iff] at hrun
    obtain ⟨turned, hturn, hrest⟩ := hrun
    have hdone := ih (h.turn hturn) hrest
    rw [List.append_assoc] at hdone
    exact hdone

theorem searched_start : Searched overflowChecks inputs cats [] ⟨none, []⟩ where
  seen _ := Iff.rfl
  keyless _ _ h := absurd h List.not_mem_nil
  largest := nofun

end Search

/-! ## The purse -/

/-- The wallet's coins of the asset at one puzzle hash, under its key; no other such group is worth
more, as long as their totals are `u64`s. -/
structure Purse (libs : TipLibs) (builder : SdkSpendBuilder) (identity : IdentityRef)
    (assetId : AssetId) (asset : Bytes32) (key : PublicKey) (listed group : List Cat) : Prop where
  asset_eq : libs.parseAssetId assetId = .ok asset
  listed_eq : builder.inputs.spendableCat identity assetId = .ok listed
  group_eq : ∃ puzzleHash, builder.inputs.syntheticKey puzzleHash = some key ∧
    group = groupOf (listed.filter fun cat => cat.info.assetId = asset) puzzleHash
  nonempty : group ≠ []
  largest : (∀ puzzleHash, total (coinAmounts ((groupOf
      (listed.filter fun cat => cat.info.assetId = asset) puzzleHash).map Cat.coin)) < 2 ^ 64) →
    ∀ puzzleHash, (builder.inputs.syntheticKey puzzleHash).isSome →
      total (coinAmounts ((groupOf
        (listed.filter fun cat => cat.info.assetId = asset) puzzleHash).map Cat.coin)) ≤
      total (coinAmounts (group.map Cat.coin))

section Purse

variable {libs : TipLibs} {builder : SdkSpendBuilder} {identity : IdentityRef} {assetId : AssetId}

theorem groupOf_eq_nil {cats : List Cat} {puzzleHash : Bytes32}
    (h : puzzleHash ∉ cats.map fun cat => cat.info.p2PuzzleHash) : groupOf cats puzzleHash = [] := by
  refine List.filter_eq_nil_iff.mpr fun cat hcat hhash => h ?_
  rw [← of_decide_eq_true hhash]
  exact List.mem_map_of_mem hcat

/-- What `resolve_tip_inputs` returns. -/
theorem resolveTipInputs_eq_ok {inputs : TipInputs}
    (h : builder.resolveTipInputs libs identity assetId = .ok inputs) :
    ∃ listed, Purse libs builder identity assetId inputs.assetId inputs.ownerPk listed inputs.cats ∧
      builder.inputs.changePuzzleHash identity = .ok inputs.changePuzzleHash := by
  unfold resolveTipInputs at h
  simp only [bind_eq_ok, ofResult_eq_ok, orPanic_eq_ok] at h
  obtain ⟨asset, hasset, listed, hlisted, largest, hlargest, h⟩ := h
  cases largest with
  | none => cases h
  | some best =>
    obtain ⟨key, group⟩ := best
    simp only [bind_eq_ok, ofResult_eq_ok, Except.ok.injEq] at h
    obtain ⟨changePh, hchangePh, rfl⟩ := h
    refine ⟨listed, ?_, hchangePh⟩
    generalize hcats : (listed.filter fun cat => cat.info.assetId = asset) = cats at hlargest
    unfold SpendInputs.largestSingleKeyGroup at hlargest
    simp only [Option.bind_eq_bind, Option.bind_eq_some_iff, Option.some.injEq,
      Option.map_eq_some_iff] at hlargest
    obtain ⟨search, hsearch, ⟨bestKey, bestGroup, sum⟩, hbest, hpair⟩ := hlargest
    obtain ⟨rfl, rfl⟩ : key = bestKey ∧ group = bestGroup := Prod.mk.inj hpair.symm
    have hsearched := searched_start.run hsearch
    rw [List.nil_append] at hsearched
    obtain ⟨⟨puzzleHash, hmem, hkey, hgroup, hsum⟩, hlargest⟩ := hsearched.largest hbest
    refine ⟨hasset, hlisted, ⟨puzzleHash, hkey, by rw [hcats]; exact hgroup⟩, ?_, ?_⟩
    · obtain ⟨cat, hcat, hhash⟩ := List.mem_map.mp hmem
      have hin : cat ∈ group := by
        rw [hgroup]
        exact List.mem_filter.mpr ⟨hcat, decide_eq_true hhash⟩
      exact List.ne_nil_of_mem hin
    · rw [hcats]
      intro hfits other hotherKey
      by_cases hother : other ∈ cats.map fun cat => cat.info.p2PuzzleHash
      · obtain ⟨otherSum, hotherSum, hle⟩ := hlargest other hother hotherKey
        have hgroupFits : total (coinAmounts (group.map Cat.coin)) < 2 ^ 64 := by
          rw [hgroup]
          exact hfits puzzleHash
        rw [← toNat_of_sumU64 hotherSum (hfits other), ← toNat_of_sumU64 hsum hgroupFits]
        exact UInt64.le_iff_toNat_le.mp hle
      · rw [groupOf_eq_nil hother]
        exact Nat.zero_le _

end Purse

/-! ## One tip -/

/-- The builder with only the coins of a tip to spend. -/
def SdkSpendBuilder.drawing (builder : SdkSpendBuilder) (assetId : AssetId) (selected : List Cat) :
    SdkSpendBuilder :=
  { builder with
    inputs := { builder.inputs with
      spendableCat := fun identity other =>
        if other = assetId then .ok selected else builder.inputs.spendableCat identity other } }

/-- A tip as a CAT send without a fee. -/
def tipSend (identity : IdentityRef) (assetId : AssetId) (address : Address) (amount : Amount) :
    BuildRequest :=
  .sendCat ⟨identity, assetId, address, amount, ⟨0⟩⟩

section Tip

variable {libs : TipLibs} {builder : SdkSpendBuilder} {identity : IdentityRef} {assetId : AssetId}
  {asset : Bytes32} {key : PublicKey} {listed group selected : List Cat}

/-- The coins of a purse. -/
theorem Purse.mem (h : Purse libs builder identity assetId asset key listed group) {cat : Cat}
    (hcat : cat ∈ group) : cat ∈ listed ∧ cat.info.assetId = asset ∧
      builder.inputs.syntheticKey cat.info.p2PuzzleHash = some key := by
  obtain ⟨puzzleHash, hkey, hgroup⟩ := h.group_eq
  rw [hgroup] at hcat
  obtain ⟨hcat, hhash⟩ := List.mem_filter.mp hcat
  obtain ⟨hlisted, hasset⟩ := List.mem_filter.mp hcat
  rw [of_decide_eq_true hhash]
  exact ⟨hlisted, of_decide_eq_true hasset, hkey⟩

theorem Purse.singleKey (h : Purse libs builder identity assetId asset key listed group)
    (hinputs : builder.inputs.Honest libs.sdk libs.drivers) (recipient changePh : Bytes32)
    (amount : UInt64) :
    DigTips.TipRequest.SingleKey libs.sdk ⟨group, key, asset, recipient, amount, changePh⟩ := by
  intro cat hcat
  obtain ⟨-, hasset, hkey⟩ := h.mem hcat
  exact ⟨hasset, (hinputs.key hkey).symm⟩

theorem Purse.drawing_honest (h : Purse libs builder identity assetId asset key listed group)
    (hinputs : builder.inputs.Honest libs.sdk libs.drivers) (hdrawn : selected ⊆ group) :
    (builder.drawing assetId selected).inputs.Honest libs.sdk libs.drivers := by
  have hlisted : ∀ cat ∈ selected, cat ∈ listed := fun cat hcat => (h.mem (hdrawn hcat)).1
  refine ⟨fun hkey => hinputs.key hkey, fun {who what cats} hcats => ?_,
    fun {who what cats} hcats => ?_⟩
  · have hcats : (if what = assetId then .ok selected else builder.inputs.spendableCat who what) =
        Except.ok cats := hcats
    split_ifs at hcats with hwhat
    · cases hcats
      exact fun cat hcat => hinputs.catHash h.listed_eq cat (hlisted cat hcat)
    · exact hinputs.catHash hcats
  · have hcats : (if what = assetId then .ok selected else builder.inputs.spendableCat who what) =
        Except.ok cats := hcats
    split_ifs at hcats with hwhat
    · cases hcats
      subst hwhat
      exact fun cat hcat => hinputs.catAsset h.listed_eq cat (hlisted cat hcat)
    · exact hinputs.catAsset hcats

theorem mem_of_mem_catPlan {cats : List Cat} {conditions carried : List Condition} {spent : Cat}
    (h : .cat spent carried ∈ catPlan cats conditions) : spent ∈ cats := by
  cases cats with
  | nil => cases h
  | cons lead rest =>
    rcases List.mem_cons.mp h with h | h
    · cases h
      exact List.mem_cons_self
    · obtain ⟨cat, hcat, hspent⟩ := List.mem_map.mp h
      cases hspent
      exact List.mem_cons_of_mem _ hcat

/-- A ring under the key of its coins is one the wallet's inputs allow. -/
theorem inRing_of_spentBy {drivers : SpendDrivers} {inputs : SpendInputs} {plan : List PlannedSpend}
    {ring : List CatSpend} (h : List.Forall₂ (SpentBy drivers key) plan ring)
    (hkey : ∀ {spent conditions}, .cat spent conditions ∈ plan →
      inputs.syntheticKey spent.info.p2PuzzleHash = some key) :
    List.Forall₂ (InRing drivers inputs) plan ring := by
  refine ((List.forall₂_and_left _ _).mpr ⟨fun planned hplanned => hplanned, h⟩).imp ?_
  rintro planned entry ⟨hplanned, hspent⟩
  cases hspent with
  | mk hinner => exact .mk (hkey hplanned) hinner

theorem drawing_spendsExactly {address : Address} {amount : Amount} :
    (builder.drawing assetId selected).SpendsExactly libs.sdk
      (tipSend identity assetId address amount) ↔
      total (coinAmounts (selected.map Cat.coin)) < 2 ^ 64 := by
  constructor
  · rintro ⟨hfits, -⟩
    exact hfits selected (if_pos rfl)
  · intro hfits
    refine ⟨fun cats hcats => ?_, fun hfee => absurd hfee (lt_irrefl (0 : UInt64))⟩
    have hcats : (if assetId = assetId then .ok selected
        else builder.inputs.spendableCat identity assetId) = Except.ok cats := hcats
    rw [if_pos rfl] at hcats
    cases hcats
    exact hfits

/-- The plan of a tip balances. -/
theorem balanced_of_tip {address : Address} {amount : Amount} {recipient changePh : Bytes32}
    {coinSpends : List CoinSpend} {change : UInt64} {conditions : List Condition}
    {ring : List CatSpend}
    (hpurse : Purse libs builder identity assetId asset key listed group)
    (hinputs : builder.inputs.Honest libs.sdk libs.drivers)
    (haddress : libs.sdk.decodeAddress address.text = .ok recipient)
    (hchange : builder.inputs.changePuzzleHash identity = .ok changePh)
    (hpays : PaysTip libs.drivers ⟨group, key, asset, recipient, amount.mojos, changePh⟩ coinSpends
      selected change conditions ring) :
    Balanced libs.sdk (builder.drawing assetId selected) (tipSend identity assetId address amount)
      (catPlan selected conditions) := by
  have hdrawn := hpays.offered.subset
  have hassets : ∀ cat ∈ selected, cat.info.assetId = asset :=
    fun cat hcat => (hpurse.mem (hdrawn hcat)).2.1
  have hcats : (builder.drawing assetId selected).inputs.spendableCat identity assetId =
      .ok selected := if_pos rfl
  have hreviewed : reviewedAsset (some assetId) = derivedAsset (some asset) := by
    obtain ⟨cat, hcat⟩ := List.exists_mem_of_ne_nil _ hpurse.nonempty
    obtain ⟨hlisted, hasset, -⟩ := hpurse.mem hcat
    have htext := hinputs.catAsset hpurse.listed_eq cat hlisted
    rw [hasset] at htext
    exact congrArg some htext
  have hleg : PlanLeg (some asset) (selected.map Cat.coin)
      ([(recipient, amount.mojos)] ++ changePairs changePh change) 0 (catPlan selected conditions) :=
    .catPlan hpays.nonempty hassets hpays.carries
  have hbalanced : Balanced libs.sdk (builder.drawing assetId selected)
      (tipSend identity assetId address amount) (catPlan selected conditions ++ []) := by
    refine balanced_of_cat hcats mem_of_mem_catPlan hleg .nil (.cons ⟨haddress, rfl, hreviewed⟩ .nil)
      ?_ ?_ ?_ ?_
    · intro pair hpair
      rw [List.append_nil] at hpair
      rw [mem_changePairs hpair]
      exact hchange
    · rw [drawing_spendsExactly]
      exact and_iff_left (by decide)
    · intro _
      rw [hpays.balance, pairsTotal_changePairs]
      simp [pairsTotal]
    · intro _
      rfl
  rw [List.append_nil] at hbalanced
  exact hbalanced

/-- A tip: what it spends, what it shows and when the wallet signs it. -/
structure TipDrawn (libs : TipLibs) (builder : SdkSpendBuilder) (identity : IdentityRef)
    (assetId : AssetId) (recipient : Puzzlehash) (amount : Amount) (unsigned : UnsignedSpend)
    (key : PublicKey) (group selected : List Cat) : Prop where
  purse : ∃ asset listed, Purse libs builder identity assetId asset key listed group
  drawn : selected.Subperm group
  coins : unsigned.coinSpends.map CoinSpend.coin = selected.map Cat.coin
  shown : ∃ hash address, libs.parsePuzzleHash recipient = .ok hash ∧
    libs.sdk.decodeAddress address = .ok hash ∧
    unsigned.summary = ⟨[⟨⟨address⟩, amount, some assetId⟩], [], ⟨0⟩, [], []⟩
  signs : ∀ {signer : LocalSigner} {hash}, libs.parsePuzzleHash recipient = .ok hash →
    (∀ puzzleHash, builder.inputs.changePuzzleHash identity = .ok puzzleHash →
      signer.ownsPuzzleHash libs.sdk puzzleHash = true) →
    (verifyBeforeSigning libs.sdk signer unsigned = .ok () ↔
      total (coinAmounts (selected.map Cat.coin)) < 2 ^ 64 ∧
      isProtocolSinkHash libs.sdk hash = false ∧ signer.ownsPuzzleHash libs.sdk hash = false)

theorem finishTip_eq_ok {coinSpends : List CoinSpend} {recipient : Bytes32} {amount : Amount}
    {unsigned : UnsignedSpend}
    (h : builder.finishTip libs coinSpends recipient amount assetId = .ok unsigned) :
    unsigned.coinSpends = coinSpends ∧ coinSpends ≠ [] ∧ ∃ address,
      libs.sdk.encodeAddress recipient "xch" = .ok address ∧
      unsigned.summary = ⟨[⟨⟨address⟩, amount, some assetId⟩], [], ⟨0⟩, [], []⟩ := by
  unfold finishTip ensureSignedOffline TipLibs.encodeAddress at h
  simp only [bind_eq_ok, Except.ok.injEq, orSpendFailed_eq_ok] at h
  obtain ⟨required, -, _, hsigned, _, ⟨address, haddress, rfl⟩, rfl⟩ := h
  refine ⟨rfl, ?_, address, haddress, rfl⟩
  rintro rfl
  cases hsigned

/-- The destinations of a tip are its recipient. -/
theorem destination_tipSend {sdk : Sdk} {address : Address} {amount : Amount} {recipient : Bytes32}
    (haddress : sdk.decodeAddress address.text = .ok recipient) (P : Bytes32 → Prop) :
    (∃ output ∈ (tipSend identity assetId address amount).summary.outputs, ∃ puzzleHash,
      sdk.decodeAddress output.address.text = .ok puzzleHash ∧ P puzzleHash) ↔ P recipient := by
  constructor
  · rintro ⟨output, houtput, puzzleHash, hdecode, hP⟩
    obtain rfl := List.mem_singleton.mp houtput
    obtain rfl := Except.ok.inj (haddress.symm.trans hdecode)
    exact hP
  · intro hP
    exact ⟨_, List.mem_singleton.mpr rfl, recipient, haddress, hP⟩

end Tip

section Drawn

variable {libs : TipLibs} {wrap : CatInfo → Bytes32 → Bytes32}

/-- The SDK and the crates a tip is built over, as documented. -/
structure TipLibs.Sound (libs : TipLibs) (wrap : CatInfo → Bytes32 → Bytes32) : Prop where
  lawful : libs.Lawful
  emit : libs.drivers.Emit libs.sdk wrap
  layers : libs.sdk.LayersDisjoint
  unstructural : libs.sdk.StandardUnstructural
  addresses : libs.sdk.AddressesRoundTrip
  empty : ∀ hash, libs.sdk.decodeAddress "" ≠ .ok hash

theorem coins_catPlan (cats : List Cat) (conditions : List Condition) :
    (catPlan cats conditions).map PlannedSpend.coin = cats.map Cat.coin := by
  cases cats with
  | nil => rfl
  | cons lead rest =>
    rw [catPlan, List.map_cons, List.map_cons, List.map_map]
    rfl

/-- What `dig_tips` builds from a purse, finished. -/
theorem tipDrawn {builder : SdkSpendBuilder} {identity : IdentityRef} {assetId : AssetId}
    {asset : Bytes32} {key : PublicKey} {listed group : List Cat} {recipient : Puzzlehash}
    {amount : Amount} {hash changePh : Bytes32} {coinSpends : List CoinSpend} {unsigned : UnsignedSpend}
    (hsound : libs.Sound wrap) (hinputs : builder.inputs.Honest libs.sdk libs.drivers)
    (hpurse : Purse libs builder identity assetId asset key listed group)
    (hchange : builder.inputs.changePuzzleHash identity = .ok changePh)
    (hrecipient : libs.parsePuzzleHash recipient = .ok hash)
    (hspends : libs.buildTip ⟨group, key, asset, hash, amount.mojos, changePh⟩ = .ok coinSpends)
    (hfinish : builder.finishTip libs coinSpends hash amount assetId = .ok unsigned) :
    ∃ selected,
      TipDrawn libs builder identity assetId recipient amount unsigned key group selected := by
  obtain ⟨selected, change, conditions, ring, hpays⟩ :=
    hsound.lawful.pays (hpurse.singleKey hinputs hash changePh amount.mojos) hspends
  obtain ⟨hcoinSpends, hne, address, haddress, hsummary⟩ := finishTip_eq_ok hfinish
  have hdecode := hsound.addresses.decodes haddress
  have hdrawn := hpays.offered.subset
  have hring : List.Forall₂ (InRing libs.drivers (builder.drawing assetId selected).inputs)
      (catPlan selected conditions) ring :=
    inRing_of_spentBy hpays.spentBy fun hspent =>
      (hpurse.mem (hdrawn (mem_of_mem_catPlan hspent))).2.2
  have hemitted := emitted_of_ring hsound.emit hring hpays.spends
  refine ⟨selected, ⟨asset, listed, hpurse⟩, hpays.offered, ?_, ⟨hash, address, hrecipient, hdecode,
    hsummary⟩, fun {signer} {hash'} hhash hhome => ?_⟩
  · rw [hcoinSpends, coins_of_emitted hsound.emit hemitted, coins_catPlan]
  · obtain rfl : hash = hash' := Except.ok.inj (hrecipient.symm.trans hhash)
    have hbalanced : Balanced libs.sdk (builder.drawing assetId selected)
        (tipSend identity assetId ⟨address⟩ amount) (catPlan selected conditions) :=
      balanced_of_tip hpurse hinputs hdecode hchange hpays
    have hown : ∀ puzzleHash, (builder.drawing assetId selected).inputs.changePuzzleHash
        (tipSend identity assetId ⟨address⟩ amount).identity = .ok puzzleHash →
        signer.ownsPuzzleHash libs.sdk puzzleHash = true := hhome
    subst hcoinSpends
    rw [verify_planned_iff hsound.emit hsound.layers hsound.unstructural hsound.empty
      (hpurse.drawing_honest hinputs hdrawn) hown hbalanced hemitted hsummary hne,
      drawing_spendsExactly, BuildRequest.PaysStructural, BuildRequest.PaysHome,
      destination_tipSend hdecode, destination_tipSend hdecode, Bool.not_eq_true, Bool.not_eq_true]

/-- What `build_tip` returns. -/
theorem buildTip_drawn {builder : SdkSpendBuilder} {request : TipRequest} {unsigned : UnsignedSpend}
    (hsound : libs.Sound wrap) (hinputs : builder.inputs.Honest libs.sdk libs.drivers)
    (h : builder.buildTip libs request = .ok unsigned) :
    ∃ key group selected, TipDrawn libs builder request.identity request.assetId request.recipient
      request.amount unsigned key group selected := by
  unfold buildTip at h
  simp only [bind_eq_ok, ofResult_eq_ok, TipLibs.orTipError_eq_ok] at h
  obtain ⟨inputs, hresolved, hash, hhash, coinSpends, hspends, hfinish⟩ := h
  obtain ⟨listed, hpurse, hchange⟩ := resolveTipInputs_eq_ok hresolved
  obtain ⟨selected, hdrawn⟩ := tipDrawn hsound hinputs hpurse hchange hhash hspends hfinish
  exact ⟨inputs.ownerPk, inputs.cats, selected, hdrawn⟩

end Drawn

/-! ## The auto-tip -/

/-- How an auto-tip ends: skipped, the same for every wallet, or tipped within the caps. -/
inductive AutoTipEnds (libs : TipLibs) (builder : SdkSpendBuilder) (request : AutoTipRequest) :
    AutoTipOutcome → Prop
  | skipped {decision} (hskip : ∀ amount, decision ≠ .tip amount)
      (heverywhere : ∀ other : SdkSpendBuilder,
        other.buildAutoTip libs request = .ok ⟨decision, none⟩) :
      AutoTipEnds libs builder request ⟨decision, none⟩
  | tipped {amount unsigned key group selected} (henabled : request.policy.enabled = true)
      (hmode : request.policy.mode = .auto)
      (hthreshold : request.policy.threshold.mojos ≤ request.primarySendAmount.mojos)
      (hcount : request.ledger.tipsToday.toNat + 1 ≤ request.policy.maxTipsPerDay.toNat)
      (hamount : request.ledger.amountToday.mojos.toNat + amount.mojos.toNat ≤
        request.policy.maxAmountPerDay.mojos.toNat)
      (hdrawn : TipDrawn libs builder request.identity request.policy.assetId request.policy.recipient
        amount unsigned key group selected) :
      AutoTipEnds libs builder request ⟨.tip amount, some unsigned⟩

section Auto

variable {libs : TipLibs} {wrap : CatInfo → Bytes32 → Bytes32} {builder : SdkSpendBuilder}
  {request : AutoTipRequest} {outcome : AutoTipOutcome}

theorem fromDigDecision_ne_tip {decision : DigTips.TipDecision}
    (h : ∀ amount, decision ≠ .tip amount) (amount : Amount) :
    TipLibs.fromDigDecision decision ≠ .tip amount := by
  intro htip
  cases decision with
  | tip amount => exact h amount rfl
  | skipCapReached reason => cases reason <;> cases htip
  | _ => cases htip

/-- An allowed tip is the purse's, built once. -/
theorem buildAllowedTip_drawn {hash : Bytes32} {policy : DigTips.AutoTipPolicy}
    {snapshot : DigTips.LedgerSnapshot} {amount : UInt64} (hsound : libs.Sound wrap)
    (hinputs : builder.inputs.Honest libs.sdk libs.drivers)
    (hhash : libs.parsePuzzleHash request.policy.recipient = .ok hash)
    (hasset : libs.parseAssetId request.policy.assetId = .ok policy.assetId)
    (hrecipient : policy.recipient = hash)
    (hdecision : libs.decideAutoTip policy request.primarySendAmount.mojos snapshot = .tip amount)
    (h : builder.buildAllowedTip libs request hash policy snapshot amount = .ok outcome) :
    ∃ unsigned key group selected, outcome = ⟨.tip ⟨amount⟩, some unsigned⟩ ∧
      TipDrawn libs builder request.identity request.policy.assetId request.policy.recipient
        ⟨amount⟩ unsigned key group selected := by
  unfold buildAllowedTip at h
  simp only [bind_eq_ok, ofResult_eq_ok, TipLibs.orTipError_eq_ok] at h
  obtain ⟨inputs, hresolved, ⟨builtDecision, spend⟩, hbuilt, h⟩ := h
  rw [hsound.lawful.ifAllowed, hdecision] at hbuilt
  obtain ⟨coinSpends, hspends, hpair⟩ := map_eq_ok.mp hbuilt
  obtain ⟨rfl, rfl⟩ : builtDecision = .tip amount ∧ spend = some coinSpends := Prod.mk.inj hpair.symm
  obtain ⟨-, -, h⟩ := h
  obtain ⟨unsigned, hunsigned, h⟩ := bind_eq_ok.mp h
  obtain ⟨finished, hfinish, rfl⟩ := map_eq_ok.mp hunsigned
  cases h
  obtain ⟨listed, hpurse, hchange⟩ := resolveTipInputs_eq_ok hresolved
  have hassetId : policy.assetId = inputs.assetId := Except.ok.inj (hasset.symm.trans hpurse.asset_eq)
  rw [hassetId, hrecipient] at hspends
  obtain ⟨selected, hdrawn⟩ := tipDrawn hsound hinputs hpurse hchange hhash hspends
    (ofResult_eq_ok.mp hfinish)
  exact ⟨finished, inputs.ownerPk, inputs.cats, selected, rfl, hdrawn⟩

theorem autoTipEnds (hsound : libs.Sound wrap) (hinputs : builder.inputs.Honest libs.sdk libs.drivers)
    (h : builder.buildAutoTip libs request = .ok outcome) :
    AutoTipEnds libs builder request outcome := by
  have hbuilt := h
  unfold buildAutoTip TipLibs.toDigPolicy at h
  simp only [bind_eq_ok, ofResult_eq_ok] at h
  obtain ⟨hash, hhash, asset, hasset, policy, hpolicy, h⟩ := h
  cases hpolicy
  generalize hdecision : libs.decideAutoTip _ _ _ = decision at h
  by_cases htip : ∃ amount, decision = .tip amount
  · obtain ⟨amount, rfl⟩ := htip
    obtain ⟨henabled, hmode, hthreshold, hcount, hamount⟩ := hsound.lawful.caps hdecision
    obtain ⟨unsigned, key, group, selected, rfl, hdrawn⟩ :=
      buildAllowedTip_drawn hsound hinputs hhash hasset rfl hdecision h
    refine .tipped henabled ?_ hthreshold hcount hamount hdrawn
    generalize request.policy.mode = mode at hmode
    cases mode with
    | auto => rfl
    | manual => cases hmode
  · have hskip : ∀ amount, decision ≠ .tip amount := fun amount heq => htip ⟨amount, heq⟩
    have heverywhere : ∀ other : SdkSpendBuilder,
        other.buildAutoTip libs request = .ok ⟨TipLibs.fromDigDecision decision, none⟩ := by
      intro other
      unfold buildAutoTip TipLibs.toDigPolicy
      rw [hhash, hasset]
      show (match libs.decideAutoTip _ _ _ with
        | .tip amount => _
        | skip => _) = _
      rw [hdecision]
      cases decision with
      | tip amount => exact absurd rfl (hskip amount)
      | _ => rfl
    obtain rfl := Except.ok.inj (hbuilt.symm.trans (heverywhere builder))
    exact .skipped (fromDigDecision_ne_tip hskip) heverywhere

end Auto

/-! ## A day of auto-tips -/

/-- The caller's counters, kept over the tips that were built. -/
def TipLedger.after (ledger : TipLedger) : AutoTipOutcome → TipLedger
  | ⟨.tip amount, some _⟩ =>
    ⟨ledger.tipsToday + 1, ⟨ledger.amountToday.mojos + amount.mojos⟩⟩
  | _ => ledger

/-- A day: each request carries the counters of the day so far; the wallets may differ. -/
inductive TipDay (libs : TipLibs) : List (AutoTipRequest × AutoTipOutcome) → TipLedger → Prop
  | start : TipDay libs [] ⟨0, ⟨0⟩⟩
  | auto {tips ledger request outcome} (builder : SdkSpendBuilder) (day : TipDay libs tips ledger)
      (hinputs : builder.inputs.Honest libs.sdk libs.drivers) (hledger : request.ledger = ledger)
      (hbuilt : builder.buildAutoTip libs request = .ok outcome) :
      TipDay libs (tips ++ [(request, outcome)]) (ledger.after outcome)

/-- The tips of a day. -/
def tipsBuilt (tips : List (AutoTipRequest × AutoTipOutcome)) : List UnsignedSpend :=
  tips.filterMap fun tip => tip.2.unsigned

/-- What a spend shows as leaving the wallet. -/
def paidOut (unsigned : UnsignedSpend) : ℕ :=
  total (unsigned.summary.outputs.map fun output => output.amount.mojos)

/-- The counters are those of the tips built, which every policy's caps bound. -/
structure DayKept (tips : List (AutoTipRequest × AutoTipOutcome)) (ledger : TipLedger) : Prop where
  count : ledger.tipsToday.toNat = (tipsBuilt tips).length
  amount : ledger.amountToday.mojos.toNat = ((tipsBuilt tips).map paidOut).sum
  within : ∀ maxTips maxAmount, (∀ tip ∈ tips, tip.1.policy.maxTipsPerDay.toNat ≤ maxTips ∧
      tip.1.policy.maxAmountPerDay.mojos.toNat ≤ maxAmount) →
    (tipsBuilt tips).length ≤ maxTips ∧ ((tipsBuilt tips).map paidOut).sum ≤ maxAmount

section Day

variable {libs : TipLibs} {wrap : CatInfo → Bytes32 → Bytes32}
  {tips : List (AutoTipRequest × AutoTipOutcome)} {ledger : TipLedger} {request : AutoTipRequest}

theorem tipsBuilt_append (outcome : AutoTipOutcome) :
    tipsBuilt (tips ++ [(request, outcome)]) = tipsBuilt tips ++ outcome.unsigned.toList := by
  rw [tipsBuilt, List.filterMap_append]
  cases hunsigned : outcome.unsigned <;> simp [tipsBuilt, hunsigned]

/-- One more auto-tip. -/
theorem DayKept.step {builder : SdkSpendBuilder} {outcome : AutoTipOutcome} (h : DayKept tips ledger)
    (hledger : request.ledger = ledger) (hends : AutoTipEnds libs builder request outcome) :
    DayKept (tips ++ [(request, outcome)]) (ledger.after outcome) := by
  subst hledger
  cases hends with
  | @skipped decision hskip heverywhere =>
    have hafter : request.ledger.after ⟨decision, none⟩ = request.ledger := by
      cases decision <;> rfl
    have hbuilt : tipsBuilt (tips ++ [(request, ⟨decision, none⟩)]) = tipsBuilt tips := by
      rw [tipsBuilt_append]
      exact List.append_nil _
    rw [hafter]
    refine ⟨by rw [hbuilt]; exact h.count, by rw [hbuilt]; exact h.amount,
      fun maxTips maxAmount hcaps => ?_⟩
    rw [hbuilt]
    exact h.within _ _ fun tip htip => hcaps tip (List.mem_append_left _ htip)
  | @tipped amount unsigned key group selected henabled hmode hthreshold hcount hamount hdrawn =>
    obtain ⟨hash, address, -, -, hsummary⟩ := hdrawn.shown
    have hpaid : paidOut unsigned = amount.mojos.toNat := by
      rw [paidOut, hsummary]
      simp [total]
    have hbuilt : tipsBuilt (tips ++ [(request, ⟨.tip amount, some unsigned⟩)]) =
        tipsBuilt tips ++ [unsigned] := tipsBuilt_append _
    have hmaxTips := request.policy.maxTipsPerDay.toNat_lt
    have hmaxAmount := request.policy.maxAmountPerDay.mojos.toNat_lt
    have hkeptCount := h.count
    have hkeptAmount := h.amount
    have htips : (request.ledger.tipsToday + 1).toNat = request.ledger.tipsToday.toNat + 1 := by
      rw [UInt32.toNat_add]
      exact Nat.mod_eq_of_lt (by simp; omega)
    have hsum : (request.ledger.amountToday.mojos + amount.mojos).toNat =
        request.ledger.amountToday.mojos.toNat + amount.mojos.toNat :=
      Totals.toNat_add_of_lt (by omega)
    have hlength : (tipsBuilt tips ++ [unsigned]).length = (tipsBuilt tips).length + 1 := by simp
    have htotal : ((tipsBuilt tips ++ [unsigned]).map paidOut).sum =
        ((tipsBuilt tips).map paidOut).sum + amount.mojos.toNat := by
      simp [hpaid]
    refine ⟨?_, ?_, fun maxTips maxAmount hcaps => ?_⟩
    · rw [hbuilt, hlength, ← hkeptCount]
      exact htips
    · rw [hbuilt, htotal, ← hkeptAmount]
      exact hsum
    · obtain ⟨hcapTips, hcapAmount⟩ := hcaps (request, ⟨.tip amount, some unsigned⟩) (by simp)
      rw [hbuilt, hlength, htotal]
      dsimp only at hcapTips hcapAmount
      omega

theorem dayKept (hsound : libs.Sound wrap) (h : TipDay libs tips ledger) : DayKept tips ledger := by
  induction h with
  | start => exact ⟨rfl, rfl, fun _ _ _ => ⟨Nat.zero_le _, Nat.zero_le _⟩⟩
  | auto builder day hinputs hledger hbuilt ih =>
    exact ih.step hledger (autoTipEnds hsound hinputs hbuilt)

end Day

/-- **Tips are honest.**  A tip is drawn from the largest group under one key and signs as shown, an
auto-tip that is skipped touches no funds, and a day of auto-tips stays within its caps. -/
theorem tips_honest (libs : TipLibs) (wrap : CatInfo → Bytes32 → Bytes32) (hsound : libs.Sound wrap) :
    (∀ (builder : SdkSpendBuilder) (request : TipRequest) (unsigned : UnsignedSpend),
      builder.inputs.Honest libs.sdk libs.drivers → builder.buildTip libs request = .ok unsigned →
      ∃ key group selected, TipDrawn libs builder request.identity request.assetId
        request.recipient request.amount unsigned key group selected) ∧
    (∀ (builder : SdkSpendBuilder) (request : AutoTipRequest) (outcome : AutoTipOutcome),
      builder.inputs.Honest libs.sdk libs.drivers →
      builder.buildAutoTip libs request = .ok outcome → AutoTipEnds libs builder request outcome) ∧
    ∀ tips ledger, TipDay libs tips ledger → DayKept tips ledger :=
  ⟨fun _ _ _ hinputs h => buildTip_drawn hsound hinputs h,
    fun _ _ _ hinputs h => autoTipEnds hsound hinputs h, fun _ _ h => dayKept hsound h⟩

section Witness

open Sim

namespace Sim

def decideTip (policy : DigTips.AutoTipPolicy) (primary : UInt64) (snapshot : DigTips.LedgerSnapshot) :
    DigTips.TipDecision :=
  if policy.enabled = false then .skipDisabled
  else if policy.mode = .manual then .skipManualNotApproved
  else if primary < policy.threshold then .skipBelowThreshold
  else if policy.maxTipsPerDay.toNat ≤ snapshot.tipsToday.toNat then .skipCapReached .frequencyCap
  else if policy.maxAmountPerDay.toNat < snapshot.amountToday.toNat + policy.tipAmount.toNat then
    .skipCapReached .amountCap
  else .tip policy.tipAmount

/-- A builder that spends everything under one key. -/
def keyed (key : PublicKey) : SdkSpendBuilder :=
  { builder [] [] with inputs := { inputs [] [] with syntheticKey := fun _ => some key } }

/-- A ring over all the coins offered. -/
def tipSpends (request : DigTips.TipRequest) : Except DigTips.CatError (List CoinSpend) :=
  match sumU64 true (coinAmounts (request.cats.map Cat.coin)) with
  | none => .error (.other "overflow")
  | some sum =>
    if request.amount = 0 then .error .zeroAmount
    else if sum < request.amount then .error (.insufficientFunds request.amount sum)
    else
      match (keyed request.ownerPk).buildCatInnerSpends spendDrivers request.cats request.recipient
          request.amount request.changeP2PuzzleHash (sum - request.amount) with
      | .error e => .error (.other e.message)
      | .ok ring =>
        match spendDrivers.catSpendAll ring with
        | .error e => .error (.other e)
        | .ok coinSpends => .ok coinSpends

def tipLibs : TipLibs where
  sdk := sim
  drivers := spendDrivers
  buildTip := tipSpends
  buildTipIfAllowed policy primary snapshot cats ownerPk change :=
    match decideTip policy primary snapshot with
    | .tip amount => (tipSpends ⟨cats, ownerPk, policy.assetId, policy.recipient, amount, change⟩).map
        fun coinSpends => (.tip amount, some coinSpends)
    | skip => .ok (skip, none)
  decideAutoTip := decideTip
  hexDecode := hexDecode
  overflowChecks := true
  debugAssertions := true

theorem tipSpends_pays {request : DigTips.TipRequest} {coinSpends : List CoinSpend}
    (h : tipSpends request = .ok coinSpends) : ∃ selected change conditions ring,
      PaysTip spendDrivers request coinSpends selected change conditions ring := by
  unfold tipSpends at h
  cases hsum : sumU64 true (coinAmounts (request.cats.map Cat.coin)) with
  | none =>
    rw [hsum] at h
    cases h
  | some sum =>
    rw [hsum] at h
    dsimp only at h
    split_ifs at h with hzero hshort
    cases hring : (keyed request.ownerPk).buildCatInnerSpends spendDrivers request.cats
        request.recipient request.amount request.changeP2PuzzleHash (sum - request.amount) with
    | error e =>
      rw [hring] at h
      cases h
    | ok ring =>
      rw [hring] at h
      dsimp only at h
      cases hspends : spendDrivers.catSpendAll ring with
      | error e =>
        rw [hspends] at h
        cases h
      | ok spends =>
        rw [hspends] at h
        cases h
        have hfits : total (coinAmounts (request.cats.map Cat.coin)) < 2 ^ 64 := by
          rw [sumU64_checked] at hsum
          split_ifs at hsum with hfits
          exact hfits
        have hcovered : request.amount ≤ sum := le_of_not_gt hshort
        have hne : request.cats ≠ [] := by
          intro hnil
          rw [hnil] at hsum
          cases hsum
          exact hzero (le_antisymm hcovered UInt64.zero_le)
        obtain ⟨carried, hcarried, hin⟩ := catRing_eq_ok hring hne
        obtain rfl := Except.ok.inj hcarried
        refine ⟨request.cats, sum - request.amount, _, ring, .refl _, hne, ?_,
          (Carries.createCoin _).append (.change _ _), hin.imp ?_, hspends⟩
        · rw [← toNat_of_sumU64 hsum hfits, UInt64.toNat_sub_of_le _ _ hcovered]
          have := UInt64.le_iff_toNat_le.mp hcovered
          omega
        · rintro planned entry ⟨hkey, hinner⟩
          cases hkey
          exact .mk hinner

theorem tipLibs_sound : tipLibs.Sound wrap where
  lawful :=
    { caps := by
        intro policy primary snapshot amount h
        have h : decideTip policy primary snapshot = .tip amount := h
        unfold decideTip at h
        split_ifs at h with henabled hmode hthreshold hcount hamount
        cases h
        refine ⟨by simpa using henabled, ?_, le_of_not_gt hthreshold, by omega, by omega⟩
        cases hpolicy : policy.mode with
        | auto => rfl
        | manual => exact absurd hpolicy hmode
      ifAllowed := fun _ _ _ _ _ _ => rfl
      pays := fun _ h => tipSpends_pays h }
  emit := spendDrivers_emit
  layers := layersDisjoint
  unstructural := standardUnstructural
  addresses := addressesRoundTrip
  empty := decodeAddress_empty

/-- A wallet with CATs of 40 and 60. -/
def tipper : SdkSpendBuilder := builder [] [catCoin 1 40, catCoin 2 60]

def tipPolicy : AutoTipPolicy where
  enabled := true
  mode := .auto
  assetId := ⟨hexEncode asset.bytes⟩
  recipient := ⟨hexEncode (Bytes32.rep 0x42).bytes⟩
  tipAmount := ⟨70⟩
  threshold := ⟨0⟩
  maxTipsPerDay := 1
  maxAmountPerDay := ⟨100⟩

def autoTip (ledger : TipLedger) : AutoTipRequest := ⟨identity, tipPolicy, ⟨500⟩, ledger⟩

theorem tipper_honest : tipper.inputs.Honest sim spendDrivers := by
  refine inputs_honest fun cat hcat => ?_
  simp only [List.mem_cons, List.not_mem_nil, or_false] at hcat
  rcases hcat with rfl | rfl <;> exact ⟨rfl, rfl⟩

theorem exists_firstTip : ∃ outcome,
    tipper.buildAutoTip tipLibs (autoTip ⟨0, ⟨0⟩⟩) = .ok outcome := by
  have hbuilt : (tipper.buildAutoTip tipLibs (autoTip ⟨0, ⟨0⟩⟩)).toOption.isSome = true := by
    decide +kernel
  obtain ⟨outcome, houtcome⟩ := Option.isSome_iff_exists.mp hbuilt
  exact ⟨outcome, toOption_eq_some.mp houtcome⟩

theorem firstTip_decision {outcome : AutoTipOutcome}
    (h : tipper.buildAutoTip tipLibs (autoTip ⟨0, ⟨0⟩⟩) = .ok outcome) :
    outcome.decision = .tip ⟨70⟩ := by
  have hdecision : ((tipper.buildAutoTip tipLibs (autoTip ⟨0, ⟨0⟩⟩)).toOption.map
      AutoTipOutcome.decision) = some (.tip ⟨70⟩) := by decide +kernel
  rw [h] at hdecision
  exact Option.some.inj hdecision

theorem firstTip_total {decision : TipDecision} {unsigned : UnsignedSpend}
    (h : tipper.buildAutoTip tipLibs (autoTip ⟨0, ⟨0⟩⟩) = .ok ⟨decision, some unsigned⟩) :
    total (coinAmounts (unsigned.coinSpends.map CoinSpend.coin)) = 100 := by
  have htotal : ((tipper.buildAutoTip tipLibs (autoTip ⟨0, ⟨0⟩⟩)).toOption.bind
      AutoTipOutcome.unsigned).map (fun unsigned =>
        total (coinAmounts (unsigned.coinSpends.map CoinSpend.coin))) = some 100 := by decide +kernel
  rw [h] at htotal
  exact Option.some.inj htotal

theorem parsePuzzleHash_tipPolicy :
    tipLibs.parsePuzzleHash tipPolicy.recipient = .ok (.rep 0x42) := by
  have hparsed : (tipLibs.parsePuzzleHash tipPolicy.recipient).toOption = some (.rep 0x42) := by
    decide +kernel
  exact toOption_eq_some.mp hparsed

end Sim

/-- A tip of 70 is built and signs; the next one of the day meets the cap of one. -/
theorem tips_honest_day : ∃ unsigned,
    tipper.buildAutoTip tipLibs (autoTip ⟨0, ⟨0⟩⟩) = .ok ⟨.tip ⟨70⟩, some unsigned⟩ ∧
      verifyBeforeSigning sim wallet unsigned = .ok () ∧
      ∀ outcome, tipper.buildAutoTip tipLibs (autoTip ⟨1, ⟨70⟩⟩) = .ok outcome →
        outcome.unsigned = none := by
  obtain ⟨outcome, hfirst⟩ := exists_firstTip
  obtain ⟨-, hauto, hday⟩ := tips_honest tipLibs wrap tipLibs_sound
  have hends := hauto tipper _ _ tipper_honest hfirst
  have hdecision := firstTip_decision hfirst
  have hstart := TipDay.auto tipper .start tipper_honest rfl hfirst
  cases hends with
  | skipped hskip => exact absurd hdecision (hskip _)
  | @tipped amount unsigned key group selected henabled hmode hthreshold hcount hamount hdrawn =>
    cases hdecision
    refine ⟨unsigned, hfirst, (hdrawn.signs parsePuzzleHash_tipPolicy fun _ hchange => ?_).mpr
      ⟨?_, by decide, by decide⟩, fun second hsecond => ?_⟩
    · cases hchange
      exact wallet_owns_home
    · rw [← hdrawn.coins, firstTip_total hfirst]
      decide
    · have hkept := hday _ _ (TipDay.auto tipper hstart tipper_honest rfl hsecond)
      have hcaps := (hkept.within 1 100 fun tip htip => ?_).1
      · rw [tipsBuilt_append] at hcaps
        cases hunsigned : second.unsigned with
        | none => rfl
        | some next =>
          rw [hunsigned] at hcaps
          have hcaps : (2 : ℕ) ≤ 1 := hcaps
          exact absurd hcaps (by decide)
      · rcases List.mem_append.mp htip with htip | htip
        · obtain rfl := List.mem_singleton.mp htip
          exact ⟨le_refl 1, le_refl 100⟩
        · obtain rfl := List.mem_singleton.mp htip
          exact ⟨le_refl 1, le_refl 100⟩

end Witness

end DigWallet
