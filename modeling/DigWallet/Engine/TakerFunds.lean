import DigWallet.Engine.BuildOffer
import DigWallet.Engine.SelectionSpec

/-!
# DigWallet.Engine.TakerFunds — what a taker pays with

`resolve_taker_funds`: each leg of an offer's cost is met by the best selection among the coins the
provider lists for it, and the offer is refused exactly when some leg cannot be met within the cap.
-/

namespace DigWallet

open Faults OfferBuilder Totals

/-! ## What is promised -/

/-- The coins of an asset among some CATs. -/
def assetCoins (cats : List Cat) (asset : Bytes32) : List Coin :=
  (cats.filter fun cat => cat.info.assetId = asset).map Cat.coin

/-- `cap` coins reach the target. -/
def Covers (sdk : Sdk) (coins : List Coin) (target cap : ℕ) : Prop :=
  target ≤ total (coinAmounts ((orderedHighValueFirst sdk coins).take cap))

def xchTarget (cost : OfferCost) (fee : UInt64) : ℕ := min (cost.xch.toNat + fee.toNat) (2 ^ 64 - 1)

section Promise

variable (sdk : Sdk) (inputs : SpendInputs) (identity : IdentityRef) (cost : OfferCost)
  (xch : List Coin) (cats : Bytes32 → List Cat)

/-- The provider answers for every leg: it lists each coin once, no listing is worth `2 ^ 64` mojos,
and it knows the keys and the change address. -/
structure ListsLegs : Prop where
  xchListed : inputs.spendableXch identity = .ok xch
  catsListed : ∀ leg ∈ cost.cats,
    inputs.spendableCat identity ⟨hexEncode leg.1.bytes⟩ = .ok (cats leg.1)
  xchOnce : (xch.map sdk.coinId).Nodup
  catsOnce : ∀ leg ∈ cost.cats, ((assetCoins (cats leg.1) leg.1).map sdk.coinId).Nodup
  xchFits : total (coinAmounts xch) < 2 ^ 64
  catsFit : ∀ leg ∈ cost.cats, total (coinAmounts (assetCoins (cats leg.1) leg.1)) < 2 ^ 64
  xchKeys : ∀ coin ∈ xch, (inputs.syntheticKey coin.puzzleHash).isSome
  catKeys : ∀ leg ∈ cost.cats, ∀ cat ∈ cats leg.1, (inputs.syntheticKey cat.info.p2PuzzleHash).isSome
  change : ∃ hash, inputs.changePuzzleHash identity = .ok hash

variable (fee : UInt64) (cap : ℕ)

/-- Every leg can be met within the cap. -/
structure LegsCovered : Prop where
  xchCovered : Covers sdk xch (xchTarget cost fee) cap
  catsCovered : ∀ leg ∈ cost.cats, Covers sdk (assetCoins (cats leg.1) leg.1) leg.2.toNat cap

/-- Each leg is met by the best selection, nothing else is spent, and the keys are those of the
coins. -/
structure FundsExactly (funds : TakerFunds) : Prop where
  xchBest : BestSelection sdk xch (orderedHighValueFirst sdk xch) funds.xchCoins
    (xchTarget cost fee) cap
  catsBest : ∀ leg ∈ cost.cats, ∃ selected,
    BestSelection sdk (assetCoins (cats leg.1) leg.1)
      (orderedHighValueFirst sdk (assetCoins (cats leg.1) leg.1)) selected leg.2.toNat cap ∧
    (assetCoins funds.catCoins leg.1).Perm selected
  only : ∀ cat ∈ funds.catCoins, ∃ leg ∈ cost.cats, cat.info.assetId = leg.1 ∧ cat ∈ cats leg.1
  keyed : ∀ puzzleHash, (funds.ownerKeys.get? puzzleHash).isSome ↔
    puzzleHash ∈ funds.xchCoins.map Coin.puzzleHash ∨
      puzzleHash ∈ funds.catCoins.map fun cat => cat.info.p2PuzzleHash
  keys : ∀ puzzleHash key, funds.ownerKeys.get? puzzleHash = some key →
    inputs.syntheticKey puzzleHash = some key
  change : inputs.changePuzzleHash identity = .ok funds.changePuzzleHash

end Promise

/-! ## One leg -/

section Proofs

variable {sdk : Sdk} {inputs : SpendInputs} {identity : IdentityRef} {overflowChecks : Bool}
  {cap : ℕ}

section Selection

variable {coins : List Coin} {target : UInt64}

variable (overflowChecks) in
theorem selectOrFail_covered (asset : String) (hids : (coins.map sdk.coinId).Nodup)
    (hfits : total (coinAmounts coins) < 2 ^ 64) (hcovers : Covers sdk coins target.toNat cap) :
    ∃ selected, selectOrFail sdk overflowChecks coins target cap asset = .ok selected ∧
      BestSelection sdk coins (orderedHighValueFirst sdk coins) selected target.toNat cap := by
  obtain ⟨selected, sum, change, hselected⟩ := selectForSpend_covered overflowChecks hfits hcovers
  obtain ⟨hselects, -⟩ := selectForSpend_selected hselected
  refine ⟨selected, ?_, (best_of_selects hids hfits hcovers hselects).1⟩
  unfold selectOrFail
  rw [hselected]
  rfl

variable (overflowChecks) in
theorem selectOrFail_uncovered (asset : String) (hfits : total (coinAmounts coins) < 2 ^ 64)
    (hcovers : ¬ Covers sdk coins target.toNat cap) :
    ∃ message, selectOrFail sdk overflowChecks coins target cap asset =
      .error (.refused (insufficientFunds message)) := by
  have hcapped := Nat.lt_of_not_le hcovers
  unfold selectOrFail
  by_cases hshort : total (coinAmounts coins) < target.toNat
  · obtain ⟨available, required, hout⟩ := selectForSpend_short sdk cap overflowChecks hfits hshort
    rw [hout]
    exact ⟨_, rfl⟩
  · obtain ⟨count, available, required, cap', hout⟩ :=
      selectForSpend_fragmented overflowChecks hfits (Nat.le_of_not_lt hshort) hcapped
    rw [hout]
    exact ⟨_, rfl⟩

end Selection

/-- No coin is the best way to reach nothing. -/
theorem bestSelection_nil (coins : List Coin) :
    BestSelection sdk coins (orderedHighValueFirst sdk coins) [] 0 cap where
  isPrefix := List.nil_prefix
  reaches := Nat.zero_le _
  shortest _ _ hlength := absurd hlength (Nat.not_lt_zero _)
  withinCap := Nat.zero_le _
  subset := List.nil_subset _
  distinct := List.nodup_nil
  fewest _ _ _ _ := Nat.zero_le _

/-- The CATs whose ids were chosen are the chosen coins. -/
theorem perm_selected {cats : List Cat} {selected : List Coin}
    (hids : ((cats.map Cat.coin).map sdk.coinId).Nodup) (hselected : selected.Nodup)
    (hsubset : selected ⊆ cats.map Cat.coin) :
    ((cats.filter fun cat => sdk.coinId cat.coin ∈ selected.map sdk.coinId).map Cat.coin).Perm
      selected := by
  have hcoins := hids.of_map
  have hchosen : ((cats.filter fun cat =>
      sdk.coinId cat.coin ∈ selected.map sdk.coinId).map Cat.coin).Nodup :=
    hcoins.sublist (List.filter_sublist.map Cat.coin)
  refine (List.perm_ext_iff_of_nodup hchosen hselected).mpr fun coin => ?_
  constructor
  · intro hmem
    obtain ⟨cat, hcat, rfl⟩ := List.mem_map.mp hmem
    obtain ⟨hlisted, hid⟩ := List.mem_filter.mp hcat
    obtain ⟨coin, hcoin, heq⟩ := List.mem_map.mp (of_decide_eq_true hid)
    have hsame := List.inj_on_of_nodup_map hids (hsubset hcoin) (List.mem_map_of_mem hlisted) heq
    rwa [← hsame]
  · intro hcoin
    obtain ⟨cat, hcat, rfl⟩ := List.mem_map.mp (hsubset hcoin)
    refine List.mem_map_of_mem (List.mem_filter.mpr ⟨hcat, decide_eq_true ?_⟩)
    exact List.mem_map_of_mem hcoin

/-- What a CAT leg is met with. -/
structure LegFunded (sdk : Sdk) (listed : List Cat) (leg : Bytes32 × UInt64) (cap : ℕ)
    (chosen : List Cat) : Prop where
  subset : ∀ cat ∈ chosen, cat ∈ listed ∧ cat.info.assetId = leg.1
  best : ∃ selected, BestSelection sdk (assetCoins listed leg.1)
      (orderedHighValueFirst sdk (assetCoins listed leg.1)) selected leg.2.toNat cap ∧
    (chosen.map Cat.coin).Perm selected

variable (overflowChecks) in
theorem fundCat_covered {leg : Bytes32 × UInt64} {listed : List Cat}
    (hlisted : inputs.spendableCat identity ⟨hexEncode leg.1.bytes⟩ = .ok listed)
    (hids : ((assetCoins listed leg.1).map sdk.coinId).Nodup)
    (hfits : total (coinAmounts (assetCoins listed leg.1)) < 2 ^ 64)
    (hcovers : Covers sdk (assetCoins listed leg.1) leg.2.toNat cap) :
    ∃ chosen, fundCat sdk overflowChecks inputs identity cap leg = .ok chosen ∧
      LegFunded sdk listed leg cap chosen := by
  obtain ⟨selected, hselected, hbest⟩ :=
    selectOrFail_covered overflowChecks (catTake leg.1) hids hfits hcovers
  refine ⟨(listed.filter fun cat => cat.info.assetId = leg.1).filter fun cat =>
    sdk.coinId cat.coin ∈ selected.map sdk.coinId, ?_, ?_, ?_⟩
  · unfold fundCat
    rw [hlisted]
    show selectCats sdk overflowChecks listed leg.1 leg.2 cap = _
    show (selectOrFail sdk overflowChecks (assetCoins listed leg.1) leg.2 cap (catTake leg.1) >>= _) = _
    rw [hselected]
    rfl
  · intro cat hcat
    obtain ⟨hcat, -⟩ := List.mem_filter.mp hcat
    obtain ⟨hcat, hasset⟩ := List.mem_filter.mp hcat
    exact ⟨hcat, of_decide_eq_true hasset⟩
  · exact ⟨selected, hbest, perm_selected hids hbest.distinct.of_map hbest.subset⟩

variable (overflowChecks) in
theorem fundCat_uncovered {leg : Bytes32 × UInt64} {listed : List Cat}
    (hlisted : inputs.spendableCat identity ⟨hexEncode leg.1.bytes⟩ = .ok listed)
    (hfits : total (coinAmounts (assetCoins listed leg.1)) < 2 ^ 64)
    (hcovers : ¬ Covers sdk (assetCoins listed leg.1) leg.2.toNat cap) :
    ∃ message, fundCat sdk overflowChecks inputs identity cap leg =
      .error (.refused (insufficientFunds message)) := by
  obtain ⟨message, hmessage⟩ :=
    selectOrFail_uncovered overflowChecks (catTake leg.1) hfits hcovers
  refine ⟨message, ?_⟩
  unfold fundCat
  rw [hlisted]
  show selectCats sdk overflowChecks listed leg.1 leg.2 cap = _
  show (selectOrFail sdk overflowChecks (assetCoins listed leg.1) leg.2 cap (catTake leg.1) >>= _) = _
  rw [hmessage]
  rfl

/-! ## All legs -/

section Legs

variable {legs : List (Bytes32 × UInt64)} {cats : Bytes32 → List Cat}
  (hlisted : ∀ leg ∈ legs, inputs.spendableCat identity ⟨hexEncode leg.1.bytes⟩ = .ok (cats leg.1))
  (hfits : ∀ leg ∈ legs, total (coinAmounts (assetCoins (cats leg.1) leg.1)) < 2 ^ 64)

include hlisted hfits

variable (overflowChecks) in
theorem fundCats_covered
    (hids : ∀ leg ∈ legs, ((assetCoins (cats leg.1) leg.1).map sdk.coinId).Nodup)
    (hcovers : ∀ leg ∈ legs, Covers sdk (assetCoins (cats leg.1) leg.1) leg.2.toNat cap) :
    ∃ chosen, legs.mapM (fundCat sdk overflowChecks inputs identity cap) = .ok chosen ∧
      List.Forall₂ (fun leg chosen => LegFunded sdk (cats leg.1) leg cap chosen) legs chosen := by
  induction legs with
  | nil => exact ⟨[], rfl, .nil⟩
  | cons leg legs ih =>
    rw [List.forall_mem_cons] at hlisted hfits hids hcovers
    obtain ⟨first, hfirst, hfunded⟩ :=
      fundCat_covered overflowChecks hlisted.1 hids.1 hfits.1 hcovers.1
    obtain ⟨rest, hrest, hall⟩ := ih hlisted.2 hfits.2 hids.2 hcovers.2
    refine ⟨first :: rest, ?_, .cons hfunded hall⟩
    rw [List.mapM_cons]
    exact bind_eq_ok.mpr ⟨first, hfirst, bind_eq_ok.mpr ⟨rest, hrest, rfl⟩⟩

variable (overflowChecks) in
/-- The first leg that cannot be met refuses the take. -/
theorem fundCats_uncovered
    (hids : ∀ leg ∈ legs, ((assetCoins (cats leg.1) leg.1).map sdk.coinId).Nodup)
    (hcovers : ¬ ∀ leg ∈ legs, Covers sdk (assetCoins (cats leg.1) leg.1) leg.2.toNat cap) :
    ∃ message, legs.mapM (fundCat sdk overflowChecks inputs identity cap) =
      .error (.refused (insufficientFunds message)) := by
  induction legs with
  | nil => exact absurd (fun leg hleg => absurd hleg List.not_mem_nil) hcovers
  | cons leg legs ih =>
    rw [List.forall_mem_cons] at hlisted hfits hids hcovers
    rw [List.mapM_cons]
    by_cases hfirst : Covers sdk (assetCoins (cats leg.1) leg.1) leg.2.toNat cap
    · obtain ⟨first, hok, -⟩ := fundCat_covered overflowChecks hlisted.1 hids.1 hfits.1 hfirst
      obtain ⟨message, hmessage⟩ :=
        ih hlisted.2 hfits.2 hids.2 fun hall => hcovers ⟨hfirst, hall⟩
      exact ⟨message, bind_eq_error.mpr (.inr ⟨first, hok, bind_eq_error.mpr (.inl hmessage)⟩)⟩
    · obtain ⟨message, hmessage⟩ := fundCat_uncovered overflowChecks hlisted.1 hfits.1 hfirst
      exact ⟨message, bind_eq_error.mpr (.inl hmessage)⟩

end Legs

/-- Of the coins chosen for legs of distinct assets, those of one asset are those of its leg. -/
theorem coinsOf_flatten {legs : List (Bytes32 × UInt64)} {chosen : List (List Cat)}
    {cats : Bytes32 → List Cat}
    (hall : List.Forall₂ (fun leg chosen => LegFunded sdk (cats leg.1) leg cap chosen) legs chosen)
    (hassets : (legs.map Prod.fst).Nodup) {leg : Bytes32 × UInt64} (hleg : leg ∈ legs) :
    ∃ mine, LegFunded sdk (cats leg.1) leg cap mine ∧
      assetCoins chosen.flatten leg.1 = mine.map Cat.coin := by
  have hother : ∀ {asset : Bytes32} {leg : Bytes32 × UInt64} {mine : List Cat},
      LegFunded sdk (cats leg.1) leg cap mine → leg.1 ≠ asset → assetCoins mine asset = [] := by
    intro asset leg mine hmine hne
    have hnone : mine.filter (fun cat => cat.info.assetId = asset) = [] := by
      rw [List.filter_eq_nil_iff]
      intro cat hcat heq
      exact hne ((hmine.subset cat hcat).2.symm.trans (of_decide_eq_true heq))
    unfold assetCoins
    rw [hnone, List.map_nil]
  have happend : ∀ (mine rest : List Cat) asset,
      assetCoins (mine ++ rest) asset = assetCoins mine asset ++ assetCoins rest asset := by
    intro mine rest asset
    unfold assetCoins
    rw [List.filter_append, List.map_append]
  induction hall with
  | nil => cases hleg
  | @cons first mine legs chosen hmine hall ih =>
    rw [List.map_cons, List.nodup_cons] at hassets
    rw [List.flatten_cons, happend]
    rcases List.mem_cons.mp hleg with rfl | hrest
    · have hnone : assetCoins chosen.flatten leg.1 = [] := by
        have hnil : chosen.flatten.filter (fun cat => cat.info.assetId = leg.1) = [] := by
          rw [List.filter_eq_nil_iff]
          intro cat hcat heq
          obtain ⟨theirs, htheirs, hcat⟩ := List.mem_flatten.mp hcat
          obtain ⟨other, hmem, hfunded⟩ := exists_mem_left hall htheirs
          refine hassets.1 ?_
          rw [← of_decide_eq_true heq, (hfunded.subset cat hcat).2]
          exact List.mem_map_of_mem hmem
        unfold assetCoins
        rw [hnil, List.map_nil]
      have hself : mine.filter (fun cat => cat.info.assetId = leg.1) = mine :=
        List.filter_eq_self.mpr fun cat hcat => decide_eq_true (hmine.subset cat hcat).2
      refine ⟨mine, hmine, ?_⟩
      rw [hnone, List.append_nil]
      unfold assetCoins
      rw [hself]
    · have hne : first.1 ≠ leg.1 := fun heq => hassets.1 (heq ▸ List.mem_map_of_mem hrest)
      rw [hother hmine hne, List.nil_append]
      exact ih hassets.2 hrest

/-! ## The keys -/

theorem insertKeys_of_held {puzzleHashes : List Bytes32}
    (h : ∀ puzzleHash ∈ puzzleHashes, (inputs.syntheticKey puzzleHash).isSome)
    (ownerKeys : Table Bytes32 PublicKey) :
    ∃ ownerKeys', puzzleHashes.foldlM (insertKey inputs) ownerKeys = .ok ownerKeys' := by
  induction puzzleHashes generalizing ownerKeys with
  | nil => exact ⟨ownerKeys, rfl⟩
  | cons puzzleHash puzzleHashes ih =>
    rw [List.forall_mem_cons] at h
    have hinsert : ∃ next, insertKey inputs ownerKeys puzzleHash = .ok next := by
      obtain ⟨key, hkey⟩ := Option.isSome_iff_exists.mp h.1
      unfold insertKey
      split_ifs
      · exact ⟨ownerKeys, rfl⟩
      · rw [hkey]
        exact ⟨_, rfl⟩
    obtain ⟨next, hnext⟩ := hinsert
    obtain ⟨out, hout⟩ := ih h.2 next
    refine ⟨out, ?_⟩
    rw [List.foldlM_cons, hnext]
    exact hout

theorem ownerKeysFor_of_held {xchCoins : List Coin} {catCoins : List Cat}
    (hxch : ∀ coin ∈ xchCoins, (inputs.syntheticKey coin.puzzleHash).isSome)
    (hcats : ∀ cat ∈ catCoins, (inputs.syntheticKey cat.info.p2PuzzleHash).isSome) :
    ∃ ownerKeys, ownerKeysFor inputs xchCoins catCoins = .ok ownerKeys := by
  obtain ⟨xchKeys, hxchKeys⟩ := insertKeys_of_held (List.forall_mem_map.mpr hxch) .empty
  obtain ⟨keys, hkeys⟩ := insertKeys_of_held (List.forall_mem_map.mpr hcats) xchKeys
  exact ⟨keys, bind_eq_ok.mpr ⟨xchKeys, hxchKeys, hkeys⟩⟩

/-! ## The XCH leg -/

theorem toNat_xchTarget (cost : OfferCost) (fee : UInt64) :
    (saturatingAdd cost.xch fee).toNat = xchTarget cost fee := by
  have h := toNat_foldl_saturatingAdd [fee] cost.xch
  rwa [total_cons, total_nil, Nat.add_zero] at h

section Xch

variable {xch : List Coin} {target : UInt64}
  (hlisted : inputs.spendableXch identity = .ok xch) (hfits : total (coinAmounts xch) < 2 ^ 64)

include hlisted hfits

variable (overflowChecks) in
theorem fundXch_covered (hids : (xch.map sdk.coinId).Nodup)
    (hcovers : Covers sdk xch target.toNat cap) :
    ∃ selected, fundXch sdk overflowChecks inputs identity cap target = .ok selected ∧
      BestSelection sdk xch (orderedHighValueFirst sdk xch) selected target.toNat cap := by
  unfold fundXch
  by_cases hpositive : 0 < target
  · rw [if_pos hpositive, hlisted]
    exact selectOrFail_covered overflowChecks "XCH (take)" hids hfits hcovers
  · have hzero : target.toNat = 0 := by
      have hle := UInt64.le_iff_toNat_le.mp (UInt64.not_lt.mp hpositive)
      rw [UInt64.toNat_zero] at hle
      omega
    rw [if_neg hpositive, hzero]
    exact ⟨[], rfl, bestSelection_nil xch⟩

variable (overflowChecks) in
theorem fundXch_uncovered (hcovers : ¬ Covers sdk xch target.toNat cap) :
    ∃ message, fundXch sdk overflowChecks inputs identity cap target =
      .error (.refused (insufficientFunds message)) := by
  have hpositive : 0 < target := by
    rw [UInt64.lt_iff_toNat_lt, UInt64.toNat_zero]
    by_contra hzero
    rw [Nat.eq_zero_of_not_pos hzero] at hcovers
    exact hcovers (Nat.zero_le _)
  unfold fundXch
  rw [if_pos hpositive, hlisted]
  exact selectOrFail_uncovered overflowChecks "XCH (take)" hfits hcovers

end Xch

end Proofs

/-- A taker's funds meet every leg of the cost by its best selection, with exactly the keys of the
coins; the take is refused for want of funds exactly when some leg cannot be met within the cap. -/
theorem takerFunds_exact {sdk : Sdk} {overflowChecks : Bool} {inputs : SpendInputs} {cap : ℕ}
    {identity : IdentityRef} {cost : OfferCost} {fee : UInt64} {xch : List Coin}
    {cats : Bytes32 → List Cat} (hassets : (cost.cats.map Prod.fst).Nodup)
    (h : ListsLegs sdk inputs identity cost xch cats) :
    (LegsCovered sdk cost xch cats fee cap ∧ ∃ funds,
      resolveTakerFunds sdk overflowChecks inputs cap identity cost fee = .ok funds ∧
      FundsExactly sdk inputs identity cost xch cats fee cap funds) ∨
    (¬ LegsCovered sdk cost xch cats fee cap ∧ ∃ message,
      resolveTakerFunds sdk overflowChecks inputs cap identity cost fee =
        .error (.refused (insufficientFunds message))) := by
  have htarget := toNat_xchTarget cost fee
  by_cases hxch : Covers sdk xch (xchTarget cost fee) cap
  · rw [← htarget] at hxch
    obtain ⟨selected, hselected, hbest⟩ :=
      fundXch_covered overflowChecks h.xchListed h.xchFits h.xchOnce hxch
    by_cases hcats : ∀ leg ∈ cost.cats, Covers sdk (assetCoins (cats leg.1) leg.1) leg.2.toNat cap
    · refine .inl ⟨⟨htarget ▸ hxch, hcats⟩, ?_⟩
      obtain ⟨chosen, hchosen, hall⟩ :=
        fundCats_covered overflowChecks h.catsListed h.catsFit h.catsOnce hcats
      have honly : ∀ cat ∈ chosen.flatten,
          ∃ leg ∈ cost.cats, cat.info.assetId = leg.1 ∧ cat ∈ cats leg.1 := by
        intro cat hcat
        obtain ⟨mine, hmine, hcat⟩ := List.mem_flatten.mp hcat
        obtain ⟨leg, hleg, hfunded⟩ := exists_mem_left hall hmine
        exact ⟨leg, hleg, (hfunded.subset cat hcat).2, (hfunded.subset cat hcat).1⟩
      have hcatKeys : ∀ cat ∈ chosen.flatten, (inputs.syntheticKey cat.info.p2PuzzleHash).isSome := by
        intro cat hcat
        obtain ⟨leg, hleg, -, hlisted⟩ := honly cat hcat
        exact h.catKeys leg hleg cat hlisted
      obtain ⟨ownerKeys, hkeys⟩ :=
        ownerKeysFor_of_held (fun coin hcoin => h.xchKeys coin (hbest.subset hcoin)) hcatKeys
      obtain ⟨change, hchange⟩ := h.change
      refine ⟨⟨change, ownerKeys, selected, chosen.flatten⟩, ?_, ?_⟩
      · refine bind_eq_ok.mpr ⟨selected, hselected, bind_eq_ok.mpr ⟨chosen, hchosen, ?_⟩⟩
        refine bind_eq_ok.mpr ⟨ownerKeys, ofResult_eq_ok.mpr hkeys, ?_⟩
        exact bind_eq_ok.mpr ⟨change, ofResult_eq_ok.mpr hchange, rfl⟩
      · refine ⟨htarget ▸ hbest, fun leg hleg => ?_, honly, fun puzzleHash => ?_, fun puzzleHash => ?_,
          hchange⟩
        · obtain ⟨mine, hmine, heq⟩ := coinsOf_flatten hall hassets hleg
          obtain ⟨chosenCoins, hbestCats, hperm⟩ := hmine.best
          exact ⟨chosenCoins, hbestCats, heq ▸ hperm⟩
        · exact (ownerKeysFor_eq_ok hkeys puzzleHash).1
        · exact (ownerKeysFor_eq_ok hkeys puzzleHash).2
    · refine .inr ⟨fun hcovered => hcats hcovered.catsCovered, ?_⟩
      obtain ⟨message, hmessage⟩ :=
        fundCats_uncovered overflowChecks h.catsListed h.catsFit h.catsOnce hcats
      exact ⟨message, bind_eq_error.mpr (.inr ⟨selected, hselected, bind_eq_error.mpr (.inl hmessage)⟩)⟩
  · refine .inr ⟨fun hcovered => hxch hcovered.xchCovered, ?_⟩
    rw [← htarget] at hxch
    obtain ⟨message, hmessage⟩ := fundXch_uncovered overflowChecks h.xchListed h.xchFits hxch
    exact ⟨message, bind_eq_error.mpr (.inl hmessage)⟩

section Sample

/-- 40 mojos and 70 of the asset are asked for, at a fee of 2; three coins of each kind are listed. -/
def sampleCost : OfferCost := ⟨40, [(Sim.asset, 70)]⟩

def sampleXch : List Coin := [Sim.xchCoin 1 10, Sim.xchCoin 2 30, Sim.xchCoin 3 25]

def sampleCats : List Cat := [Sim.catCoin 4 40, Sim.catCoin 5 5, Sim.catCoin 6 60]

theorem sample_listsLegs : ListsLegs Sim.sim (Sim.inputs sampleXch sampleCats) Sim.identity sampleCost
    sampleXch fun _ => sampleCats where
  xchListed := rfl
  catsListed leg hleg := by
    rw [List.mem_singleton.mp hleg]
    have htext : normalizeAsset ⟨hexEncode Sim.asset.bytes⟩ = hexEncode Sim.asset.bytes := by
      decide +kernel
    simp [Sim.inputs, htext]
  xchOnce := by decide +kernel
  catsOnce leg hleg := by
    rw [List.mem_singleton.mp hleg]
    decide +kernel
  xchFits := by decide
  catsFit leg hleg := by
    rw [List.mem_singleton.mp hleg]
    decide +kernel
  xchKeys := by decide +kernel
  catKeys _ _ := by decide +kernel
  change := ⟨Sim.home, rfl⟩

theorem sample_legsCovered :
    LegsCovered Sim.sim sampleCost sampleXch (fun _ => sampleCats) 2 2 where
  xchCovered := by
    unfold Covers
    decide +kernel
  catsCovered leg hleg := by
    rw [List.mem_singleton.mp hleg]
    unfold Covers
    decide +kernel

theorem takerFunds_sample : ∃ funds,
    resolveTakerFunds Sim.sim true (Sim.inputs sampleXch sampleCats) 2 Sim.identity sampleCost 2 =
      .ok funds ∧
    FundsExactly Sim.sim (Sim.inputs sampleXch sampleCats) Sim.identity sampleCost sampleXch
      (fun _ => sampleCats) 2 2 funds := by
  rcases takerFunds_exact (by decide) sample_listsLegs with ⟨-, hfunds⟩ | ⟨huncovered, -⟩
  · exact hfunds
  · exact absurd sample_legsCovered huncovered

end Sample

end DigWallet
