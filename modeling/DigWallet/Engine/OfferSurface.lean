import DigWallet.Engine.BuildOffer
import DigWallet.Engine.Plans

/-!
# DigWallet.Engine.OfferSurface — reading an offer, combining and cancelling

`summarize_inj`: two offers that a summary does not tell apart have one id, the same two sides and the
same economics.  `summarize_combine`: a combined offer is summarized under the id it was returned with.
`cancels_own`: only a wallet that holds the key of an offered coin builds the cancel of an offer, which
goes home under exactly the keys it holds.
-/

namespace DigWallet.OfferBuilder

variable {T : OfferTypes} {libs : OfferLibs T} {offer offer' : String}

/-! ## The assets shown -/

theorem mapOfferAsset_injective : Function.Injective mapOfferAsset := by
  intro asset asset' h
  cases asset with
  | xch amount =>
    cases asset' with
    | xch amount' =>
      obtain ⟨⟩ := h
      rfl
    | cat | nft => cases h
  | cat assetId amount =>
    cases asset' with
    | cat assetId' amount' =>
      obtain ⟨hid, hamount⟩ := SummaryAsset.cat.inj h
      obtain rfl := Bytes32.ext (hexEncode_injective (AssetId.mk.inj hid))
      obtain rfl := Amount.mk.inj hamount
      rfl
    | xch | nft => cases h
  | nft launcherId =>
    cases asset' with
    | nft launcherId' =>
      obtain rfl := Bytes32.ext (hexEncode_injective (SummaryAsset.nft.inj h))
      rfl
    | xch | cat => cases h

/-- The CAT legs of a cost, as shown. -/
def catAssets (cats : List (Bytes32 × UInt64)) : List SummaryAsset :=
  cats.map fun leg => .cat ⟨hexEncode leg.1.bytes⟩ ⟨leg.2⟩

theorem catAssets_injective : Function.Injective catAssets := by
  refine List.map_injective_iff.mpr fun leg leg' h => ?_
  obtain ⟨hid, hamount⟩ := SummaryAsset.cat.inj h
  have hasset := Bytes32.ext (hexEncode_injective (AssetId.mk.inj hid))
  exact Prod.ext hasset (Amount.mk.inj hamount)

theorem catAssets_ne_xch {cats : List (Bytes32 × UInt64)} {amount : Amount}
    {assets : List SummaryAsset} : catAssets cats ≠ .xch amount :: assets := by
  cases cats with
  | nil => rintro ⟨⟩
  | cons leg cats => rintro ⟨⟩

/-- An XCH leg is shown first and only when there is one, so a cost can be read back. -/
theorem costToAssets_injective : Function.Injective costToAssets := by
  rintro ⟨xch, cats⟩ ⟨xch', cats'⟩ h
  unfold costToAssets at h
  dsimp only at h
  by_cases hxch : 0 < xch
  · by_cases hxch' : 0 < xch'
    · rw [if_pos hxch, if_pos hxch'] at h
      obtain ⟨hhead, htail⟩ := List.cons.inj h
      obtain rfl := Amount.mk.inj (SummaryAsset.xch.inj hhead)
      obtain rfl := catAssets_injective htail
      rfl
    · rw [if_pos hxch, if_neg hxch', List.nil_append] at h
      exact absurd h.symm catAssets_ne_xch
  · by_cases hxch' : 0 < xch'
    · rw [if_neg hxch, if_pos hxch', List.nil_append] at h
      exact absurd h catAssets_ne_xch
    · rw [if_neg hxch, if_neg hxch'] at h
      obtain rfl := catAssets_injective h
      obtain rfl : xch = xch' := by
        rw [UInt64.not_lt, UInt64.le_zero_iff] at hxch hxch'
        rw [hxch, hxch']
      rfl

/-! ## Summaries -/

theorem computeOfferId_eq_ok {id : String} : computeOfferId libs offer = .ok id ↔
    ∃ hash, libs.offers.offerId offer = .ok hash ∧ id = hexEncode hash.bytes := by
  unfold computeOfferId
  simp only [bind_eq_ok, orOfferError_eq_ok, Except.ok.injEq, eq_comm (b := id)]

theorem summarize_eq_ok {summary : OfferSummary} : summarize libs offer = .ok summary ↔
    ∃ sides hash, libs.offers.summarize offer = .ok sides ∧ libs.offers.offerId offer = .ok hash ∧
      summary = ⟨hexEncode hash.bytes, sides.offered.map mapOfferAsset,
        sides.requested.map mapOfferAsset, costToAssets sides.arbitrage,
        sides.royalties.map fun royalty => (hexEncode royalty.1.bytes, royalty.2)⟩ := by
  unfold summarize
  simp only [bind_eq_ok, orOfferError_eq_ok, computeOfferId_eq_ok, Except.ok.injEq]
  constructor
  · rintro ⟨sides, hsides, _, ⟨hash, hhash, rfl⟩, rfl⟩
    exact ⟨sides, hash, hsides, hhash, rfl⟩
  · rintro ⟨sides, hash, hsides, hhash, rfl⟩
    exact ⟨sides, hsides, _, ⟨hash, hhash, rfl⟩, rfl⟩

/-- **A summary hides nothing of an offer**: one summary, one id and one pair of sides. -/
theorem summarize_inj {summary : OfferSummary} (h : summarize libs offer = .ok summary)
    (h' : summarize libs offer' = .ok summary) :
    libs.offers.summarize offer = libs.offers.summarize offer' ∧
      libs.offers.offerId offer = libs.offers.offerId offer' := by
  obtain ⟨⟨offered, requested, arbitrage, royalties⟩, hash, hsides, hhash, rfl⟩ :=
    summarize_eq_ok.mp h
  obtain ⟨⟨offered', requested', arbitrage', royalties'⟩, hash', hsides', hhash', hsame⟩ :=
    summarize_eq_ok.mp h'
  obtain ⟨hid, hoffered, hrequested, harbitrage, hroyalties⟩ := OfferSummary.mk.inj hsame
  have hassets := List.map_injective_iff.mpr mapOfferAsset_injective
  have hroyalty : Function.Injective fun royalty : Bytes32 × UInt16 =>
      (hexEncode royalty.1.bytes, royalty.2) := by
    intro royalty royalty' heq
    obtain ⟨hlauncher, hpoints⟩ := Prod.mk.inj heq
    exact Prod.ext (Bytes32.ext (hexEncode_injective hlauncher)) hpoints
  obtain rfl := Bytes32.ext (hexEncode_injective hid)
  obtain rfl := hassets hoffered
  obtain rfl := hassets hrequested
  obtain rfl := costToAssets_injective harbitrage
  obtain rfl := List.map_injective_iff.mpr hroyalty hroyalties
  exact ⟨hsides.trans hsides'.symm, hhash.trans hhash'.symm⟩

theorem combine_eq_ok {offers : List String} {combined : OfferString} :
    combine libs offers = .ok combined ↔ libs.offers.combine offers = .ok combined.offer ∧
      computeOfferId libs combined.offer = .ok combined.offerId := by
  unfold combine finishOfferString
  simp only [bind_eq_ok, orOfferError_eq_ok, Except.ok.injEq]
  constructor
  · rintro ⟨offer, hoffer, id, hid, rfl⟩
    exact ⟨hoffer, hid⟩
  · rintro ⟨hoffer, hid⟩
    exact ⟨combined.offer, hoffer, combined.offerId, hid, rfl⟩

/-- A combined offer is summarized under the id it was returned with. -/
theorem summarize_combine {offers : List String} {combined : OfferString} {summary : OfferSummary}
    (h : combine libs offers = .ok combined) (hsummary : summarize libs combined.offer = .ok summary) :
    summary.offerId = combined.offerId := by
  obtain ⟨sides, hash, -, hhash, rfl⟩ := summarize_eq_ok.mp hsummary
  obtain ⟨hash', hhash', hid⟩ := computeOfferId_eq_ok.mp (combine_eq_ok.mp h).2
  obtain rfl := Except.ok.inj (hhash.symm.trans hhash')
  exact hid.symm

/-! ## The cancel -/

section Cancel

variable {inputs : SpendInputs} {ownerKeys : Table Bytes32 PublicKey}

/-- The keys the wallet holds of the coins, put into `keys`. -/
def heldKeys (inputs : SpendInputs) (coinSpends : List CoinSpend) (keys : Table Bytes32 PublicKey) :
    Table Bytes32 PublicKey :=
  coinSpends.foldl (fun keys spend => match inputs.syntheticKey spend.coin.puzzleHash with
    | some key => keys.put spend.coin.puzzleHash key
    | none => keys) keys

/-- Induction on the spends, the keys generalized. -/
theorem get?_heldKeys {coinSpends : List CoinSpend} {keys : Table Bytes32 PublicKey}
    {puzzleHash : Bytes32}
    (hkeys : keys.get? puzzleHash = none ∨ keys.get? puzzleHash = inputs.syntheticKey puzzleHash) :
    (heldKeys inputs coinSpends keys).get? puzzleHash =
      if puzzleHash ∈ coinSpends.map fun spend => spend.coin.puzzleHash then
        inputs.syntheticKey puzzleHash
      else keys.get? puzzleHash := by
  induction coinSpends generalizing keys with
  | nil => rfl
  | cons spend coinSpends ih =>
    rw [heldKeys, List.foldl_cons, ← heldKeys, List.map_cons]
    cases hheld : inputs.syntheticKey spend.coin.puzzleHash with
    | none =>
      dsimp only
      rw [ih hkeys]
      by_cases hsame : puzzleHash = spend.coin.puzzleHash
      · -- neither the wallet nor the table has a key
        rw [hsame] at hkeys ⊢
        rw [if_pos List.mem_cons_self, hheld]
        rw [hheld, or_self] at hkeys
        rw [hkeys, ite_self]
      · simp only [List.mem_cons, hsame, false_or]
    | some key =>
      dsimp only
      by_cases hsame : puzzleHash = spend.coin.puzzleHash
      · subst hsame
        rw [ih (.inr (by rw [Table.get?_put_self, hheld])), Table.get?_put_self, hheld, ite_self,
          if_pos List.mem_cons_self]
      · have hput : (keys.put spend.coin.puzzleHash key).get? puzzleHash = keys.get? puzzleHash := by
          rw [Table.get?_put, if_neg (Ne.symm hsame)]
        rw [ih (by rwa [hput]), hput]
        simp only [List.mem_cons, hsame, false_or]

theorem ownerKeysForOffer_eq_ok (h : ownerKeysForOffer libs inputs offer = .ok ownerKeys) :
    ∃ coinSpends, libs.offers.decode offer = .ok coinSpends ∧
      ownerKeys = heldKeys inputs coinSpends .empty ∧ ownerKeys.rows ≠ [] := by
  unfold ownerKeysForOffer at h
  obtain ⟨coinSpends, hdecode, h⟩ := bind_eq_ok.mp h
  dsimp only at h
  split_ifs at h with hempty
  obtain rfl := Except.ok.inj h
  exact ⟨coinSpends, orOfferError_eq_ok.mp hdecode, rfl, fun hnil => hempty (by simp [hnil])⟩

/-- **A cancel is the maker's**: it is built only by a wallet with a key of an offered coin, out of
exactly the keys it holds of these coins, and sends what it reclaims to the wallet's change address;
the client is shown the fee alone. -/
theorem cancels_own {builder : SdkSpendBuilder} {request : CancelOfferRequest} {unsigned : UnsignedSpend}
    (h : buildCancel libs builder request = .ok unsigned) :
    ∃ offered home ownerKeys, libs.offers.decode request.offer = .ok offered ∧
      builder.inputs.changePuzzleHash request.identity = .ok home ∧
      (∀ puzzleHash, ownerKeys.get? puzzleHash =
        if puzzleHash ∈ offered.map fun spend => spend.coin.puzzleHash then
          builder.inputs.syntheticKey puzzleHash
        else none) ∧
      (∃ spend ∈ offered, (builder.inputs.syntheticKey spend.coin.puzzleHash).isSome) ∧
      libs.offers.cancelBuild request.offer home ownerKeys request.fee.mojos =
        .ok unsigned.coinSpends ∧
      unsigned.requiredSignatures ≠ [] ∧ unsigned.summary = ⟨[], [], request.fee, [], []⟩ := by
  unfold buildCancel at h
  simp only [bind_eq_ok, orOfferError_eq_ok] at h
  obtain ⟨home, hhome, ownerKeys, hkeys, coinSpends, hcancel, hfinish⟩ := h
  obtain ⟨hspends, hsummary, -⟩ := finish_eq_ok hfinish
  obtain ⟨offered, hoffered, rfl, hne⟩ := ownerKeysForOffer_eq_ok hkeys
  have hheld : ∀ puzzleHash, (heldKeys builder.inputs offered .empty).get? puzzleHash =
      if puzzleHash ∈ offered.map fun spend => spend.coin.puzzleHash then
        builder.inputs.syntheticKey puzzleHash
      else none := fun puzzleHash => get?_heldKeys (.inl rfl)
  refine ⟨offered, home, _, hoffered, hhome, hheld, ?_, ?_, signed_of_finish hfinish, hsummary⟩
  · -- some row was put, for a coin whose key the wallet holds
    obtain ⟨⟨puzzleHash, key⟩, hrow⟩ := List.exists_mem_of_ne_nil _ hne
    have hkey := (hheld puzzleHash).symm.trans (Table.mem_rows.mp hrow)
    split_ifs at hkey with hmem
    obtain ⟨spend, hspend, rfl⟩ := List.mem_map.mp hmem
    exact ⟨spend, hspend, Option.isSome_iff_exists.mpr ⟨key, hkey⟩⟩
  · rw [hspends]
    exact hcancel

end Cancel

end DigWallet.OfferBuilder
