import Mathlib.Algebra.BigOperators.Group.List.Basic
import DigWallet.Engine.Build
import DigWallet.Lib.Table
import DigWallet.SimBuild
import DigWallet.Verify.Conditions

/-!
# DigWallet.Engine.OfferedSide — what a maker offers

`resolve_offered_side`: the coins, totals and keys handed to the offer driver.  An asset is named by
text and the entries are resolved one by one, so every coin is offered once exactly when no two
entries name the same asset.
-/

namespace DigWallet

structure OfferedAssets where
  xch : Amount
  cats : List (AssetId × Amount)

/-- `dig_offers::OfferedSide`; its NFT legs are always empty. -/
structure OfferedSide where
  changePuzzleHash : Bytes32
  ownerKeys : Table Bytes32 PublicKey
  xchCoins : List Coin
  catCoins : List Cat
  offerXch : UInt64
  offerCats : List (Bytes32 × UInt64)

namespace OfferBuilder

variable (hexDecode : String → Except String Bytes) (inputs : SpendInputs) (identity : IdentityRef)

/-- `hex::decode` is a parameter: it accepts an asset in several spellings. -/
def parseAssetId (assetId : AssetId) : WalletResult Bytes32 :=
  match hexDecode assetId.text with
  | .error e => .error (invalidInput ("bad asset id " ++ assetId.text ++ ": " ++ e))
  | .ok bytes =>
    match Bytes32.ofBytes? bytes with
    | none => .error (invalidInput ("asset id " ++ assetId.text ++ " is not 32 bytes"))
    | some asset => .ok asset

def insertKey (ownerKeys : Table Bytes32 PublicKey) (puzzleHash : Bytes32) :
    WalletResult (Table Bytes32 PublicKey) :=
  if (ownerKeys.get? puzzleHash).isSome then .ok ownerKeys
  else
    match inputs.syntheticKey puzzleHash with
    | none => .error (spendFailed "no public key for an offered coin's puzzle hash")
    | some key => .ok (ownerKeys.put puzzleHash key)

def ownerKeysFor (xchCoins : List Coin) (catCoins : List Cat) :
    WalletResult (Table Bytes32 PublicKey) := do
  let ownerKeys ← (xchCoins.map Coin.puzzleHash).foldlM (insertKey inputs) .empty
  (catCoins.map fun cat => cat.info.p2PuzzleHash).foldlM (insertKey inputs) ownerKeys

/-- The loop body of `resolve_offered_side`. -/
def offerCat (resolved : List Cat × List (Bytes32 × UInt64)) (entry : AssetId × Amount) :
    WalletResult (List Cat × List (Bytes32 × UInt64)) :=
  if entry.2.mojos = 0 then .error (invalidInput "an offered CAT amount must be non-zero")
  else do
    let asset ← parseAssetId hexDecode entry.1
    let cats ← inputs.spendableCat identity entry.1
    .ok (resolved.1 ++ cats, resolved.2 ++ [(asset, entry.2.mojos)])

def resolveOfferedSide (offered : OfferedAssets) (fee : UInt64) : WalletResult OfferedSide :=
  if offered.xch.mojos = 0 ∧ offered.cats.isEmpty then
    .error (invalidInput "an offer must offer at least one asset")
  else do
    let xchCoins ←
      (if 0 < offered.xch.mojos ∨ 0 < fee then inputs.spendableXch identity else .ok [])
    let resolved ← offered.cats.foldlM (offerCat hexDecode inputs identity) ([], [])
    let ownerKeys ← ownerKeysFor inputs xchCoins resolved.1
    let changePuzzleHash ← inputs.changePuzzleHash identity
    .ok ⟨changePuzzleHash, ownerKeys, xchCoins, resolved.1, offered.xch.mojos, resolved.2⟩

end OfferBuilder

open OfferBuilder

/-! ## What is promised -/

section Promise

variable (hexDecode : String → Except String Bytes)

/-- The assets the entries name, an asset as often as it is named. -/
def OfferedAssets.assets (offered : OfferedAssets) : List Bytes32 :=
  offered.cats.filterMap fun entry => (parseAssetId hexDecode entry.1).toOption

/-- The total requested for an asset, under all its spellings. -/
def OfferedAssets.total (offered : OfferedAssets) (asset : Bytes32) : ℕ :=
  ((offered.cats.filter fun entry => (parseAssetId hexDecode entry.1).toOption = some asset).map
    fun entry => entry.2.mojos.toNat).sum

/-- The provider lists distinct coins of the asset asked for; `assetOf` is the asset of a coin. -/
structure SpendInputs.ListsAsked (inputs : SpendInputs) (assetOf : Coin → Bytes32) : Prop where
  distinct : ∀ {identity assetId cats}, inputs.spendableCat identity assetId = .ok cats →
    (cats.map Cat.coin).Nodup
  asked : ∀ {identity assetId asset cats}, parseAssetId hexDecode assetId = .ok asset →
    inputs.spendableCat identity assetId = .ok cats →
    ∀ cat ∈ cats, cat.info.assetId = asset ∧ assetOf cat.coin = asset

/-- Each coin is offered once, each asset with its total, and the keys are those of the coins. -/
structure OffersOnce (inputs : SpendInputs) (offered : OfferedAssets) (side : OfferedSide) :
    Prop where
  coins : (side.catCoins.map Cat.coin).Nodup
  offeredOnly : ∀ cat ∈ side.catCoins, cat.info.assetId ∈ offered.assets hexDecode
  assets : (side.offerCats.map Prod.fst).Nodup
  totals : ∀ asset amount, (asset, amount) ∈ side.offerCats ↔
    asset ∈ offered.assets hexDecode ∧ amount.toNat = offered.total hexDecode asset
  keyed : ∀ puzzleHash, (side.ownerKeys.get? puzzleHash).isSome ↔
    puzzleHash ∈ side.xchCoins.map Coin.puzzleHash ∨
      puzzleHash ∈ side.catCoins.map fun cat => cat.info.p2PuzzleHash
  keys : ∀ puzzleHash key, side.ownerKeys.get? puzzleHash = some key →
    inputs.syntheticKey puzzleHash = some key

end Promise

/-! ## The keys -/

section Proofs

variable {hexDecode : String → Except String Bytes} {inputs : SpendInputs} {identity : IdentityRef}

theorem insertKey_eq_ok {ownerKeys ownerKeys' : Table Bytes32 PublicKey} {puzzleHash : Bytes32}
    (h : insertKey inputs ownerKeys puzzleHash = .ok ownerKeys') (puzzleHash' : Bytes32) :
    ((ownerKeys'.get? puzzleHash').isSome ↔
        (ownerKeys.get? puzzleHash').isSome ∨ puzzleHash' = puzzleHash) ∧
      ∀ key, ownerKeys'.get? puzzleHash' = some key →
        ownerKeys.get? puzzleHash' = some key ∨ inputs.syntheticKey puzzleHash' = some key := by
  unfold insertKey at h
  by_cases hheld : (ownerKeys.get? puzzleHash).isSome = true
  · rw [if_pos hheld] at h
    obtain rfl := Except.ok.inj h
    refine ⟨⟨.inl, ?_⟩, fun key hkey => .inl hkey⟩
    rintro (hsome | rfl)
    · exact hsome
    · exact hheld
  · rw [if_neg hheld] at h
    rcases hkey : inputs.syntheticKey puzzleHash with _ | key
    · rw [hkey] at h
      cases h
    · rw [hkey] at h
      obtain rfl := Except.ok.inj h
      rw [Table.get?_put]
      by_cases heq : puzzleHash = puzzleHash'
      · subst heq
        simp [hkey]
      · simp [heq, Ne.symm heq]
        exact fun key hget => .inl hget

/-- By induction on the hashes. -/
theorem insertKeys_eq_ok {puzzleHashes : List Bytes32} {ownerKeys ownerKeys' : Table Bytes32 PublicKey}
    (h : puzzleHashes.foldlM (insertKey inputs) ownerKeys = .ok ownerKeys') (puzzleHash : Bytes32) :
    ((ownerKeys'.get? puzzleHash).isSome ↔
        (ownerKeys.get? puzzleHash).isSome ∨ puzzleHash ∈ puzzleHashes) ∧
      ∀ key, ownerKeys'.get? puzzleHash = some key →
        ownerKeys.get? puzzleHash = some key ∨ inputs.syntheticKey puzzleHash = some key := by
  induction puzzleHashes generalizing ownerKeys with
  | nil =>
    obtain rfl := Except.ok.inj h
    exact ⟨by simp, fun key hkey => .inl hkey⟩
  | cons first puzzleHashes ih =>
    rw [List.foldlM_cons] at h
    obtain ⟨next, hfirst, hrest⟩ := bind_eq_ok.mp h
    obtain ⟨hheld, hkeys⟩ := insertKey_eq_ok hfirst puzzleHash
    obtain ⟨hheld', hkeys'⟩ := ih hrest
    constructor
    · rw [hheld', hheld, List.mem_cons, or_assoc]
    · intro key hkey
      rcases hkeys' key hkey with hnext | hwallet
      · exact hkeys key hnext
      · exact .inr hwallet

theorem ownerKeysFor_eq_ok {xchCoins : List Coin} {catCoins : List Cat}
    {ownerKeys : Table Bytes32 PublicKey} (h : ownerKeysFor inputs xchCoins catCoins = .ok ownerKeys)
    (puzzleHash : Bytes32) :
    ((ownerKeys.get? puzzleHash).isSome ↔ puzzleHash ∈ xchCoins.map Coin.puzzleHash ∨
        puzzleHash ∈ catCoins.map fun cat => cat.info.p2PuzzleHash) ∧
      ∀ key, ownerKeys.get? puzzleHash = some key → inputs.syntheticKey puzzleHash = some key := by
  obtain ⟨xchKeys, hxch, hcats⟩ := bind_eq_ok.mp h
  obtain ⟨hheld, hkeys⟩ := insertKeys_eq_ok hxch puzzleHash
  obtain ⟨hheld', hkeys'⟩ := insertKeys_eq_ok hcats puzzleHash
  constructor
  · rw [hheld', hheld]
    simp
  · intro key hkey
    rcases hkeys' key hkey with hxchKey | hwallet
    · rcases hkeys key hxchKey with hempty | hwallet
      · cases hempty
      · exact hwallet
    · exact hwallet

/-! ## The legs -/

/-- What an entry resolves to. -/
structure OfferedLeg where
  asset : Bytes32
  amount : UInt64
  cats : List Cat

structure ResolvesTo (hexDecode : String → Except String Bytes) (inputs : SpendInputs)
    (identity : IdentityRef) (entry : AssetId × Amount) (leg : OfferedLeg) : Prop where
  asset : parseAssetId hexDecode entry.1 = .ok leg.asset
  amount : entry.2.mojos = leg.amount
  cats : inputs.spendableCat identity entry.1 = .ok leg.cats

theorem offerCats_eq_ok {entries : List (AssetId × Amount)}
    {resolved out : List Cat × List (Bytes32 × UInt64)}
    (h : entries.foldlM (offerCat hexDecode inputs identity) resolved = .ok out) :
    ∃ legs, List.Forall₂ (ResolvesTo hexDecode inputs identity) entries legs ∧
      out = (resolved.1 ++ legs.flatMap OfferedLeg.cats,
        resolved.2 ++ legs.map fun leg => (leg.asset, leg.amount)) := by
  induction entries generalizing resolved with
  | nil =>
    obtain rfl := Except.ok.inj h
    exact ⟨[], .nil, by simp⟩
  | cons entry entries ih =>
    rw [List.foldlM_cons] at h
    obtain ⟨next, hentry, hrest⟩ := bind_eq_ok.mp h
    unfold offerCat at hentry
    by_cases hzero : entry.2.mojos = 0
    · rw [if_pos hzero] at hentry
      cases hentry
    · rw [if_neg hzero] at hentry
      obtain ⟨asset, hasset, hentry⟩ := bind_eq_ok.mp hentry
      obtain ⟨cats, hcats, hentry⟩ := bind_eq_ok.mp hentry
      obtain rfl := Except.ok.inj hentry
      obtain ⟨legs, hlegs, rfl⟩ := ih hrest
      refine ⟨⟨asset, entry.2.mojos, cats⟩ :: legs, .cons ⟨hasset, rfl, hcats⟩ hlegs, ?_⟩
      simp

variable {offered : OfferedAssets} {legs : List OfferedLeg}

theorem assets_eq (h : List.Forall₂ (ResolvesTo hexDecode inputs identity) offered.cats legs) :
    offered.assets hexDecode = legs.map OfferedLeg.asset := by
  unfold OfferedAssets.assets
  generalize offered.cats = entries at h
  induction h with
  | nil => rfl
  | cons hentry _ ih =>
    have hparsed := toOption_eq_some.mpr hentry.asset
    simp [hparsed, ih]

theorem total_eq (h : List.Forall₂ (ResolvesTo hexDecode inputs identity) offered.cats legs)
    (asset : Bytes32) : offered.total hexDecode asset =
      ((legs.filter fun leg => leg.asset = asset).map fun leg => leg.amount.toNat).sum := by
  unfold OfferedAssets.total
  generalize offered.cats = entries at h
  induction h with
  | nil => rfl
  | @cons entry leg _ _ hentry _ ih =>
    have hparsed : (parseAssetId hexDecode entry.1).toOption = some leg.asset :=
      toOption_eq_some.mpr hentry.asset
    by_cases hasset : leg.asset = asset
    · simp [hparsed, hasset, hentry.amount, ih]
    · simp [hparsed, hasset, ih]

/-- Under distinct assets a leg's amount is the whole total. -/
theorem total_of_leg (hnodup : (legs.map OfferedLeg.asset).Nodup) {leg : OfferedLeg}
    (hleg : leg ∈ legs) :
    ((legs.filter fun other => other.asset = leg.asset).map fun other => other.amount.toNat).sum =
      leg.amount.toNat := by
  induction legs with
  | nil => cases hleg
  | cons first legs ih =>
    obtain ⟨hfirst, hrest⟩ := List.nodup_cons.mp hnodup
    rcases List.mem_cons.mp hleg with rfl | hmem
    · have hnone : legs.filter (fun other => other.asset = leg.asset) = [] := by
        rw [List.filter_eq_nil_iff]
        intro other hother heq
        exact hfirst (of_decide_eq_true heq ▸ List.mem_map_of_mem hother)
      simp [hnone]
    · have hne : first.asset ≠ leg.asset := fun heq => hfirst (heq ▸ List.mem_map_of_mem hmem)
      simp only [List.filter_cons, decide_eq_true_eq, if_neg hne]
      exact ih hrest hmem

/-- The coins of distinct assets, each listed once, are distinct. -/
theorem nodup_coins {assetOf : Coin → Bytes32} (hinputs : inputs.ListsAsked hexDecode assetOf)
    (h : List.Forall₂ (ResolvesTo hexDecode inputs identity) offered.cats legs)
    (hnodup : (legs.map OfferedLeg.asset).Nodup) :
    ((legs.flatMap OfferedLeg.cats).map Cat.coin).Nodup := by
  have hlisted : ∀ leg ∈ legs, (leg.cats.map Cat.coin).Nodup ∧
      ∀ coin ∈ leg.cats.map Cat.coin, assetOf coin = leg.asset := by
    intro leg hleg
    obtain ⟨entry, -, hentry⟩ := exists_mem_left h hleg
    refine ⟨hinputs.distinct hentry.cats, fun coin hcoin => ?_⟩
    obtain ⟨cat, hcat, rfl⟩ := List.mem_map.mp hcoin
    exact (hinputs.asked hentry.asset hentry.cats cat hcat).2
  rw [List.map_flatMap, List.nodup_flatMap]
  refine ⟨fun leg hleg => (hlisted leg hleg).1, ?_⟩
  have hpairwise : legs.Pairwise fun leg other => leg.asset ≠ other.asset := List.pairwise_map.mp hnodup
  refine hpairwise.imp_of_mem fun {leg other} hleg hother hne => ?_
  intro coin hcoin hcoin'
  exact hne (((hlisted leg hleg).2 coin hcoin).symm.trans ((hlisted other hother).2 coin hcoin'))

theorem offersOnce_of_legs {assetOf : Coin → Bytes32} {side : OfferedSide}
    (hinputs : inputs.ListsAsked hexDecode assetOf)
    (h : List.Forall₂ (ResolvesTo hexDecode inputs identity) offered.cats legs)
    (hkeys : ownerKeysFor inputs side.xchCoins side.catCoins = .ok side.ownerKeys)
    (hcats : side.catCoins = legs.flatMap OfferedLeg.cats)
    (hoffer : side.offerCats = legs.map fun leg => (leg.asset, leg.amount))
    (hnodup : (legs.map OfferedLeg.asset).Nodup) : OffersOnce hexDecode inputs offered side where
  coins := by
    rw [hcats]
    exact nodup_coins hinputs h hnodup
  offeredOnly cat hcat := by
    rw [hcats] at hcat
    obtain ⟨leg, hleg, hcat⟩ := List.mem_flatMap.mp hcat
    obtain ⟨entry, -, hentry⟩ := exists_mem_left h hleg
    rw [assets_eq h, (hinputs.asked hentry.asset hentry.cats cat hcat).1]
    exact List.mem_map_of_mem hleg
  assets := by
    rw [hoffer, List.map_map]
    exact hnodup
  totals asset amount := by
    rw [hoffer, assets_eq h, total_eq h]
    constructor
    · intro hmem
      obtain ⟨leg, hleg, heq⟩ := List.mem_map.mp hmem
      obtain ⟨rfl, rfl⟩ := Prod.mk.inj heq
      exact ⟨List.mem_map_of_mem hleg, (total_of_leg hnodup hleg).symm⟩
    · rintro ⟨hmem, htotal⟩
      obtain ⟨leg, hleg, rfl⟩ := List.mem_map.mp hmem
      rw [total_of_leg hnodup hleg] at htotal
      rw [UInt64.toNat_inj.mp htotal]
      exact List.mem_map_of_mem hleg
  keyed puzzleHash := (ownerKeysFor_eq_ok hkeys puzzleHash).1
  keys puzzleHash := (ownerKeysFor_eq_ok hkeys puzzleHash).2

end Proofs

/-- A resolved side offers each coin once, each asset with its exact total, exactly when no two
entries name the same asset. -/
theorem offersOnce_iff {hexDecode : String → Except String Bytes} {inputs : SpendInputs}
    {assetOf : Coin → Bytes32} {identity : IdentityRef} {offered : OfferedAssets} {fee : UInt64}
    {side : OfferedSide} (hinputs : inputs.ListsAsked hexDecode assetOf)
    (h : resolveOfferedSide hexDecode inputs identity offered fee = .ok side) :
    OffersOnce hexDecode inputs offered side ↔ (offered.assets hexDecode).Nodup := by
  unfold resolveOfferedSide at h
  by_cases hempty : offered.xch.mojos = 0 ∧ offered.cats.isEmpty = true
  · rw [if_pos hempty] at h
    cases h
  · rw [if_neg hempty] at h
    obtain ⟨xchCoins, -, h⟩ := bind_eq_ok.mp h
    obtain ⟨resolved, hresolved, h⟩ := bind_eq_ok.mp h
    obtain ⟨ownerKeys, hkeys, h⟩ := bind_eq_ok.mp h
    obtain ⟨changePuzzleHash, -, h⟩ := bind_eq_ok.mp h
    obtain rfl := Except.ok.inj h
    obtain ⟨legs, hlegs, rfl⟩ := offerCats_eq_ok hresolved
    have hassets := assets_eq hlegs
    constructor
    · intro honce
      have hnodup : ((legs.map fun leg => (leg.asset, leg.amount)).map Prod.fst).Nodup := honce.assets
      rw [List.map_map] at hnodup
      rw [hassets]
      exact hnodup
    · intro hnodup
      rw [hassets] at hnodup
      exact offersOnce_of_legs hinputs hlegs hkeys rfl rfl hnodup

/-! ## A wallet of one asset -/

section Sample

def goldAsset : Bytes32 := .rep 0xda

def goldCat (parent : UInt8) (amount : UInt64) : Cat :=
  ⟨⟨.rep parent, Sim.catPuzzleHash ⟨goldAsset, none, Sim.home⟩, amount⟩, none,
    ⟨goldAsset, none, Sim.home⟩⟩

/-- `hex::decode` on the spellings of the two assets. -/
def decodeSample (text : String) : Except String Bytes :=
  if lowercase text.toList = hexChars Sim.asset.bytes then .ok Sim.asset.bytes
  else if lowercase text.toList = hexChars goldAsset.bytes then .ok goldAsset.bytes
  else .error "Invalid character"

def lowerSpelling : AssetId := ⟨hexEncode Sim.asset.bytes⟩

def upperSpelling : AssetId := ⟨String.ofList ((hexChars Sim.asset.bytes).map Char.toUpper)⟩

def listedCats : List Cat := [Sim.catCoin 2 40, goldCat 4 25, Sim.catCoin 3 60]

/-- The wallet lists its CATs of the asset the text stands for. -/
def sampleInputs : SpendInputs :=
  { Sim.inputs [Sim.xchCoin 1 100] [] with
    spendableCat := fun _ assetId => .ok (listedCats.filter fun cat =>
      (parseAssetId decodeSample assetId).toOption = some cat.info.assetId) }

def sampleAssetOf (coin : Coin) : Bytes32 :=
  ((listedCats.find? fun cat => cat.coin = coin).map fun cat => cat.info.assetId).getD Sim.asset

theorem sampleInputs_listsAsked : sampleInputs.ListsAsked decodeSample sampleAssetOf where
  distinct := by
    rintro identity assetId cats ⟨⟩
    have hnodup : (listedCats.map Cat.coin).Nodup := by decide +kernel
    exact hnodup.sublist (List.filter_sublist.map Cat.coin)
  asked := by
    rintro identity assetId asset cats hasset ⟨⟩ cat hcat
    obtain ⟨hmem, hparsed⟩ := List.mem_filter.mp hcat
    have heq : cat.info.assetId = asset := by
      rw [hasset] at hparsed
      exact (Option.some.inj (of_decide_eq_true hparsed)).symm
    have hassetOf : ∀ cat ∈ listedCats, sampleAssetOf cat.coin = cat.info.assetId := by
      decide +kernel
    exact ⟨heq, (hassetOf cat hmem).trans heq⟩

/-- Both assets, one of them under another spelling. -/
theorem offersOnce_iff_twoAssets :
    let offered : OfferedAssets :=
      ⟨⟨10⟩, [(upperSpelling, ⟨70⟩), (⟨hexEncode goldAsset.bytes⟩, ⟨25⟩)]⟩
    ∃ side, resolveOfferedSide decodeSample sampleInputs Sim.identity offered 1 = .ok side ∧
      side.catCoins.length = 3 ∧ OffersOnce decodeSample sampleInputs offered side := by
  intro offered
  have hany : (resolveOfferedSide decodeSample sampleInputs Sim.identity offered 1).toOption.any
      (fun side => side.catCoins.length = 3) = true := by decide +kernel
  obtain ⟨side, hside, hlength⟩ := (Option.any_eq_true _ _).mp hany
  have h := toOption_eq_some.mp hside
  exact ⟨side, h, of_decide_eq_true hlength,
    (offersOnce_iff sampleInputs_listsAsked h).mpr (by decide +kernel)⟩

/-- One asset in two spellings: both of its coins are listed twice. -/
theorem not_offersOnce : sampleInputs.ListsAsked decodeSample sampleAssetOf ∧ ∃ side,
    resolveOfferedSide decodeSample sampleInputs Sim.identity
        ⟨⟨0⟩, [(lowerSpelling, ⟨30⟩), (upperSpelling, ⟨40⟩)]⟩ 0 = .ok side ∧
      side.catCoins.length = 4 ∧
      ¬ OffersOnce decodeSample sampleInputs
        ⟨⟨0⟩, [(lowerSpelling, ⟨30⟩), (upperSpelling, ⟨40⟩)]⟩ side := by
  have hany : (resolveOfferedSide decodeSample sampleInputs Sim.identity
      ⟨⟨0⟩, [(lowerSpelling, ⟨30⟩), (upperSpelling, ⟨40⟩)]⟩ 0).toOption.any (fun side =>
        side.catCoins.length = 4 ∧ ¬ (side.catCoins.map Cat.coin).Nodup) = true := by
    decide +kernel
  obtain ⟨side, hside, hcoins⟩ := (Option.any_eq_true _ _).mp hany
  obtain ⟨hlength, htwice⟩ := of_decide_eq_true hcoins
  exact ⟨sampleInputs_listsAsked, side, toOption_eq_some.mp hside, hlength,
    fun honce => htwice honce.coins⟩

end Sample

end DigWallet
