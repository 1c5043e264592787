import DigWallet.Engine.OfferedSide
import DigWallet.Engine.OfferState
import DigWallet.Signer.Sign

/-!
# DigWallet.Engine.BuildOffer — the offers surface

`engine::build_offer` over `dig_offers`: make and take each build an unsigned spend for the client to
sign and park what the second call needs; cancel, combine and summarize are single calls.
-/

namespace DigWallet

open Faults Totals

/-! ## Requests and responses -/

structure RequestedAssets where
  xch : Amount
  cats : List (AssetId × Amount)
  payee : Address

structure MakeOfferRequest where
  identity : IdentityRef
  offered : OfferedAssets
  requested : RequestedAssets
  fee : Amount

structure AssembleOfferRequest where
  buildId : OfferBuildId
  signed : SignedBundle

structure TakeOfferRequest where
  identity : IdentityRef
  offer : String
  fee : Amount

structure FinalizeTakeRequest where
  buildId : OfferBuildId
  signed : SignedBundle

structure CancelOfferRequest where
  identity : IdentityRef
  offer : String
  fee : Amount

structure OfferString where
  offer : String
  offerId : String

inductive SummaryAsset
  | xch (amount : Amount)
  | cat (assetId : AssetId) (amount : Amount)
  | nft (launcherId : String)
deriving DecidableEq

structure OfferSummary where
  offerId : String
  offered : List SummaryAsset
  requested : List SummaryAsset
  arbitrage : List SummaryAsset
  royalties : List (String × UInt16)

/-! ## `dig_offers` -/

/-- `dig_offers::Error`. -/
inductive OfferError
  | invalidInput (message : String)
  | decode (message : String)
  | incompatible (message : String)
  | driver (e : String)
  | signer (e : String)

structure RequestedSide where
  payeePuzzleHash : Bytes32
  xch : UInt64
  cats : List (Bytes32 × UInt64)

structure OfferCost where
  xch : UInt64
  cats : List (Bytes32 × UInt64)

structure TakerFunds where
  changePuzzleHash : Bytes32
  ownerKeys : Table Bytes32 PublicKey
  xchCoins : List Coin
  catCoins : List Cat

inductive OfferAsset
  | xch (amount : UInt64)
  | cat (assetId : Bytes32) (amount : UInt64)
  | nft (launcherId : Bytes32)

/-- What `dig_offers::summarize` returns. -/
structure OfferSides where
  offered : List OfferAsset
  requested : List OfferAsset
  arbitrage : OfferCost
  royalties : List (Bytes32 × UInt16)

structure Payment where
  puzzleHash : Bytes32
  amount : UInt64

/-- `Offer::requested_payments`, by notarized payment. -/
structure OfferPayments where
  xch : List (List Payment)
  cats : List (Bytes32 × List (List Payment))

section Types

variable (T : OfferTypes)

/-- `UnsignedMake`, with the context it was built in. -/
structure UnsignedMake where
  ctx : T.SpendContext
  coinSpends : List CoinSpend
  requestedPayments : T.RequestedPayments
  requestedAssetInfo : T.AssetInfo

structure UnsignedTake where
  ctx : T.SpendContext
  coinSpends : List CoinSpend
  offer : T.Offer

/-- The functions of `dig_offers`; a build starts from a new `SpendContext`. -/
structure OfferDrivers where
  makeBuild : OfferedSide → RequestedSide → UInt64 → Except OfferError (UnsignedMake T)
  makeAssemble : T.SpendContext → SignedBundle → T.RequestedPayments → T.AssetInfo →
    Except OfferError String
  takeBuild : String → TakerFunds → UInt64 → Except OfferError (UnsignedTake T)
  takeCombine : T.Offer → SignedBundle → SignedBundle
  cancelBuild : String → Bytes32 → Table Bytes32 PublicKey → UInt64 →
    Except OfferError (List CoinSpend)
  combine : List String → Except OfferError String
  summarize : String → Except OfferError OfferSides
  decode : String → Except OfferError (List CoinSpend)
  offerId : String → Except OfferError Bytes32
  requestedPayments : T.Offer → OfferPayments

/-- The code the offers surface calls. -/
structure OfferLibs where
  sdk : Sdk
  drivers : SpendDrivers
  offers : OfferDrivers T
  hexDecode : String → Except String Bytes
  overflowChecks : Bool

/-- What a build returns to the client and what it parks. -/
structure BuiltOffer where
  unsigned : UnsignedSpend
  ctx : T.SpendContext
  kind : PendingKind T

end Types

namespace OfferBuilder

def mapOfferError : OfferError → WalletError
  | .invalidInput message =>
    if "insufficient".toList <:+: lowercase message.toList then insufficientFunds message
    else invalidInput message
  | .decode message => invalidInput ("malformed offer: " ++ message)
  | .incompatible message => invalidInput message
  | .driver e => spendFailed ("offer driver: " ++ e)
  | .signer e => spendFailed ("offer signature extraction: " ++ e)

/-- `map_err(map_offer_error)`. -/
def orOfferError {α : Type} : Except OfferError α → WalletResult α
  | .ok a => .ok a
  | .error e => .error (mapOfferError e)

@[simp] theorem orOfferError_eq_ok {α : Type} {r : Except OfferError α} {a : α} :
    orOfferError r = .ok a ↔ r = .ok a := by
  cases r <;> simp [orOfferError]

def unknownBuild : WalletError :=
  invalidInput "unknown or expired offer build id (the build may have timed out — rebuild it)"

/-! ## The two sides -/

section Sides

variable (sdk : Sdk) (hexDecode : String → Except String Bytes)

/-- The loop body of `resolve_requested_side`. -/
def requestCat (entry : AssetId × Amount) : WalletResult (Bytes32 × UInt64) :=
  if entry.2.mojos = 0 then .error (invalidInput "a requested CAT amount must be non-zero")
  else do
    let asset ← parseAssetId hexDecode entry.1
    .ok (asset, entry.2.mojos)

def resolveRequestedSide (requested : RequestedAssets) : WalletResult RequestedSide := do
  let cats ← requested.cats.mapM (requestCat hexDecode)
  if requested.xch.mojos = 0 ∧ cats.isEmpty then
    .error (invalidInput "an offer must request at least one asset")
  else do
    let payee ← decodeAddress sdk requested.payee
    .ok ⟨payee, requested.xch.mojos, cats⟩

variable (overflowChecks : Bool) (inputs : SpendInputs)

/-- The label of a taker's CAT selection. -/
def catTake (asset : Bytes32) : String := "CAT " ++ hexEncode asset.bytes ++ " (take)"

def selectCats (coins : List Cat) (asset : Bytes32) (need : UInt64) (cap : ℕ) :
    Call WalletError (List Cat) := do
  let ofAsset := coins.filter fun cat => cat.info.assetId = asset
  let selected ←
    selectOrFail sdk overflowChecks (ofAsset.map Cat.coin) need cap (catTake asset)
  let chosenIds := selected.map sdk.coinId
  .ok (ofAsset.filter fun cat => sdk.coinId cat.coin ∈ chosenIds)

/-- The XCH of `resolve_taker_funds`. -/
def fundXch (identity : IdentityRef) (cap : ℕ) (xchTarget : UInt64) :
    Call WalletError (List Coin) :=
  if 0 < xchTarget then do
    let available ← ofResult (inputs.spendableXch identity)
    selectOrFail sdk overflowChecks available xchTarget cap "XCH (take)"
  else .ok []

/-- The loop body of `resolve_taker_funds`. -/
def fundCat (identity : IdentityRef) (cap : ℕ) (leg : Bytes32 × UInt64) :
    Call WalletError (List Cat) := do
  let available ← ofResult (inputs.spendableCat identity ⟨hexEncode leg.1.bytes⟩)
  selectCats sdk overflowChecks available leg.1 leg.2 cap

def resolveTakerFunds (cap : ℕ) (identity : IdentityRef) (cost : OfferCost) (fee : UInt64) :
    Call WalletError TakerFunds := do
  let xchCoins ←
    fundXch sdk overflowChecks inputs identity cap (saturatingAdd cost.xch fee)
  let catCoins ← cost.cats.mapM (fundCat sdk overflowChecks inputs identity cap)
  let ownerKeys ← ofResult (ownerKeysFor inputs xchCoins catCoins.flatten)
  let changePuzzleHash ← ofResult (inputs.changePuzzleHash identity)
  .ok ⟨changePuzzleHash, ownerKeys, xchCoins, catCoins.flatten⟩

end Sides

/-! ## The summaries -/

/-- A leg of native XCH, when there is one. -/
def xchLeg (address : Address) (amount : Amount) : List SpendOutput :=
  if 0 < amount.mojos then [⟨address, amount, none⟩] else []

def catLegs (address : Address) (cats : List (AssetId × Amount)) : List SpendOutput :=
  cats.map fun entry => ⟨address, entry.2, some entry.1⟩

/-- The offered legs are sinks, the requested ones are paid to the payee. -/
def makeSummary (offered : OfferedAssets) (requested : RequestedAssets) (fee : UInt64) :
    TransactionSummary :=
  { outputs := xchLeg ⟨""⟩ offered.xch ++ catLegs ⟨""⟩ offered.cats
    received := xchLeg requested.payee requested.xch ++ catLegs requested.payee requested.cats
    fee := ⟨fee⟩
    meltedSingletons := []
    nftOperations := [] }

section Summaries

variable (sdk : Sdk)

def requestedPaymentOutput (assetId : Option Bytes32) (payment : Payment) :
    WalletResult SpendOutput := do
  let address ← orSpendFailed "cannot encode payee address: "
    (sdk.encodeAddress payment.puzzleHash "xch")
  .ok ⟨⟨address⟩, ⟨payment.amount⟩, assetId.map fun asset => ⟨hexEncode asset.bytes⟩⟩

def takerSummary (payments : OfferPayments) (fee : UInt64) : WalletResult TransactionSummary := do
  let xch ← payments.xch.flatten.mapM (requestedPaymentOutput sdk none)
  let cats ← payments.cats.mapM fun leg =>
    leg.2.flatten.mapM (requestedPaymentOutput sdk (some leg.1))
  .ok
    { outputs := xch ++ cats.flatten
      received := []
      fee := ⟨fee⟩
      meltedSingletons := []
      nftOperations := [] }

end Summaries

def mapOfferAsset : OfferAsset → SummaryAsset
  | .xch amount => .xch ⟨amount⟩
  | .cat assetId amount => .cat ⟨hexEncode assetId.bytes⟩ ⟨amount⟩
  | .nft launcherId => .nft (hexEncode launcherId.bytes)

def costToAssets (cost : OfferCost) : List SummaryAsset :=
  (if 0 < cost.xch then [.xch ⟨cost.xch⟩] else []) ++
    cost.cats.map fun leg => .cat ⟨hexEncode leg.1.bytes⟩ ⟨leg.2⟩

/-! ## The calls -/

section Calls

variable {T : OfferTypes} (libs : OfferLibs T) (builder : SdkSpendBuilder)

def computeOfferId (offer : String) : WalletResult String := do
  let id ← orOfferError (libs.offers.offerId offer)
  .ok (hexEncode id.bytes)

def finishOfferString (offer : String) : WalletResult OfferString := do
  let offerId ← computeOfferId libs offer
  .ok ⟨offer, offerId⟩

/-- `build_make` up to `insert_make`. -/
def buildMake (request : MakeOfferRequest) : WalletResult (BuiltOffer T) := do
  let fee := request.fee.mojos
  let offeredSide ←
    resolveOfferedSide libs.hexDecode builder.inputs request.identity request.offered fee
  let requestedSide ← resolveRequestedSide libs.sdk libs.hexDecode request.requested
  let make ← orOfferError (libs.offers.makeBuild offeredSide requestedSide fee)
  let unsigned ← builder.finish libs.sdk libs.drivers make.coinSpends
    (makeSummary request.offered request.requested fee)
  .ok ⟨unsigned, make.ctx, .make ⟨make.requestedPayments, make.requestedAssetInfo⟩⟩

/-- `assemble_make` from `take_make` on. -/
def assembleMake (intermediate : Option (MakeIntermediate T)) (signed : SignedBundle) :
    WalletResult OfferString :=
  match intermediate with
  | none => .error unknownBuild
  | some make => do
    let offer ← orOfferError
      (libs.offers.makeAssemble make.ctx signed make.requestedPayments make.requestedAssetInfo)
    finishOfferString libs offer

/-- `build_take` up to `insert_take`. -/
def buildTake (request : TakeOfferRequest) : Call WalletError (BuiltOffer T) := do
  let fee := request.fee.mojos
  let sides ← ofResult (orOfferError (libs.offers.summarize request.offer))
  let funds ← resolveTakerFunds libs.sdk libs.overflowChecks builder.inputs builder.coinCap
    request.identity sides.arbitrage fee
  let take ← ofResult (orOfferError (libs.offers.takeBuild request.offer funds fee))
  let summary ← ofResult (takerSummary libs.sdk (libs.offers.requestedPayments take.offer) fee)
  let unsigned ← ofResult (builder.finish libs.sdk libs.drivers take.coinSpends summary)
  .ok ⟨unsigned, take.ctx, .take take.offer⟩

/-- `finalize_take` from `take_take` on. -/
def finalizeTake (intermediate : Option (TakeIntermediate T)) (signed : SignedBundle) :
    WalletResult SignedBundle :=
  match intermediate with
  | none => .error unknownBuild
  | some take => .ok (libs.offers.takeCombine take.offer signed)

def ownerKeysForOffer (inputs : SpendInputs) (offer : String) :
    WalletResult (Table Bytes32 PublicKey) := do
  let coinSpends ← orOfferError (libs.offers.decode offer)
  let ownerKeys := coinSpends.foldl
    (fun ownerKeys spend => match inputs.syntheticKey spend.coin.puzzleHash with
      | some key => ownerKeys.put spend.coin.puzzleHash key
      | none => ownerKeys) Table.empty
  if ownerKeys.rows.isEmpty then
    .error (spendFailed ("cannot cancel this offer: the wallet holds no standard-layer key for " ++
      "any of its offered coins (not the offer's maker, or a CAT/NFT offer whose coins must be " ++
      "reclaimed through their native layer)"))
  else .ok ownerKeys

def buildCancel (request : CancelOfferRequest) : WalletResult UnsignedSpend := do
  let fee := request.fee.mojos
  let reclaimPuzzleHash ← builder.inputs.changePuzzleHash request.identity
  let ownerKeys ← ownerKeysForOffer libs builder.inputs request.offer
  let coinSpends ← orOfferError
    (libs.offers.cancelBuild request.offer reclaimPuzzleHash ownerKeys fee)
  builder.finish libs.sdk libs.drivers coinSpends ⟨[], [], ⟨fee⟩, [], []⟩

def combine (offers : List String) : WalletResult OfferString := do
  let offer ← orOfferError (libs.offers.combine offers)
  finishOfferString libs offer

def summarize (offer : String) : WalletResult OfferSummary := do
  let sides ← orOfferError (libs.offers.summarize offer)
  let offerId ← computeOfferId libs offer
  .ok
    { offerId
      offered := sides.offered.map mapOfferAsset
      requested := sides.requested.map mapOfferAsset
      arbitrage := costToAssets sides.arbitrage
      royalties := sides.royalties.map fun royalty => (hexEncode royalty.1.bytes, royalty.2) }

end Calls

end OfferBuilder

end DigWallet
