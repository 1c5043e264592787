import DigWallet.Verify.Analyze

/-!
# DigWallet.Verify.Summary — rendering an effect for review

`NftOperation::describe` and `summarize_egress`.
-/

namespace DigWallet

variable (sdk : Sdk)

/-- `Bech32Address::new(hash, hrp).encode()`, for an NFT sentence. -/
def encodeIn (what : String) (hash : Bytes32) (hrp : String) : WalletResult String :=
  orReject ("cannot encode NFT " ++ what ++ ": ") (sdk.encodeAddress hash hrp)

def NftOperation.describe (operation : NftOperation) : WalletResult String := do
  let id ← encodeIn sdk "id" operation.launcherId "nft"
  let owner ← encodeIn sdk "owner" operation.owner "xch"
  match operation with
  | .transfer _ _ => .ok ("transfer " ++ id ++ " to " ++ owner)
  | .mint _ _ => .ok ("mint " ++ id ++ " owned by " ++ owner)

def encodeXchAddress (puzzleHash : Bytes32) : WalletResult Address := do
  .ok ⟨← orReject "cannot encode recipient address: " (sdk.encodeAddress puzzleHash "xch")⟩

def assetText (assetId : Option Bytes32) : Option AssetId :=
  assetId.map fun asset => ⟨hexEncode asset.bytes⟩

def renderEgress (output : DecodedOutput) : WalletResult SpendOutput := do
  .ok ⟨← encodeXchAddress sdk output.puzzleHash, ⟨output.amount⟩, assetText output.assetId⟩

/-- A sink is rendered with an empty address. -/
def renderSink (output : DecodedOutput) : SpendOutput :=
  ⟨⟨""⟩, ⟨output.amount⟩, assetText output.assetId⟩

def summarizeEgress (egress protocolSink : List DecodedOutput) (fee : UInt64)
    (meltedSingletons : List Bytes32) (nftOperations : List NftOperation) :
    WalletResult TransactionSummary := do
  let outputs ← egress.mapM (renderEgress sdk)
  let sinks := (protocolSink.filter fun output => 0 < output.amount).map renderSink
  let nftOperations ← nftOperations.mapM (NftOperation.describe sdk)
  .ok {
    outputs := outputs ++ sinks
    received := []
    fee := ⟨fee⟩
    meltedSingletons := meltedSingletons.map fun coinId => hexEncode coinId.bytes
    nftOperations }

end DigWallet
