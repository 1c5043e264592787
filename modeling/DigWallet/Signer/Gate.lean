import DigWallet.Lib.Sorting
import DigWallet.Signer.Keys
import DigWallet.Verify.Summary

/-!
# DigWallet.Signer.Gate — the verify-before-sign gate

`reclassify_by_ownership`, `reviewable_summary`, `assert_reviewed_summary_matches` and
`verify_before_signing`.
-/

namespace DigWallet

open Sorting

/-! ## Normal forms of text -/

/-- `trim_start_matches("0x")`. -/
def trimHexPrefixes : List Char → List Char
  | '0' :: 'x' :: rest => trimHexPrefixes rest
  | text => text

/-- `strip_prefix("0x").unwrap_or(text)`. -/
def stripHexPrefix : List Char → List Char
  | '0' :: 'x' :: rest => rest
  | text => text

/-- ASCII lower case.  `normalize_asset` lower-cases by Unicode, but no character outside ASCII
lower-cases to a hex digit, and the result is only compared with hex text. -/
def lowercase (text : List Char) : List Char := text.map Char.toLower

def normalizeAsset (asset : AssetId) : String :=
  String.ofList (lowercase (stripHexPrefix asset.text.toList))

/-- The normal form of a reviewed destroyed coin id. -/
def normalizeMelt (coinId : String) : String :=
  String.ofList (lowercase (trimHexPrefixes coinId.toList))

/-- `Option<String>`, `None` first. -/
abbrev AssetKey := WithBot String

abbrev RecipientKey := Bytes ×ₗ UInt64 ×ₗ AssetKey

abbrev SinkKey := UInt64 ×ₗ AssetKey

def derivedAsset (assetId : Option Bytes32) : AssetKey :=
  assetId.map fun asset => hexEncode asset.bytes

def reviewedAsset (assetId : Option AssetId) : AssetKey := assetId.map normalizeAsset

section Gate

variable (sdk : Sdk) (signer : LocalSigner)

/-! ## The ownership split -/

structure OwnedSplit where
  recipients : List DecodedOutput
  protocolSink : List DecodedOutput
  fee : UInt64
  meltedSingletons : List Bytes32
  nftOperations : List NftOperation

def reclassifyByOwnership (effect : SpendEffect) : OwnedSplit where
  recipients := effect.outputs.filter fun output => !signer.ownsPuzzleHash sdk output.puzzleHash
  protocolSink := effect.protocolSink
  fee := effect.fee
  meltedSingletons := effect.meltedSingletons
  nftOperations := effect.nftOperations

def reviewableSummary (coinSpends : List CoinSpend) : WalletResult TransactionSummary := do
  let split := reclassifyByOwnership sdk signer (← analyze sdk coinSpends)
  summarizeEgress sdk split.recipients split.protocolSink split.fee split.meltedSingletons
    split.nftOperations

/-! ## The comparison -/

def mismatch (what : String) : String := "engine summary does not match the coin spends: " ++ what

def decodePuzzleHash (address : Address) : WalletResult Bytes :=
  match sdk.decodeAddress address.text with
  | .ok decoded => .ok decoded.bytes
  | .error e => .error (reject
      ("engine summary carries an undecodable address " ++ address.text ++ ": " ++ e))

def derivedRecipient (output : DecodedOutput) : RecipientKey :=
  toLex (output.puzzleHash.bytes, toLex (output.amount, derivedAsset output.assetId))

def reviewedRecipient (output : SpendOutput) : WalletResult RecipientKey := do
  let puzzleHash ← decodePuzzleHash sdk output.address
  .ok (toLex (puzzleHash, toLex (output.amount.mojos, reviewedAsset output.assetId)))

def derivedSink (output : DecodedOutput) : SinkKey :=
  toLex (output.amount, derivedAsset output.assetId)

def reviewedSink (output : SpendOutput) : SinkKey :=
  toLex (output.amount.mojos, reviewedAsset output.assetId)

def assertReviewedSummaryMatches (claimed : TransactionSummary) (split : OwnedSplit) :
    WalletResult Unit := do
  require (claimed.fee.mojos = split.fee) (mismatch "fee")
  let derivedMelts := split.meltedSingletons.map fun coinId => hexEncode coinId.bytes
  let reviewedMelts := claimed.meltedSingletons.map normalizeMelt
  require (sort derivedMelts = sort reviewedMelts) (mismatch "destroyed singletons")
  let derivedNfts ← split.nftOperations.mapM (NftOperation.describe sdk)
  require (sort derivedNfts = sort claimed.nftOperations) (mismatch "NFT operations")
  let derivedRecipients := split.recipients.map derivedRecipient
  let reviewedRecipients ← (claimed.outputs.filter fun output => !output.isProtocolSink).mapM
    (reviewedRecipient sdk)
  require (sort derivedRecipients = sort reviewedRecipients) (mismatch "recipient outputs")
  let derivedSinks := (split.protocolSink.filter fun output => 0 < output.amount).map derivedSink
  let reviewedSinks := (claimed.outputs.filter SpendOutput.isProtocolSink).map reviewedSink
  require (sort derivedSinks = sort reviewedSinks) (mismatch "settlement-sink outputs")

def verifyBeforeSigning (unsigned : UnsignedSpend) : WalletResult Unit := do
  let split := reclassifyByOwnership sdk signer (← analyze sdk unsigned.coinSpends)
  split.protocolSink.forM fun output =>
    require (isProtocolSinkHash sdk output.puzzleHash)
      ("a protocol-sink output does not commit to a recognized canonical structural puzzle; " ++
        "refusing to sign")
  assertReviewedSummaryMatches sdk unsigned.summary split

end Gate

end DigWallet
