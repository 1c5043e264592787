import DigWallet.Lib.Search
import DigWallet.Verify.Ledger
import Mathlib.Data.Fintype.Basic

/-!
# DigWallet.Verify.Analyze — the bundle-level passes and `analyze`
-/

namespace DigWallet

variable (sdk : Sdk)

/-! ## NFT mint binding -/

def enforceBundleNftMintBinding (ledger : SpendLedger) : WalletResult Unit := do
  if ledger.launcherParents.isEmpty && ledger.eveParents.isEmpty then .ok ()
  else
    let createsLauncherOutput := ledger.protocolSink.any fun output =>
      output.puzzleHash = sdk.singletonLauncherHash
    require (ledger.launcherParents.isEmpty || createsLauncherOutput)
      ("a singleton launcher is spent in a bundle that creates no launcher output, so this bundle " ++
        "did not fund the mint it is performing; refusing to sign")
    require (ledger.launcherParents.all fun parent => ledger.spentCoinIds.contains parent)
      ("a singleton launcher spend's parent is not spent in this bundle, so this bundle did not " ++
        "create the launcher it is spending; refusing to sign")
    require (ledger.eveParents.all fun parent => ledger.launcherCoinIds.contains parent)
      ("an NFT mint's eve spend does not descend from a launcher spent in this bundle; refusing " ++
        "to sign")
    require (ledger.launcherCoinIds.all fun launcher => ledger.eveParents.contains launcher)
      ("a singleton launcher is spent with no eve singleton spend descending from it in this " ++
        "bundle, so what the launcher creates is unaccounted and unnamed; refusing to sign")
    ledger.launcherAnnouncements.forM fun (launcher, announcements) =>
      require (announcements.any fun id => ledger.signedAnnouncementAssertions.contains id)
        ("no wallet-signed coin asserts the coin announcement of launcher " ++
          hexEncode launcher.bytes ++ ", so the eve singleton it creates — the new NFT's OWNER — " ++
          "is re-solvable after signing while the approved launcher id stays the same; refusing " ++
          "to sign")

/-! ## Settlement binding -/

section Settlement

variable (bindings : List CoinBinding)

/-- `by_coin_id`: an index inserted later replaces an earlier one. -/
def byCoinId (coinId : Bytes32) : Option (Fin bindings.length) :=
  ((List.finRange bindings.length).filter fun i => bindings[i].coinId = coinId).getLast?

/-- `by_puzzle_hash`. -/
def byPuzzleHash (puzzleHash : Bytes32) : List (Fin bindings.length) :=
  (List.finRange bindings.length).filter fun i => bindings[i].puzzleHash = puzzleHash

/-- What the search pushes for one coin, the last pushed first. -/
def requiredIndices (i : Fin bindings.length) : List (Fin bindings.length) :=
  (bindings[i].requiresCoinIds.filterMap (byCoinId bindings) ++
    bindings[i].requiresPuzzleHashes.flatMap (byPuzzleHash bindings)).reverse

def tiedToAnnouncement (start : Fin bindings.length) : Bool :=
  Search.search (fun i => bindings[i].carriesAnnouncement) (requiredIndices bindings) ∅ [start]

def enforceBundleSettlementBinding : WalletResult Unit :=
  require ((List.finRange bindings.length).all fun i =>
      !bindings[i].createsSink || tiedToAnnouncement bindings i)
    ("a coin commits value to settlement with no offer-binding announcement reachable through the " ++
      "bundle's concurrency ring (give-it-away-for-nothing); refusing to sign")

end Settlement

/-! ## Conservation -/

/-- XCH conservation; returns the effective fee. -/
def enforceXchConservation (optionMode : Bool) (ledger : SpendLedger) : WalletResult UInt64 :=
  if optionMode then
    if 0 < ledger.melted then
      .error (reject ("a singleton melt appears in an option bundle, whose implicit-fee " ++
        "conservation cannot account for destroyed value; refusing to sign"))
    else if ledger.xchOut ≤ ledger.xchIn then .ok (ledger.xchIn - ledger.xchOut)
    else .error (reject
      s!"option spend mints value: outputs {ledger.xchOut} exceed inputs {ledger.xchIn}")
  else do
    let xchOutPlusFee ← accumulate ledger.xchOut ledger.fee "XCH output + fee total"
    let accounted ← accumulate xchOutPlusFee ledger.melted "XCH output + fee + melted total"
    require (ledger.xchIn = accounted)
      s!"XCH value not conserved: in {ledger.xchIn} != out+fee+melted {accounted}"
    accumulate ledger.fee ledger.melted "reported fee"

def enforceCatConservation (ledger : SpendLedger) : WalletResult Unit :=
  (ledger.catIn.keys ++ ledger.catOut.keys).forM fun asset =>
    let input := ledger.catIn.get asset
    let output := ledger.catOut.get asset
    require (input = output)
      ("CAT " ++ hexEncode asset.bytes ++ s!" value not conserved: in {input} != out {output}")

/-! ## The pass -/

/-- Whether this coin is an option singleton or a locked option underlying, as far as it parses. -/
def isOptionCoin (spend : CoinSpend) : Bool :=
  match sdk.nodeFromBytes spend.puzzleReveal, sdk.nodeFromBytes spend.solution with
  | .ok puzzlePtr, .ok solutionPtr =>
    let puzzle := sdk.parsePuzzle puzzlePtr
    (match sdk.optionContractParse spend.coin puzzle solutionPtr with
      | .ok (some _) => true
      | _ => false) ||
    (match sdk.p2OneOfManyParsePuzzle puzzle with
      | .ok true => true
      | _ => false)
  | _, _ => false

def isOptionBundle (coinSpends : List CoinSpend) : Bool := coinSpends.any (isOptionCoin sdk)

def analyze (coinSpends : List CoinSpend) : WalletResult SpendEffect := do
  require (!coinSpends.isEmpty) "no coin spends to verify"
  let optionMode := isOptionBundle sdk coinSpends
  let ledger := { SpendLedger.new with
    spentCoinIds := coinSpends.map fun spend => sdk.coinId spend.coin }
  let ledger ← coinSpends.foldlM (accountCoin sdk) ledger
  enforceBundleNftMintBinding sdk ledger
  enforceBundleSettlementBinding ledger.bindings
  let effectiveFee ← enforceXchConservation optionMode ledger
  enforceCatConservation ledger
  .ok {
    outputs := ledger.outputs
    protocolSink := ledger.protocolSink
    fee := effectiveFee
    nftOperations := ledger.nftOperations
    meltedSingletons := ledger.meltedSingletons }

end DigWallet
