import DigWallet.Engine.Hints
import DigWallet.Engine.Sync
import DigWallet.Lib.Totals

/-!
# DigWallet.Engine.Assets — NFTs, DIDs and CATs out of a spend

`reconstruct_from_parent_spend` over the drivers of the SDK and of `dig_did`, and
`sync_spends_from_peer`, which writes what it finds into the store.
-/

namespace DigWallet

open Totals

/-! ## Drivers -/

/-- What `Nft::parse_child` returns, as far as it is read. -/
structure ChildNft where
  launcherId : Bytes32
  metadata : Node

/-- A `Cat` of `Cat::parse_children`. -/
structure ChildCat where
  coin : Coin
  assetId : Bytes32
  p2PuzzleHash : Bytes32
deriving DecidableEq

/-- `dig_did::DidError`, by what the scanner makes of it. -/
inductive DidError
  | notDid
  | missingLineage
  | other

/-- The third-party code the reconstruction calls. -/
structure AssetDrivers where
  runProgram : Node → Node → Except String Node
  nftParseChild : Coin → Puzzle → Node → Except String (Option ChildNft)
  nftDataUris : Node → Option (List String)
  hydrateDid : Coin → Bytes → Bytes → Coin → Except DidError Bytes32
  catParseChildren : Coin → Puzzle → Node → Except String (Option (List ChildCat))

structure HydratedSingletons where
  dids : List DidRecord
  nfts : List NftRecord
  cats : List CatRecord
  skipped : ℕ

def unparseable (message : String) : WalletError := ⟨.spendValidationFailed, message⟩

/-- `map_err(|e| unparseable(…))`. -/
def orUnparseable {α : Type} (what : String) : Except String α → WalletResult α
  | .ok a => .ok a
  | .error e => .error (unparseable (what ++ e))

/-- A child's asset id as the records spell it. -/
def ChildCat.asset (cat : ChildCat) : AssetId := ⟨hexEncode cat.assetId.bytes⟩

/-! ## Reconstruction -/

section Reconstruction

variable (sdk : Sdk) (drivers : AssetDrivers) (overflowChecks : Bool)

def hydrateNft (parent : CoinSpend) (puzzle : Puzzle) (solution : Node) (out : HydratedSingletons) :
    HydratedSingletons :=
  match drivers.nftParseChild parent.coin puzzle solution with
  | .ok (some nft) =>
    { out with
      nfts := out.nfts ++
        [⟨hexEncode nft.launcherId.bytes, (drivers.nftDataUris nft.metadata).bind List.head?⟩] }
  | .ok none => out
  | .error _ => { out with skipped := out.skipped + 1 }

def oddChildren (parent : CoinSpend) : WalletResult (List Coin) := do
  let puzzle ← orUnparseable "puzzle reveal: " (sdk.nodeFromBytes parent.puzzleReveal)
  let solution ← orUnparseable "solution: " (sdk.nodeFromBytes parent.solution)
  let output ← orUnparseable "spend did not run: " (drivers.runProgram puzzle solution)
  let conditions ← orUnparseable "conditions: " (sdk.conditionsFromClvm output)
  let creates := (conditions.filterMap Condition.asCreateCoin).filter fun create =>
    create.amount % 2 = 1
  .ok (creates.map fun create => ⟨sdk.coinId parent.coin, create.puzzleHash, create.amount⟩)

/-- One turn of the loop of `hydrate_dids`. -/
def hydrateDid (parent : CoinSpend) (out : HydratedSingletons) (child : Coin) : HydratedSingletons :=
  match drivers.hydrateDid parent.coin parent.puzzleReveal parent.solution child with
  | .ok launcherId => { out with dids := out.dids ++ [⟨hexEncode launcherId.bytes, none⟩] }
  | .error .notDid | .error .missingLineage => out
  | .error .other => { out with skipped := out.skipped + 1 }

def hydrateDids (parent : CoinSpend) (out : HydratedSingletons) : WalletResult HydratedSingletons := do
  .ok ((← oddChildren sdk drivers parent).foldl (hydrateDid drivers parent) out)

/-- The record of the asset raised by the amount, or a new one at the end; `none` is the panic of a
checked build. -/
def addCat (assetId : AssetId) (amount : UInt64) : List CatRecord → Option (List CatRecord)
  | [] => some [⟨assetId, ⟨amount⟩, none⟩]
  | existing :: cats =>
    if existing.assetId = assetId then do
      some ({ existing with
        balance := ⟨← addU64 overflowChecks existing.balance.mojos amount⟩ } :: cats)
    else do some (existing :: (← addCat assetId amount cats))

def hydrateCats (parent : CoinSpend) (puzzle : Puzzle) (solution : Node) (out : HydratedSingletons) :
    Option HydratedSingletons :=
  match drivers.catParseChildren parent.coin puzzle solution with
  | .ok (some children) => do
    let cats ← children.foldlM
      (fun cats cat => addCat overflowChecks cat.asset cat.coin.amount cats) out.cats
    some { out with cats := cats }
  | .ok none => some out
  | .error _ => some { out with skipped := out.skipped + 1 }

/-- `.ok none` is a panic in the last step. -/
def reconstructFromParentSpend (parent : CoinSpend) : WalletResult (Option HydratedSingletons) := do
  let puzzlePtr ← orUnparseable "puzzle reveal: " (sdk.nodeFromBytes parent.puzzleReveal)
  let solution ← orUnparseable "solution: " (sdk.nodeFromBytes parent.solution)
  let puzzle := sdk.parsePuzzle puzzlePtr
  let out := hydrateNft drivers parent puzzle solution ⟨[], [], [], 0⟩
  let out ← hydrateDids sdk drivers parent out
  .ok (hydrateCats drivers overflowChecks parent puzzle solution out)

end Reconstruction

/-! ## Synchronisation -/

structure SpendSyncOutcome where
  spends : ℕ
  hintedCoins : ℕ
  assets : ℕ
  skipped : ℕ
deriving DecidableEq

/-- `absorb`. -/
def WalletState.absorb (state : WalletState) (hydrated : HydratedSingletons) : WalletState :=
  let state := hydrated.dids.foldl WalletState.upsertDid state
  let state := hydrated.nfts.foldl WalletState.upsertNft state
  hydrated.cats.foldl WalletState.upsertCat state

section Synchronisation

variable (sdk : Sdk) (drivers : AssetDrivers) (overflowChecks : Bool)

/-- The hints of one spend. -/
def indexSpendHints (sync : WalletState × SpendSyncOutcome) (spend : CoinSpend) :
    WalletState × SpendSyncOutcome :=
  match hintsFromCoinSpend sdk drivers.runProgram spend with
  | .ok extracted =>
    (sync.1.indexHints extracted,
      { sync.2 with hintedCoins := sync.2.hintedCoins + extracted.length })
  | .error _ => (sync.1, { sync.2 with skipped := sync.2.skipped + 1 })

/-- One turn of the loop of `sync_spends_from_peer`. -/
def syncSpend (sync : WalletState × SpendSyncOutcome) (spend : CoinSpend) :
    Option (WalletState × SpendSyncOutcome) :=
  let (state, outcome) := indexSpendHints sdk drivers sync spend
  match reconstructFromParentSpend sdk drivers overflowChecks spend with
  | .error _ => some (state, { outcome with skipped := outcome.skipped + 1 })
  | .ok hydrated => do
    let hydrated ← hydrated
    some (state.absorb hydrated,
      { outcome with
        skipped := outcome.skipped + hydrated.skipped
        assets := outcome.assets + (hydrated.dids.length + hydrated.nfts.length + hydrated.cats.length) })

/-- What follows the answer of the peer in `sync_spends_from_peer`. -/
def SyncEngine.syncSpendsFromPeer (engine : SyncEngine) (walletId : WalletId)
    (answer : WalletResult (List CoinSpend)) :
    Option (SyncEngine × WalletResult SpendSyncOutcome) :=
  match answer with
  | .error e => some (engine, .error e)
  | .ok spends => do
    let (state, outcome) ← spends.foldlM (syncSpend sdk drivers overflowChecks)
      (engine.wallet walletId, ⟨spends.length, 0, 0, 0⟩)
    some (engine.setWallet walletId state, .ok outcome)

end Synchronisation

end DigWallet
