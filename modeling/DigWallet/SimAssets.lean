import DigWallet.Engine.Assets
import DigWallet.Sim

/-!
# DigWallet.SimAssets — the asset drivers of the executable SDK

A CAT's children are the coins its inner puzzle creates; the toy has no DIDs and no NFT children.
-/

namespace DigWallet.Sim

def childCat (parent : Coin) (asset : Bytes32) (create : CreateCoin) : ChildCat :=
  ⟨⟨coinId parent, catHash asset create.puzzleHash, create.amount⟩, asset, create.puzzleHash⟩

def catParseChildren (coin : Coin) (puzzle : Puzzle) (solution : Node) :
    Except String (Option (List ChildCat)) := do
  match ← catParse coin puzzle solution with
  | none => .ok none
  | some cat => do
    let conditions ← conditionsFromClvm (← run cat.p2Solution cat.p2Puzzle.ptr)
    .ok (some ((conditions.filterMap Condition.asCreateCoin).map (childCat coin cat.assetId)))

def nftParseChild (coin : Coin) (puzzle : Puzzle) (solution : Node) :
    Except String (Option ChildNft) := do
  match ← nftParse coin puzzle solution with
  | none => .ok none
  | some _ => .error "no NFT children"

def drivers : AssetDrivers where
  runProgram puzzle solution := run solution puzzle
  nftParseChild := nftParseChild
  nftDataUris _ := none
  hydrateDid _ _ _ _ := .error .notDid
  catParseChildren := catParseChildren

/-- A CAT of the wallet spent to its own puzzle hash, in coins of the amounts. -/
def catSplitHome (parent asset : Bytes32) (amount : UInt8) (amounts : List UInt8) : CoinSpend :=
  spendOf parent (catPuzzle asset (standardPuzzle walletKey)) (UInt64.ofNat amount.toNat)
    (list [signing (amounts.map (createCoin home))])

def catToHome (parent asset : Bytes32) (amount : UInt8) : CoinSpend :=
  catSplitHome parent asset amount [amount]

end DigWallet.Sim
