import DigWallet.Engine.Build

/-!
# DigWallet.Engine.Drivers — what the spend drivers emit

The documented behaviour of the SDK's constructors: a standard spend signs and runs to the given
conditions, a CAT spend wraps its inner spend, and the parsers give back what was emitted.  `wrap` is
the puzzle hash that the children of a CAT have, by the CAT and the inner hash they are created at.
-/

namespace DigWallet

variable (sdk : Sdk)

/-- The coin spend decodes and its puzzle accepts its solution, which for a CAT or a singleton takes a
valid lineage proof. -/
def Sdk.Runs (spend : CoinSpend) : Prop :=
  ∃ puzzle solution conditions, sdk.nodeFromBytes spend.puzzleReveal = .ok puzzle ∧
    sdk.nodeFromBytes spend.solution = .ok solution ∧
    sdk.conditionsOf puzzle solution = .ok conditions

/-- A standard-layer inner spend of `key` that runs to `conditions`. -/
structure EmitsInner (key : PublicKey) (conditions : List Condition) (inner : Spend) : Prop where
  hash : sdk.treeHash inner.puzzle = sdk.standardCurryTreeHash key
  ptr : (sdk.parsePuzzle inner.puzzle).ptr = inner.puzzle
  standard : sdk.standardParsePuzzle (sdk.parsePuzzle inner.puzzle) = .ok (some key)
  settlement : sdk.settlementParsePuzzle (sdk.parsePuzzle inner.puzzle) = .ok false
  signs : ∃ layer, sdk.standardParseSolution inner.solution = .ok layer ∧
    sdk.Quotes layer.delegatedPuzzle conditions ∧
    sdk.conditionsOf inner.puzzle inner.solution =
      .ok (.aggSigMe ⟨key, (sdk.treeHash layer.delegatedPuzzle).bytes⟩ :: conditions)

/-- The coin spend of `coin` by `inner`, which no layered driver takes for its own. -/
structure EmitsStandard (coin : Coin) (inner : Spend) (spend : CoinSpend) : Prop where
  coin_eq : spend.coin = coin
  reveal : sdk.nodeFromBytes spend.puzzleReveal = .ok inner.puzzle
  solution : sdk.nodeFromBytes spend.solution = .ok inner.solution
  cat : sdk.catParse coin (sdk.parsePuzzle inner.puzzle) inner.solution = .ok none
  option : sdk.optionContractParse coin (sdk.parsePuzzle inner.puzzle) inner.solution = .ok none
  underlying : sdk.p2OneOfManyParsePuzzle (sdk.parsePuzzle inner.puzzle) = .ok false
  nft : sdk.nftParse coin (sdk.parsePuzzle inner.puzzle) inner.solution = .ok none
  singleton : (sdk.parsePuzzle inner.puzzle).curriedModHash ≠ some sdk.singletonTopLayerHash

/-- The same coin at the hash its layer gives it. -/
def CreateCoin.rehashed (childHash : Bytes32 → Bytes32) (create : CreateCoin) : CreateCoin :=
  { create with puzzleHash := childHash create.puzzleHash }

/-- The coin spend of one CAT of a ring; if it runs, it creates what its inner spend does, wrapped. -/
structure EmitsCat (drivers : SpendDrivers) (wrap : CatInfo → Bytes32 → Bytes32)
    (catSpend : CatSpend) (spend : CoinSpend) : Prop where
  coin_eq : spend.coin = catSpend.cat.coin
  wraps : ∃ puzzle solution, sdk.nodeFromBytes spend.puzzleReveal = .ok puzzle ∧
    sdk.nodeFromBytes spend.solution = .ok solution ∧
    sdk.treeHash puzzle = drivers.catPuzzleHash
      { catSpend.cat.info with p2PuzzleHash := sdk.treeHash catSpend.spend.puzzle } ∧
    sdk.catParse spend.coin (sdk.parsePuzzle puzzle) solution =
      .ok (some ⟨catSpend.cat.info.assetId, sdk.parsePuzzle catSpend.spend.puzzle,
        catSpend.spend.solution⟩) ∧
    ∀ conditions outer,
      sdk.conditionsOf catSpend.spend.puzzle catSpend.spend.solution = .ok conditions →
      .runCatTail ∉ conditions → sdk.conditionsOf puzzle solution = .ok outer →
        outer.filterMap Condition.asCreateCoin =
          (conditions.filterMap Condition.asCreateCoin).map fun create =>
            { create with puzzleHash := wrap catSpend.cat.info create.puzzleHash }

/-- The drivers emit the standard and CAT spends of the given conditions and parse back what they
emit; the signatures of spends are extracted by running them. -/
structure SpendDrivers.Emit (drivers : SpendDrivers) (wrap : CatInfo → Bytes32 → Bytes32) :
    Prop where
  inner : ∀ {key conditions inner}, drivers.standardInner key conditions = .ok inner →
    EmitsInner sdk key conditions inner
  standard : ∀ {key coin conditions spend}, drivers.standardSpend key coin conditions = .ok spend →
    ∃ inner, drivers.standardInner key conditions = .ok inner ∧ EmitsStandard sdk coin inner spend
  cat : ∀ {ring spends}, drivers.catSpendAll ring = .ok spends →
    List.Forall₂ (EmitsCat sdk drivers wrap) ring spends
  extracts : ∀ {coinSpends genesis required}, sdk.fromCoinSpends coinSpends genesis = .ok required →
    ∀ spend ∈ coinSpends, sdk.Runs spend

end DigWallet
