import DigWallet.Lib.Results
import DigWallet.Types

/-!
# DigWallet.Sdk — the third-party code the wallet calls

`chia_protocol`, `clvmr`, `chia_wallet_sdk`, `chia_bls` and `chia_puzzle_types` are parameters: one
field for each function or constant the wallet uses, returning what the wallet reads of its result.
An SDK error is the text its `Debug` form prints.

The second half names the documented behaviour that single results rely on.  No definition of the
model uses it.
-/

namespace DigWallet

/-- `chia_wallet_sdk::driver::Puzzle`; `curriedModHash` is `as_curried().mod_hash`. -/
structure Puzzle where
  ptr : Node
  curriedModHash : Option Bytes32
deriving DecidableEq

/-- `ParsedCat`. -/
structure ParsedCat where
  assetId : Bytes32
  p2Puzzle : Puzzle
  p2Solution : Node

/-- `chia_puzzle_types::Proof`; the wallet reads only which of the two it is. -/
inductive Proof
  | eve
  | lineage
deriving DecidableEq

/-- What `Nft::parse` returns. -/
structure ParsedNft where
  launcherId : Bytes32
  proof : Proof
  p2Puzzle : Puzzle
  p2Solution : Node

/-- `StandardSolution`. -/
structure StandardSolution where
  originalPublicKey : Option PublicKey
  delegatedPuzzle : Node
  solution : Node

/-- `chia_wallet_sdk::signer::RequiredSignature`; `message` is the full message to be signed. -/
inductive SdkRequiredSignature
  | bls (publicKey : PublicKey) (message : Bytes) (domainString : Option Bytes32)
  | secp

structure SecretKey where
  bytes : Bytes

structure Signature where
  bytes : Bytes
deriving DecidableEq

structure Sdk where
  -- chia_protocol
  coinId : Coin → Bytes32
  -- clvmr, clvm_utils
  nodeFromBytes : Bytes → Except String Node
  smallNumber : Node → Option ℕ
  treeHash : Node → Bytes32
  -- chia_wallet_sdk::puzzles
  settlementPaymentHash : Bytes32
  singletonLauncherHash : Bytes32
  singletonTopLayerHash : Bytes32
  -- chia_wallet_sdk::driver
  parsePuzzle : Node → Puzzle
  catParse : Coin → Puzzle → Node → Except String (Option ParsedCat)
  optionContractParse : Coin → Puzzle → Node → Except String (Option (Puzzle × Node))
  p2OneOfManyParsePuzzle : Puzzle → Except String Bool
  nftParse : Coin → Puzzle → Node → Except String (Option ParsedNft)
  standardParsePuzzle : Puzzle → Except String (Option PublicKey)
  standardParseSolution : Node → Except String StandardSolution
  settlementParsePuzzle : Puzzle → Except String Bool
  -- chia_wallet_sdk::types
  runPuzzle : Node → Node → Except String Node
  conditionsFromClvm : Node → Except String (List Condition)
  announcementId : Bytes32 → Bytes → Bytes32
  -- chia_wallet_sdk::utils
  encodeAddress : Bytes32 → String → Except String String
  decodeAddress : String → Except String Bytes32
  -- chia_wallet_sdk::signer
  fromCoinSpends : List CoinSpend → Bytes32 → Except String (List SdkRequiredSignature)
  -- chia_bls, chia_puzzle_types
  fromSeed : Bytes → SecretKey
  deriveHardened : SecretKey → ℕ → SecretKey
  deriveUnhardened : SecretKey → ℕ → SecretKey
  masterToWalletUnhardened : SecretKey → ℕ → SecretKey
  deriveSynthetic : SecretKey → SecretKey
  publicKey : SecretKey → PublicKey
  standardCurryTreeHash : PublicKey → Bytes32
  blsSign : SecretKey → Bytes → Signature
  aggregate : List Signature → Signature

namespace Sdk

variable (sdk : Sdk)

/-- Evaluate a program and decode its conditions. -/
def conditionsOf (puzzle solution : Node) : Except String (List Condition) := do
  sdk.conditionsFromClvm (← sdk.runPuzzle puzzle solution)

variable {sdk} in
theorem conditionsOf_eq_ok {puzzle solution : Node} {conditions : List Condition} :
    sdk.conditionsOf puzzle solution = .ok conditions ↔
      ∃ output, sdk.runPuzzle puzzle solution = .ok output ∧
        sdk.conditionsFromClvm output = .ok conditions :=
  bind_eq_ok

/-- `puzzle` is `(q . body)` and `body` decodes to `conditions`. -/
def Quotes (puzzle : Node) (conditions : List Condition) : Prop :=
  ∃ op body, puzzle = .pair op body ∧ sdk.smallNumber op = some 1 ∧
    sdk.conditionsFromClvm body = .ok conditions

/-! ## Documented behaviour -/

/-- bech32m encoding succeeds on every hash under the two prefixes in use, and decoding inverts it. -/
structure AddressesRoundTrip : Prop where
  encodes : ∀ hash, ∀ hrp ∈ ["xch", "nft"], ∃ text, sdk.encodeAddress hash hrp = .ok text
  nonempty : ∀ {hash text}, sdk.encodeAddress hash "xch" = .ok text → text ≠ ""
  decodes : ∀ {hash text}, sdk.encodeAddress hash "xch" = .ok text →
    sdk.decodeAddress text = .ok hash

/-- bech32m text: under one prefix it determines the hash, it is never empty, and the data part has
no blank. -/
structure AddressText : Prop where
  injective : ∀ {hash hash' hrp text}, sdk.encodeAddress hash hrp = .ok text →
    sdk.encodeAddress hash' hrp = .ok text → hash = hash'
  nonempty : ∀ {hash hrp text}, sdk.encodeAddress hash hrp = .ok text → text ≠ ""
  unspaced : ∀ {hash hrp text}, ' ' ∉ hrp.toList → sdk.encodeAddress hash hrp = .ok text →
    ' ' ∉ text.toList

/-- A standard-layer run: the key's `AGG_SIG_ME` over the delegated puzzle, unless the solution
reveals the original key, then the run of the delegated puzzle. -/
structure StandardLayer : Prop where
  parsed : ∀ node, (sdk.parsePuzzle node).ptr = node
  quote : ∀ {op body solution}, sdk.smallNumber op = some 1 →
    sdk.runPuzzle (.pair op body) solution = .ok body
  run : ∀ {puzzle publicKey solution layer conditions},
    sdk.standardParsePuzzle puzzle = .ok (some publicKey) →
    sdk.standardParseSolution solution = .ok layer →
    sdk.conditionsOf puzzle.ptr solution = .ok conditions →
    ∃ rest, sdk.conditionsOf layer.delegatedPuzzle layer.solution = .ok rest ∧
      conditions = (if layer.originalPublicKey = none then
        [.aggSigMe ⟨publicKey, (sdk.treeHash layer.delegatedPuzzle).bytes⟩] else []) ++ rest

/-- Which layer a puzzle is, and the id curried into it, is read off the puzzle alone. -/
structure DriversReadPuzzle : Prop where
  cat : ∃ asset : Puzzle → Option Bytes32, ∀ {coin puzzle solution parsed},
    sdk.catParse coin puzzle solution = .ok parsed → parsed.map ParsedCat.assetId = asset puzzle
  option : ∃ isOption : Puzzle → Bool, ∀ {coin puzzle solution parsed},
    sdk.optionContractParse coin puzzle solution = .ok parsed → parsed.isSome = isOption puzzle
  nft : ∃ launcher : Puzzle → Option Bytes32, ∀ {coin puzzle solution parsed},
    sdk.nftParse coin puzzle solution = .ok parsed →
      parsed.map ParsedNft.launcherId = launcher puzzle

/-- A parsed puzzle is of one layer: the CAT and option drivers refuse an option underlying, the CAT
driver refuses options and singletons, an NFT is a singleton, a launcher is none. -/
structure LayersDisjoint : Prop where
  cat_of_underlying : ∀ {node coin solution cat},
    sdk.p2OneOfManyParsePuzzle (sdk.parsePuzzle node) = .ok true →
    sdk.catParse coin (sdk.parsePuzzle node) solution ≠ .ok (some cat)
  option_of_underlying : ∀ {node coin solution option},
    sdk.p2OneOfManyParsePuzzle (sdk.parsePuzzle node) = .ok true →
    sdk.optionContractParse coin (sdk.parsePuzzle node) solution ≠ .ok (some option)
  cat_of_option : ∀ {node coin solution option cat},
    sdk.optionContractParse coin (sdk.parsePuzzle node) solution = .ok (some option) →
    sdk.catParse coin (sdk.parsePuzzle node) solution ≠ .ok (some cat)
  cat_of_singleton : ∀ {node coin solution cat},
    (sdk.parsePuzzle node).curriedModHash = some sdk.singletonTopLayerHash →
    sdk.catParse coin (sdk.parsePuzzle node) solution ≠ .ok (some cat)
  singleton_of_nft : ∀ {node coin solution nft},
    sdk.nftParse coin (sdk.parsePuzzle node) solution = .ok (some nft) →
    (sdk.parsePuzzle node).curriedModHash = some sdk.singletonTopLayerHash
  launcher_of_singleton : ∀ {node},
    (sdk.parsePuzzle node).curriedModHash = some sdk.singletonTopLayerHash →
    sdk.treeHash node ≠ sdk.singletonLauncherHash

/-- `tree_hash` has no collision among `nodes`. -/
def CollisionFree (nodes : List Node) : Prop :=
  ∀ node ∈ nodes, ∀ node' ∈ nodes, sdk.treeHash node = sdk.treeHash node' → node = node'

instance (nodes : List Node) : Decidable (sdk.CollisionFree nodes) :=
  inferInstanceAs (Decidable (∀ node ∈ nodes, ∀ node' ∈ nodes,
    sdk.treeHash node = sdk.treeHash node' → node = node'))

variable {sdk} in
theorem CollisionFree.mono {nodes nodes' : List Node} (h : sdk.CollisionFree nodes')
    (hsub : nodes ⊆ nodes') : sdk.CollisionFree nodes :=
  fun node hnode node' hnode' => h node (hsub hnode) node' (hsub hnode')

end Sdk

end DigWallet
