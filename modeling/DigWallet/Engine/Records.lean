import DigWallet.Types

/-!
# DigWallet.Engine.Records — what the engine indexes

The record types of `types/value.rs` and `types/identity.rs`, and the wallet's sync status.
-/

namespace DigWallet

inductive Network
  | mainnet
  | testnet
  | simulator
deriving DecidableEq

/-- The BLS fingerprint that scopes all state. -/
structure WalletId where
  fingerprint : UInt32
deriving DecidableEq

structure IdentityRef where
  walletId : WalletId
  did : Option String
  profileIx : UInt32
deriving DecidableEq

/-- `IdentityRef::new`. -/
def IdentityRef.new (walletId : WalletId) : IdentityRef := ⟨walletId, none, 0⟩

structure Puzzlehash where
  text : String
deriving DecidableEq

structure CoinRecord where
  coinId : String
  puzzleHash : Puzzlehash
  amount : Amount
  createdHeight : Option UInt32
  spentHeight : Option UInt32
deriving DecidableEq

structure CatRecord where
  assetId : AssetId
  balance : Amount
  name : Option String
deriving DecidableEq

structure NftRecord where
  launcherId : String
  dataUri : Option String
deriving DecidableEq

structure DidRecord where
  launcherId : String
  name : Option String
deriving DecidableEq

structure Balance where
  confirmed : Amount
  spendable : Amount
deriving DecidableEq

structure TransactionRecord where
  txId : String
  confirmedHeight : Option UInt32
  summary : TransactionSummary
deriving DecidableEq

inductive SyncLifecycle
  | idle
  | syncing
  | synced
deriving DecidableEq

structure SyncStatus where
  state : SyncLifecycle
  peakHeight : UInt32
  targetHeight : UInt32
deriving DecidableEq

end DigWallet
