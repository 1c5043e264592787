import Mathlib.Algebra.GroupWithZero.Nat
import Mathlib.Data.List.Basic
import Mathlib.Order.Basic

/-!
# DigWallet.Types — the data that crosses the signing seam

The value types of `types/` and of `client::verify`: hashes, coins, coin spends, the conditions a
puzzle run decodes to, the re-derived effect of a spend and the summary a human reviews.  A CLVM
program is a `Node`; the arena of `clvmr` is not modelled, a `NodePtr` is the tree it points to.
-/

namespace DigWallet

abbrev Bytes := List UInt8

/-- `Bytes32`: a byte string that is 32 bytes long. -/
@[ext] structure Bytes32 where
  bytes : Bytes
  size : bytes.length = 32
deriving DecidableEq

/-- `Bytes32::new([b; 32])`. -/
def Bytes32.rep (b : UInt8) : Bytes32 := ⟨List.replicate 32 b, by simp⟩

/-- A CLVM value. -/
inductive Node
  | atom (bytes : Bytes)
  | pair (first rest : Node)
deriving DecidableEq

structure Coin where
  parentCoinInfo : Bytes32
  puzzleHash : Bytes32
  amount : UInt64
deriving DecidableEq

structure CoinSpend where
  coin : Coin
  puzzleReveal : Bytes
  solution : Bytes
deriving DecidableEq

structure PublicKey where
  bytes : Bytes
deriving DecidableEq

/-! ## Errors -/

/-- `WalletErrorCode`. -/
inductive WalletErrorCode
  | invalidInput
  | unknownIdentity
  | insufficientFunds
  | spendValidationFailed
  | signingFailed
  | transport
  | storage
  | subscriberLagged
  | notImplemented
deriving DecidableEq

structure WalletError where
  code : WalletErrorCode
  message : String
deriving DecidableEq

abbrev WalletResult (α : Type) := Except WalletError α

/-! ## Conditions

`chia_wallet_sdk::types::Condition`.  A variant carries the fields the wallet reads; anything the
decoder does not model is `other`. -/

structure CreateCoin where
  puzzleHash : Bytes32
  amount : UInt64
  memos : Option Node
deriving DecidableEq

structure AggSig where
  publicKey : PublicKey
  message : Bytes
deriving DecidableEq

inductive Condition
  | remark
  | aggSigParent (sig : AggSig)
  | aggSigPuzzle (sig : AggSig)
  | aggSigAmount (sig : AggSig)
  | aggSigPuzzleAmount (sig : AggSig)
  | aggSigParentAmount (sig : AggSig)
  | aggSigParentPuzzle (sig : AggSig)
  | aggSigUnsafe (sig : AggSig)
  | aggSigMe (sig : AggSig)
  | createCoin (create : CreateCoin)
  | reserveFee (amount : UInt64)
  | createCoinAnnouncement (message : Bytes)
  | createPuzzleAnnouncement (message : Bytes)
  | assertCoinAnnouncement (announcementId : Bytes32)
  | assertPuzzleAnnouncement (announcementId : Bytes32)
  | assertConcurrentSpend (coinId : Bytes32)
  | assertConcurrentPuzzle (puzzleHash : Bytes32)
  | sendMessage
  | receiveMessage
  | assertMyCoinId
  | assertMyParentId
  | assertMyPuzzleHash
  | assertMyAmount
  | assertMyBirthSeconds
  | assertMyBirthHeight
  | assertEphemeral
  | assertSecondsRelative
  | assertSecondsAbsolute
  | assertHeightRelative
  | assertHeightAbsolute
  | assertBeforeSecondsRelative
  | assertBeforeSecondsAbsolute
  | assertBeforeHeightRelative
  | assertBeforeHeightAbsolute
  | softfork
  | meltSingleton
  | transferNft
  | runCatTail
  | updateNftMetadata
  | updateDataStoreMerkleRoot
  | other
deriving DecidableEq

namespace Condition

def asCreateCoin : Condition → Option CreateCoin
  | .createCoin create => some create
  | _ => none

def asAggSigMe : Condition → Option AggSig
  | .aggSigMe sig => some sig
  | _ => none

def asReserveFee : Condition → Option UInt64
  | .reserveFee amount => some amount
  | _ => none

def asCreateCoinAnnouncement : Condition → Option Bytes
  | .createCoinAnnouncement message => some message
  | _ => none

def asAssertCoinAnnouncement : Condition → Option Bytes32
  | .assertCoinAnnouncement id => some id
  | _ => none

end Condition

/-! ## The re-derived effect of a spend -/

structure DecodedOutput where
  puzzleHash : Bytes32
  amount : UInt64
  assetId : Option Bytes32
deriving DecidableEq

/-- An NFT act named for review. -/
inductive NftOperation
  | transfer (launcherId destination : Bytes32)
  | mint (launcherId owner : Bytes32)
deriving DecidableEq

namespace NftOperation

def launcherId : NftOperation → Bytes32
  | transfer launcherId _ => launcherId
  | mint launcherId _ => launcherId

def owner : NftOperation → Bytes32
  | transfer _ destination => destination
  | mint _ owner => owner

end NftOperation

structure SpendEffect where
  outputs : List DecodedOutput
  protocolSink : List DecodedOutput
  fee : UInt64
  nftOperations : List NftOperation
  meltedSingletons : List Bytes32
deriving DecidableEq

/-! ## The reviewed summary -/

structure Address where
  text : String
deriving DecidableEq

structure Amount where
  mojos : UInt64
deriving DecidableEq

structure AssetId where
  text : String
deriving DecidableEq

structure SpendOutput where
  address : Address
  amount : Amount
  assetId : Option AssetId
deriving DecidableEq

/-- An empty address marks a settlement sink. -/
def SpendOutput.isProtocolSink (output : SpendOutput) : Bool := output.address.text.isEmpty

structure TransactionSummary where
  outputs : List SpendOutput
  received : List SpendOutput
  fee : Amount
  meltedSingletons : List String
  nftOperations : List String
deriving DecidableEq

structure RequiredSignature where
  publicKey : PublicKey
  message : Bytes
deriving DecidableEq

structure UnsignedSpend where
  coinSpends : List CoinSpend
  requiredSignatures : List RequiredSignature
  summary : TransactionSummary
deriving DecidableEq

end DigWallet
