import DigWallet.Engine.Build
import DigWallet.Hex
import DigWallet.Verify.Conditions
import Mathlib.Data.List.MinMax

/-!
# DigWallet.Engine.BuildOptions — unsigned covered options

`engine::build_options` over `dig_options`: mint, transfer and exercise.  The state of an option on
the chain is handed in by the client and never trusted.
-/

namespace DigWallet

open Faults Totals

/-! ## Requests -/

/-- `OptionStrike`; only XCH for now. -/
inductive OptionStrike
  | xch (amount : Amount)
deriving DecidableEq

def OptionLibs.strikeAmountMojos : OptionStrike → UInt64
  | .xch amount => amount.mojos

structure MintOptionRequest where
  identity : IdentityRef
  creatorPuzzleHash : Option Puzzlehash
  ownerPuzzleHash : Option Puzzlehash
  underlyingAmount : Amount
  strike : OptionStrike
  expirySeconds : UInt64
  fee : Amount

structure OptionHandle where
  launcherId : String
  creatorPuzzleHash : Puzzlehash
  ownerPuzzleHash : Puzzlehash
  underlyingAmount : Amount
  strike : OptionStrike
  expirySeconds : UInt64
  underlyingCoinId : String
  fundingCoinId : String
deriving DecidableEq

structure MintedOption where
  unsigned : UnsignedSpend
  handle : OptionHandle

structure WireCoin where
  parentCoinInfo : String
  puzzleHash : String
  amount : UInt64

/-- The parent spend of the option and its locked coin, as the client found them. -/
structure OptionOnChainState where
  optionParentCoin : WireCoin
  optionParentPuzzleReveal : String
  optionParentSolution : String
  underlyingCoin : WireCoin

structure TransferOptionRequest where
  identity : IdentityRef
  handle : OptionHandle
  onChain : OptionOnChainState
  toPuzzleHash : Puzzlehash
  fee : Amount

structure ExerciseOptionRequest where
  identity : IdentityRef
  handle : OptionHandle
  onChain : OptionOnChainState
  fee : Amount

/-! ## `dig_options` -/

/-- `dig_options::Error`; the others by what they display. -/
inductive OptionsError
  | invalidInput (message : String)
  | other (display : String)

structure OptionTerms where
  creatorPuzzleHash : Bytes32
  ownerPuzzleHash : Bytes32
  underlyingAmount : UInt64
  strikeType : OptionStrike
  expirySeconds : UInt64

structure RehydratedTerms where
  creatorPuzzleHash : Bytes32
  expirySeconds : UInt64
  strikeType : OptionStrike
deriving DecidableEq

/-- `OptionInfo`: what the singleton's puzzle commits to. -/
structure OptionInfo where
  launcherId : Bytes32
  underlyingCoinId : Bytes32
  underlyingDelegatedPuzzleHash : Bytes32
  p2PuzzleHash : Bytes32
deriving DecidableEq

structure OptionContract where
  coin : Coin
  info : OptionInfo
deriving DecidableEq

structure CreatedOption where
  option : OptionContract
  underlyingCoin : Coin
  terms : RehydratedTerms
deriving DecidableEq

/-- The functions of `dig_options`; `transfer` also returns what it left in the context. -/
structure OptionDrivers where
  display : OptionsError → String
  create : PublicKey → Coin → OptionTerms →
    Except OptionsError (List CoinSpend × Option CreatedOption)
  parseChild : Coin → Bytes → Bytes → Except OptionsError (Option OptionContract)
  rehydrate : OptionContract → RehydratedTerms → Coin → Except OptionsError CreatedOption
  transfer : PublicKey → CreatedOption → Bytes32 →
    Except OptionsError (List CoinSpend × List CoinSpend)
  exercise : PublicKey → CreatedOption → Coin → Except OptionsError (List CoinSpend)

/-! ## What `dig_options` documents -/

/-- An option with another owner. -/
def OptionInfo.ownedBy (info : OptionInfo) (owner : Bytes32) : OptionInfo :=
  { info with p2PuzzleHash := owner }

/-- The hashes an option is made of: of its singleton's puzzle, of the delegated puzzle that pays the
strike, and of the two paths of the underlying. -/
structure OptionHashes where
  puzzleHash : OptionInfo → Bytes32
  delegated : Bytes32 → RehydratedTerms → UInt64 → Bytes32
  path : Bytes32 → RehydratedTerms → Bytes32

namespace OptionHashes

variable (hashes : OptionHashes) (sdk : Sdk)

/-- The three commitments `rehydrate` re-derives. -/
structure Commits (info : OptionInfo) (terms : RehydratedTerms) (underlyingCoin : Coin) : Prop where
  coinId : sdk.coinId underlyingCoin = info.underlyingCoinId
  delegated : hashes.delegated info.launcherId terms underlyingCoin.amount =
    info.underlyingDelegatedPuzzleHash
  path : hashes.path info.launcherId terms = underlyingCoin.puzzleHash

/-- No two hashes of the two options collide. -/
structure Apart (created created' : CreatedOption) : Prop where
  option : hashes.puzzleHash created.option.info = hashes.puzzleHash created'.option.info →
    created.option.info = created'.option.info
  underlyingCoin : sdk.coinId created.underlyingCoin = sdk.coinId created'.underlyingCoin →
    created.underlyingCoin = created'.underlyingCoin
  terms : ∀ launcherId amount,
    hashes.delegated launcherId created.terms amount =
      hashes.delegated launcherId created'.terms amount →
    hashes.path launcherId created.terms = hashes.path launcherId created'.terms →
    created.terms = created'.terms

end OptionHashes

section Payouts

variable (sdk : Sdk)

/-- The spends spend `coin`, which creates one coin of `amount` at `puzzleHash` and no other. -/
def PaysOut (spends : List CoinSpend) (coin : Coin) (puzzleHash : Bytes32) (amount : UInt64) : Prop :=
  ∃ spend ∈ spends, spend.coin = coin ∧ ∃ puzzle solution conditions create,
    sdk.nodeFromBytes spend.puzzleReveal = .ok puzzle ∧
    sdk.nodeFromBytes spend.solution = .ok solution ∧
    sdk.conditionsOf puzzle solution = .ok conditions ∧
    conditions.filterMap Condition.asCreateCoin = [create] ∧
    create.puzzleHash = puzzleHash ∧ create.amount = amount

/-- The whole of `coin`, or `amount` of it, goes to `puzzleHash` through a settlement coin that the
same spends claim. -/
structure SettlesTo (spends : List CoinSpend) (coin : Coin) (puzzleHash : Bytes32) (amount : UInt64) :
    Prop where
  offered : PaysOut sdk spends coin sdk.settlementPaymentHash amount
  claimed : PaysOut sdk spends ⟨sdk.coinId coin, sdk.settlementPaymentHash, amount⟩ puzzleHash amount

/-- An exercise spends the option, settles the underlying to its owner, and out of the funding coin
settles the strike to the creator. -/
structure Exercises (spends : List CoinSpend) (created : CreatedOption) (funding : Coin)
    (strike : UInt64) : Prop where
  option : ∃ spend ∈ spends, spend.coin = created.option.coin
  underlying : SettlesTo sdk spends created.underlyingCoin created.option.info.p2PuzzleHash
    created.underlyingCoin.amount
  strike : SettlesTo sdk spends funding created.terms.creatorPuzzleHash strike

end Payouts

/-- The documented behaviour of the drivers. -/
structure OptionDrivers.Keep (options : OptionDrivers) (drivers : SpendDrivers) (sdk : Sdk)
    (hashes : OptionHashes) : Prop where
  rehydrate : ∀ {option terms coin created}, options.rehydrate option terms coin = .ok created ↔
    hashes.Commits sdk option.info terms coin ∧ created = ⟨option, coin, terms⟩
  parseChild : ∀ {coin reveal solution option},
    options.parseChild coin reveal solution = .ok (some option) →
    option.coin.puzzleHash = hashes.puzzleHash option.info
  create : ∀ {key funding terms spends created},
    options.create key funding terms = .ok (spends, some created) →
    hashes.Commits sdk created.option.info
      ⟨terms.creatorPuzzleHash, terms.expirySeconds, terms.strikeType⟩ created.underlyingCoin ∧
    created.option.info.p2PuzzleHash = terms.ownerPuzzleHash ∧
    ∀ spend ∈ spends, ∀ option, options.parseChild spend.coin spend.puzzleReveal spend.solution =
      .ok (some option) → option = created.option
  /-- A transfer spends the singleton and re-homes it; it leaves nothing in the context. -/
  transfer : ∀ {key created owner spends ctx},
    options.transfer key created owner = .ok (spends, ctx) → ctx = [] ∧
    ∀ spend ∈ spends, spend.coin = created.option.coin ∧
      ∀ child, options.parseChild spend.coin spend.puzzleReveal spend.solution = .ok (some child) →
        child.info = created.option.info.ownedBy owner
  exercise : ∀ {key created funding spends},
    options.exercise key created funding = .ok spends →
    Exercises sdk spends created funding (OptionLibs.strikeAmountMojos created.terms.strikeType)
  /-- A standard spend creates no option. -/
  standard : ∀ {key coin conditions spend option},
    drivers.standardSpend key coin conditions = .ok spend →
    options.parseChild spend.coin spend.puzzleReveal spend.solution ≠ .ok (some option)

/-! ## The options surface -/

/-- The code it calls. -/
structure OptionLibs where
  sdk : Sdk
  drivers : SpendDrivers
  options : OptionDrivers
  hexDecode : String → Except String Bytes
  overflowChecks : Bool

namespace OptionLibs

variable (libs : OptionLibs)

/-! ## Decoding -/

def parseBytes32 (hexStr label : String) : WalletResult Bytes32 :=
  match libs.hexDecode hexStr with
  | .error e => .error (invalidInput ("bad " ++ label ++ " " ++ hexStr ++ ": " ++ e))
  | .ok bytes =>
    match Bytes32.ofBytes? bytes with
    | none => .error (invalidInput (label ++ " " ++ hexStr ++ " is not 32 bytes"))
    | some hash => .ok hash

def parsePuzzleHash (puzzleHash : Puzzlehash) : WalletResult Bytes32 :=
  libs.parseBytes32 puzzleHash.text "puzzle hash"

def decodeWireCoin (coin : WireCoin) : WalletResult Coin := do
  let parentCoinInfo ← libs.parseBytes32 coin.parentCoinInfo "coin parent id"
  let puzzleHash ← libs.parseBytes32 coin.puzzleHash "coin puzzle hash"
  .ok ⟨parentCoinInfo, puzzleHash, coin.amount⟩

def decodeProgram (hexStr label : String) : WalletResult Bytes :=
  match libs.hexDecode hexStr with
  | .ok bytes => .ok bytes
  | .error e => .error (invalidInput ("bad " ++ label ++ " hex: " ++ e))

def encodePuzzleHash (puzzleHash : Bytes32) : WalletResult Address := do
  let text ← orSpendFailed "encode address: " (libs.sdk.encodeAddress puzzleHash "xch")
  .ok ⟨text⟩

/-- `map_err(map_options_error)`. -/
def orOptionsError {α : Type} : Except OptionsError α → WalletResult α
  | .ok a => .ok a
  | .error (.invalidInput message) => .error (invalidInput message)
  | .error (.other display) => .error (spendFailed ("dig-options: " ++ display))

/-- `map_err(|e| spend_failed(format!("{what}{e}")))`. -/
def orFailed {α : Type} (what : String) : Except OptionsError α → WalletResult α
  | .ok a => .ok a
  | .error e => .error (spendFailed (what ++ libs.options.display e))

def orElseFailed {α : Type} (message : String) : Option α → WalletResult α
  | some a => .ok a
  | none => .error (spendFailed message)

/-! ## Funding -/

/-- `iter().filter(p and amount >= needed).min_by_key(amount)`. -/
def smallestCovering (coins : List Coin) (p : Coin → Bool) (needed : UInt64) : Option Coin :=
  (coins.filter fun coin => p coin && decide (needed ≤ coin.amount)).argmin fun coin =>
    coin.amount.toNat

variable (builder : SdkSpendBuilder)

def pickFundingCoin (identity : IdentityRef) (needed feeCeiling : UInt64) :
    Call WalletError Coin := do
  let coins ← ofResult (builder.inputs.spendableXch identity)
  match smallestCovering coins (fun _ => true) needed with
  | none => do
    let total ← orPanic (sumU64 libs.overflowChecks (coinAmounts coins))
    .error (.refused (insufficientFunds
      (s!"no single XCH coin covers the option underlying + singleton ({needed}); " ++
        s!"largest available across {coins.length} coins totals {total}")))
  | some coin => do
    refuseIf (feeCeiling < coin.amount) (insufficientFunds
      (s!"smallest funding coin ({coin.amount}) exceeds underlying + singleton + max fee " ++
        s!"({feeCeiling}); split a coin to that size first (mint has no change output)"))
    .ok coin

def pickStrikeCoin (identity : IdentityRef) (p2PuzzleHash : Bytes32)
    (strikeAmount feeCeiling : UInt64) : Call WalletError Coin := do
  let coins ← ofResult (builder.inputs.spendableXch identity)
  match smallestCovering coins (fun coin => coin.puzzleHash = p2PuzzleHash) strikeAmount with
  | none =>
    .error (.refused (insufficientFunds
      ("no spendable XCH coin at the option owner's puzzle hash covers the strike " ++
        s!"({strikeAmount})")))
  | some coin => do
    refuseIf (feeCeiling < coin.amount) (insufficientFunds
      (s!"smallest strike coin ({coin.amount}) exceeds strike + max fee ({feeCeiling}); split a " ++
        "coin to that size first (exercise has no change output)"))
    .ok coin

/-! ## The option on the chain -/

def rehydrateOption (handle : OptionHandle) (onChain : OptionOnChainState) :
    WalletResult (CreatedOption × PublicKey) := do
  let parentCoin ← libs.decodeWireCoin onChain.optionParentCoin
  let parentReveal ← libs.decodeProgram onChain.optionParentPuzzleReveal "puzzle reveal"
  let parentSolution ← libs.decodeProgram onChain.optionParentSolution "solution"
  let underlyingCoin ← libs.decodeWireCoin onChain.underlyingCoin
  let child ← libs.orFailed "parse option child from parent spend: "
    (libs.options.parseChild parentCoin parentReveal parentSolution)
  let parsed ← orElseFailed "on-chain parent did not create an option child" child
  let expectedLauncher ← libs.parseBytes32 handle.launcherId "launcher id"
  if parsed.info.launcherId ≠ expectedLauncher then
    .error (spendFailed "on-chain option launcher does not match the handle's launcher id")
  else do
    let creatorPuzzleHash ← libs.parsePuzzleHash handle.creatorPuzzleHash
    let created ← libs.orFailed "option rehydration rejected the on-chain projection: "
      (libs.options.rehydrate parsed ⟨creatorPuzzleHash, handle.expirySeconds, handle.strike⟩
        underlyingCoin)
    let holderKey ← orElseFailed "not the current option owner (no key for its puzzle hash)"
      (builder.inputs.syntheticKey parsed.info.p2PuzzleHash)
    .ok (created, holderKey)

/-! ## The builders -/

/-- A hash a request may leave to a default. -/
def partyOr (puzzleHash : Option Puzzlehash) (default : WalletResult Bytes32) :
    WalletResult Bytes32 :=
  match puzzleHash with
  | some puzzleHash => libs.parsePuzzleHash puzzleHash
  | none => default

/-- The signatures a bundle requires, and that it requires some. -/
def signaturesOf (coinSpends : List CoinSpend) : WalletResult (List RequiredSignature) := do
  let required ← builder.requiredSignatures libs.sdk libs.drivers coinSpends
  ensureSignedOffline coinSpends required
  .ok required

/-- One output and the fee. -/
def payingSummary (address : Address) (amount fee : UInt64) : TransactionSummary :=
  { outputs := [⟨address, ⟨amount⟩, none⟩]
    received := []
    fee := ⟨fee⟩
    meltedSingletons := []
    nftOperations := [] }

def buildMintOption (request : MintOptionRequest) : Call WalletError MintedOption := do
  let underlying := request.underlyingAmount.mojos
  refuseIf (underlying = 0) (invalidInput "an option underlying amount must be non-zero")
  let creatorPh ← ofResult (libs.partyOr request.creatorPuzzleHash
    (builder.inputs.changePuzzleHash request.identity))
  let ownerPh ← ofResult (libs.partyOr request.ownerPuzzleHash (.ok creatorPh))
  let needed ← ofResult (match checkedAdd underlying 1 with
    | some needed => .ok needed
    | none => .error (invalidInput "underlying amount overflows"))
  let feeCeiling ← ofResult (match checkedAdd needed request.fee.mojos with
    | some ceiling => .ok ceiling
    | none => .error (invalidInput "underlying + fee overflows"))
  let fundingCoin ← libs.pickFundingCoin builder request.identity needed feeCeiling
  let implicitFee ← orPanic (subU64 libs.overflowChecks fundingCoin.amount needed)
  let creatorKey ← ofResult (orElseFailed "no public key for the mint funding coin's puzzle hash"
    (builder.inputs.syntheticKey fundingCoin.puzzleHash))
  let (coinSpends, created) ← ofResult (orOptionsError (libs.options.create creatorKey fundingCoin
    ⟨creatorPh, ownerPh, underlying, request.strike, request.expirySeconds⟩))
  let created ← ofResult
    (orElseFailed "dig-options create did not return the created option" created)
  let required ← ofResult (libs.signaturesOf builder coinSpends)
  let address ← ofResult (libs.encodePuzzleHash ownerPh)
  .ok
    { unsigned := ⟨coinSpends, required, payingSummary address underlying implicitFee⟩
      handle :=
        { launcherId := hexEncode created.option.info.launcherId.bytes
          creatorPuzzleHash := ⟨hexEncode creatorPh.bytes⟩
          ownerPuzzleHash := ⟨hexEncode ownerPh.bytes⟩
          underlyingAmount := request.underlyingAmount
          strike := request.strike
          expirySeconds := request.expirySeconds
          underlyingCoinId := hexEncode (libs.sdk.coinId created.underlyingCoin).bytes
          fundingCoinId := hexEncode (libs.sdk.coinId fundingCoin).bytes } }

/-- The fee of a transfer, a leg of its own when there is one. -/
def addTransferFee (ctx : List CoinSpend) (identity : IdentityRef) (fee : UInt64)
    (singletonId : Bytes32) : Call WalletError (List CoinSpend) :=
  if 0 < fee then do
    let changePh ← ofResult (builder.inputs.changePuzzleHash identity)
    builder.addXchFee libs.sdk libs.drivers libs.overflowChecks ctx identity fee changePh singletonId
  else .ok []

def buildTransferOption (request : TransferOptionRequest) : Call WalletError UnsignedSpend := do
  let destination ← ofResult (libs.parsePuzzleHash request.toPuzzleHash)
  let (created, holderKey) ← ofResult (libs.rehydrateOption builder request.handle request.onChain)
  let (transferred, ctx) ← ofResult
    (orOptionsError (libs.options.transfer holderKey created destination))
  let fee := request.fee.mojos
  let feeSpends ← libs.addTransferFee builder ctx request.identity fee
    (libs.sdk.coinId created.option.coin)
  let coinSpends := transferred ++ feeSpends
  let required ← ofResult (libs.signaturesOf builder coinSpends)
  let address ← ofResult (libs.encodePuzzleHash destination)
  .ok ⟨coinSpends, required, payingSummary address created.option.coin.amount fee⟩

def buildExerciseOption (request : ExerciseOptionRequest) : Call WalletError UnsignedSpend := do
  let _ ← ofResult (libs.parsePuzzleHash request.handle.ownerPuzzleHash)
  let strikeAmount := strikeAmountMojos request.handle.strike
  let (created, holderKey) ← ofResult (libs.rehydrateOption builder request.handle request.onChain)
  let feeCeiling ← ofResult (match checkedAdd strikeAmount request.fee.mojos with
    | some ceiling => .ok ceiling
    | none => .error (invalidInput "strike + fee overflows"))
  let fundingCoin ← pickStrikeCoin builder request.identity created.option.info.p2PuzzleHash
    strikeAmount feeCeiling
  let implicitFee ← orPanic (subU64 libs.overflowChecks fundingCoin.amount strikeAmount)
  let coinSpends ← ofResult
    (orOptionsError (libs.options.exercise holderKey created fundingCoin))
  let required ← ofResult (libs.signaturesOf builder coinSpends)
  let creatorPh ← ofResult (libs.parsePuzzleHash request.handle.creatorPuzzleHash)
  let address ← ofResult (libs.encodePuzzleHash creatorPh)
  .ok ⟨coinSpends, required, payingSummary address strikeAmount implicitFee⟩

end OptionLibs

end DigWallet
