import DigWallet.Verify.Conditions

/-!
# DigWallet.Verify.Ledger — the accounting arms of `client::verify`

`SpendLedger` is the accumulator `analyze` threads through the coin spends; each `account…`
function is the arm of the same name.
-/

namespace DigWallet

/-! ## Per-asset totals -/

/-- `BTreeMap<Bytes32, u64>`, in key order. -/
abbrev AssetTotals := List (Bytes32 × UInt64)

namespace AssetTotals

/-- `get(asset).copied().unwrap_or(0)`. -/
def get : AssetTotals → Bytes32 → UInt64
  | [], _ => 0
  | (key, total) :: totals, asset => if key = asset then total else get totals asset

def set : AssetTotals → Bytes32 → UInt64 → AssetTotals
  | [], asset, total => [(asset, total)]
  | (key, old) :: totals, asset, total =>
    if key = asset then (asset, total) :: totals
    else if asset.bytes < key.bytes then (asset, total) :: (key, old) :: totals
    else (key, old) :: set totals asset total

def keys (totals : AssetTotals) : List Bytes32 := totals.map Prod.fst

/-- `entry(asset).or_default()`, then a checked addition. -/
def accumulate (totals : AssetTotals) (asset : Bytes32) (amount : UInt64) (what : String) :
    WalletResult AssetTotals := do
  .ok (totals.set asset (← DigWallet.accumulate (totals.get asset) amount what))

end AssetTotals

section Arms

variable (sdk : Sdk)

def isProtocolSinkHash (puzzleHash : Bytes32) : Bool :=
  puzzleHash = sdk.settlementPaymentHash || puzzleHash = sdk.singletonLauncherHash

/-! ## The ledger -/

/-- The offer-binding facts of one wallet-signed coin. -/
structure CoinBinding where
  coinId : Bytes32
  puzzleHash : Bytes32
  createsSink : Bool
  carriesAnnouncement : Bool
  requiresCoinIds : List Bytes32
  requiresPuzzleHashes : List Bytes32
deriving DecidableEq

/-- `spentCoinIds`, `launcherCoinIds` and `signedAnnouncementAssertions` are sets: only membership
is read. -/
structure SpendLedger where
  outputs : List DecodedOutput := []
  protocolSink : List DecodedOutput := []
  fee : UInt64 := 0
  melted : UInt64 := 0
  meltedSingletons : List Bytes32 := []
  xchIn : UInt64 := 0
  xchOut : UInt64 := 0
  catIn : AssetTotals := []
  catOut : AssetTotals := []
  nftOperations : List NftOperation := []
  spentCoinIds : List Bytes32 := []
  launcherCoinIds : List Bytes32 := []
  launcherParents : List Bytes32 := []
  eveParents : List Bytes32 := []
  launcherAnnouncements : List (Bytes32 × List Bytes32) := []
  signedAnnouncementAssertions : List Bytes32 := []
  bindings : List CoinBinding := []

def SpendLedger.new : SpendLedger := {}

def routeOutput (ledger : SpendLedger) (output : DecodedOutput) : SpendLedger :=
  if isProtocolSinkHash sdk output.puzzleHash then
    { ledger with protocolSink := ledger.protocolSink ++ [output] }
  else { ledger with outputs := ledger.outputs ++ [output] }

/-- Count and route one XCH `CREATE_COIN`. -/
def routeXchCreate (ledger : SpendLedger) (create : CreateCoin) : WalletResult SpendLedger := do
  let xchOut ← accumulate ledger.xchOut create.amount "XCH output total"
  .ok (routeOutput sdk { ledger with xchOut } ⟨create.puzzleHash, create.amount, none⟩)

/-- Count and route one CAT `CREATE_COIN`. -/
def routeCatCreate (asset : Bytes32) (ledger : SpendLedger) (create : CreateCoin) :
    WalletResult SpendLedger := do
  let catOut ← ledger.catOut.accumulate asset create.amount "CAT output total"
  .ok (routeOutput sdk { ledger with catOut } ⟨create.puzzleHash, create.amount, some asset⟩)

/-- Count the spent coin as XCH entering the spend. -/
def enterXch (ledger : SpendLedger) (coin : Coin) : WalletResult SpendLedger := do
  let xchIn ← accumulate ledger.xchIn coin.amount "XCH input total"
  .ok { ledger with xchIn }

/-! ## Offer-binding facts -/

def hasOfferBindingAssertion (conditions : List Condition) : Bool :=
  conditions.any fun
    | .assertPuzzleAnnouncement _ | .assertCoinAnnouncement _ => true
    | _ => false

def coinBinding (coin : Coin) (conditions : List Condition) : CoinBinding where
  coinId := sdk.coinId coin
  puzzleHash := coin.puzzleHash
  createsSink := (conditions.filterMap Condition.asCreateCoin).any
    fun create => isProtocolSinkHash sdk create.puzzleHash
  carriesAnnouncement := hasOfferBindingAssertion conditions
  requiresCoinIds := conditions.filterMap fun
    | .assertConcurrentSpend coinId => some coinId
    | _ => none
  requiresPuzzleHashes := conditions.filterMap fun
    | .assertConcurrentPuzzle puzzleHash => some puzzleHash
    | _ => none

/-! ## CAT arms -/

def accountCatSettlementClaim (ledger : SpendLedger) (asset : Bytes32) (innerPuzzle : Puzzle)
    (innerSolution : Node) : WalletResult SpendLedger := do
  let conditions ← runConditions sdk innerPuzzle.ptr innerSolution
  rejectAnyAggSig conditions
  (conditions.filterMap Condition.asCreateCoin).foldlM (routeCatCreate sdk asset) ledger

def catSendCondition (asset : Bytes32) (ledger : SpendLedger) (condition : Condition) :
    WalletResult SpendLedger := do
  rejectUnexpectedAggSig condition
  match condition.asCreateCoin with
  | some create => routeCatCreate sdk asset ledger create
  | none => .ok ledger

def accountCatSend (ledger : SpendLedger) (spend : CoinSpend) (asset : Bytes32)
    (innerPuzzle : Puzzle) (innerSolution : Node) : WalletResult SpendLedger := do
  let committedMessage ← committedDelegatedPuzzleMessage sdk innerSolution
  let conditions ← runConditions sdk innerPuzzle.ptr innerSolution
  enforceSoleAggSigMe conditions committedMessage
  let ledger := { ledger with bindings := ledger.bindings ++ [coinBinding sdk spend.coin conditions] }
  conditions.foldlM (catSendCondition sdk asset) ledger

def accountCatSpend (ledger : SpendLedger) (spend : CoinSpend) (cat : ParsedCat) :
    WalletResult SpendLedger := do
  let catIn ← ledger.catIn.accumulate cat.assetId spend.coin.amount "CAT input total"
  let ledger := { ledger with catIn }
  if ← orReject "malformed CAT settlement puzzle: " (sdk.settlementParsePuzzle cat.p2Puzzle) then
    accountCatSettlementClaim sdk ledger cat.assetId cat.p2Puzzle cat.p2Solution
  else
    match ← orReject "malformed CAT inner puzzle: " (sdk.standardParsePuzzle cat.p2Puzzle) with
    | none => .error (reject
        "CAT inner puzzle is neither a standard layer nor a settlement layer; refusing to sign")
    | some _ => accountCatSend sdk ledger spend cat.assetId cat.p2Puzzle cat.p2Solution

/-! ## Arms with exactly one output

An option transfer, an NFT transfer, a mint's eve spend and a launcher each admit one `CREATE_COIN`:
the loop carries the ledger and the number of `CREATE_COIN`s seen. -/

def optionTransferCondition (state : SpendLedger × ℕ) (condition : Condition) :
    WalletResult (SpendLedger × ℕ) := do
  rejectUnexpectedAggSig condition
  rejectNonTransferCondition condition
  match condition.asCreateCoin with
  | none => .ok state
  | some create =>
    require (state.2 + 1 ≤ 1) ("option transfer emits more than one CREATE_COIN (undisclosed " ++
      "extra egress); refusing to sign")
    require (!isProtocolSinkHash sdk create.puzzleHash) ("option transfer re-homes the singleton " ++
      "to a structural puzzle hash (unauthorized re-home); refusing to sign")
    .ok (← routeXchCreate sdk state.1 create, state.2 + 1)

def accountOptionTransfer (ledger : SpendLedger) (spend : CoinSpend) (innerPuzzle : Puzzle)
    (innerSolution : Node) : WalletResult SpendLedger := do
  match ← orReject "malformed option inner puzzle: " (sdk.standardParsePuzzle innerPuzzle) with
  | none => .error (reject
      "option singleton inner puzzle is not a standard layer; refusing to sign")
  | some _ =>
    let committedMessage ← committedDelegatedPuzzleMessage sdk innerSolution
    let conditions ← runConditions sdk innerPuzzle.ptr innerSolution
    enforceSoleAggSigMe conditions committedMessage
    let reHomes := (conditions.filterMap Condition.asCreateCoin).any fun create =>
      create.amount % 2 = 1
    require reHomes ("option singleton spend does not re-home (melt/exercise or clawback); only " ++
      "a re-homing TRANSFER is signable; refusing to sign")
    let ledger ← enterXch ledger spend.coin
    .ok (← conditions.foldlM (optionTransferCondition sdk) (ledger, 0)).1

/-- What the three singleton loops differ in: the checks on each condition, and the refusals of a
second output, of an even one and of none. -/
structure SoleOutputLoop where
  check : Condition → WalletResult Unit
  second : String
  even : String
  missing : String

def SoleOutputLoop.step (loop : SoleOutputLoop) (state : SpendLedger × ℕ) (condition : Condition) :
    WalletResult (SpendLedger × ℕ) := do
  loop.check condition
  match condition.asCreateCoin with
  | none => .ok state
  | some create =>
    require (state.2 + 1 ≤ 1) loop.second
    require (create.amount % 2 ≠ 0) loop.even
    .ok (← routeXchCreate sdk state.1 create, state.2 + 1)

def SoleOutputLoop.run (loop : SoleOutputLoop) (ledger : SpendLedger)
    (conditions : List Condition) : WalletResult SpendLedger := do
  let (ledger, count) ← conditions.foldlM (loop.step sdk) (ledger, 0)
  require (count = 1) loop.missing
  .ok ledger

def nftTransferLoop : SoleOutputLoop where
  check condition := do
    rejectUnexpectedAggSig condition
    rejectNonRehomeCondition condition .nft
  second := "NFT transfer emits more than one CREATE_COIN (undisclosed extra egress); " ++
    "refusing to sign"
  even := "NFT transfer's CREATE_COIN is not the odd-amount singleton re-home; refusing to sign"
  missing := "NFT transfer does not re-home the singleton (a melt, a settlement lock, or an " ++
    "owner assignment); only a TRANSFER is signable; refusing to sign"

def nftEveMintLoop : SoleOutputLoop where
  check condition := rejectNonRehomeCondition condition .nftEve
  second := "an NFT mint's eve spend emits more than one CREATE_COIN (undisclosed extra egress); " ++
    "refusing to sign"
  even := "an NFT mint's eve spend does not settle the singleton to an odd amount; " ++
    "refusing to sign"
  missing := "an NFT mint's eve spend does not settle the new NFT; refusing to sign"

def singletonLaunchLoop : SoleOutputLoop where
  check condition := rejectNonRehomeCondition condition .launcher
  second := "a singleton launcher spend emits more than one CREATE_COIN; refusing to sign"
  even := "a singleton launcher spend does not launch an odd-amount singleton; refusing to sign"
  missing := "a singleton launcher spend does not launch a singleton; refusing to sign"

/-! ## NFT arms -/

/-- One step of `innerRehomeDestination`. -/
def innerRehomeStep (what : String) (destination : Option Bytes32) (create : CreateCoin) :
    WalletResult (Option Bytes32) := do
  require destination.isNone (what ++ "'s inner puzzle emits more than one CREATE_COIN " ++
    "(undisclosed extra egress); refusing to sign")
  require (create.amount % 2 ≠ 0) (what ++ "'s inner CREATE_COIN is not the odd-amount singleton " ++
    "output; refusing to sign")
  require (!isProtocolSinkHash sdk create.puzzleHash) (what ++ " sends the singleton to a " ++
    "structural puzzle hash (unauthorized destination); refusing to sign")
  .ok (some create.puzzleHash)

def innerRehomeDestination (inner : QuotedConditions sdk) (what : String) :
    WalletResult Bytes32 := do
  let creates := inner.conditions.filterMap Condition.asCreateCoin
  match ← creates.foldlM (innerRehomeStep sdk what) none with
  | some destination => .ok destination
  | none => .error (reject (what ++ "'s inner puzzle emits no CREATE_COIN, so nothing hands the " ++
      "singleton to an owner; refusing to sign"))

def accountNftTransfer (ledger : SpendLedger) (spend : CoinSpend) (nft : ParsedNft)
    (puzzlePtr solutionPtr : Node) : WalletResult SpendLedger := do
  match ← orReject "malformed NFT inner puzzle: " (sdk.standardParsePuzzle nft.p2Puzzle) with
  | none => .error (reject "NFT inner puzzle is not a standard layer; refusing to sign")
  | some _ =>
    let committed ← committedStandardSpend sdk nft.p2Solution
    committed.conditions.conditions.forM fun condition => do
      rejectUnexpectedAggSig condition
      rejectNonRehomeCondition condition .nftSigned
    let destination ← innerRehomeDestination sdk committed.conditions "an NFT transfer"
    let conditions ← runConditions sdk puzzlePtr solutionPtr
    enforceSoleAggSigMe conditions committed.message
    let ledger ← enterXch ledger spend.coin
    let ledger ← nftTransferLoop.run sdk ledger conditions
    .ok { ledger with
      nftOperations := ledger.nftOperations ++ [.transfer nft.launcherId destination] }

def accountNftEveMint (ledger : SpendLedger) (spend : CoinSpend) (nft : ParsedNft)
    (puzzlePtr solutionPtr : Node) : WalletResult SpendLedger := do
  let inner ← QuotedConditions.prove sdk nft.p2Puzzle.ptr "an NFT mint's eve inner puzzle"
  rejectAnyAggSigIn inner.conditions "an NFT mint's eve spend"
  inner.conditions.forM fun condition => rejectNonRehomeCondition condition .nftEve
  let owner ← innerRehomeDestination sdk inner "an NFT mint"
  let conditions ← runConditions sdk puzzlePtr solutionPtr
  rejectAnyAggSigIn conditions "an NFT mint's eve spend"
  let ledger ← enterXch ledger spend.coin
  let ledger ← nftEveMintLoop.run sdk ledger conditions
  .ok { ledger with
    eveParents := ledger.eveParents ++ [spend.coin.parentCoinInfo]
    nftOperations := ledger.nftOperations ++ [.mint nft.launcherId owner] }

def accountNftSpend (ledger : SpendLedger) (spend : CoinSpend) (nft : ParsedNft)
    (puzzlePtr solutionPtr : Node) : WalletResult SpendLedger :=
  match nft.proof with
  | .eve => accountNftEveMint sdk ledger spend nft puzzlePtr solutionPtr
  | .lineage => accountNftTransfer sdk ledger spend nft puzzlePtr solutionPtr

def accountSingletonLaunch (ledger : SpendLedger) (spend : CoinSpend)
    (puzzlePtr solutionPtr : Node) : WalletResult SpendLedger := do
  let conditions ← runConditions sdk puzzlePtr solutionPtr
  rejectAnyAggSigIn conditions "a singleton launcher spend"
  let announced := (conditions.filterMap Condition.asCreateCoinAnnouncement).map
    (sdk.announcementId (sdk.coinId spend.coin))
  let ledger := { ledger with
    launcherAnnouncements := ledger.launcherAnnouncements ++ [(sdk.coinId spend.coin, announced)] }
  let ledger ← enterXch ledger spend.coin
  let ledger ← singletonLaunchLoop.run sdk ledger conditions
  .ok { ledger with
    launcherCoinIds := ledger.launcherCoinIds ++ [sdk.coinId spend.coin]
    launcherParents := ledger.launcherParents ++ [spend.coin.parentCoinInfo] }

/-! ## The melt arm -/

def isSingletonPuzzle (puzzle : Puzzle) : Bool :=
  puzzle.curriedModHash = some sdk.singletonTopLayerHash

def accountSingletonMelt (ledger : SpendLedger) (spend : CoinSpend)
    (puzzlePtr solutionPtr : Node) : WalletResult SpendLedger := do
  let conditions ← runConditions sdk puzzlePtr solutionPtr
  conditions.forM fun condition => do
    rejectUnexpectedAggSig condition
    rejectNonMeltCondition condition .presented
  let committedMessage ← soleAggSigMeMessage conditions
  let committed ← committedMeltConditions sdk solutionPtr committedMessage
  committed.conditions.forM fun condition => do
    rejectUnexpectedAggSig condition
    rejectNonMeltCondition condition .signed
  let meltMarkers := committed.conditions.countP (· = .meltSingleton)
  require (meltMarkers = 1) (s!"the signed delegated puzzle carries {meltMarkers} " ++
    "MELT_SINGLETON conditions, not exactly one, so this signature does not authorize a terminal " ++
    "singleton spend; only a melt is signable (an update or transfer re-homes the singleton, " ++
    "which is a change of ownership no melt confirmation covers); refusing to sign")
  let ledger ← enterXch ledger spend.coin
  let melted ← accumulate ledger.melted spend.coin.amount "melted total"
  .ok { ledger with
    melted
    meltedSingletons := ledger.meltedSingletons ++ [sdk.coinId spend.coin] }

/-! ## XCH arms -/

def standardSendCondition (ledger : SpendLedger) (condition : Condition) :
    WalletResult SpendLedger := do
  rejectUnexpectedAggSig condition
  let ledger := match condition.asAssertCoinAnnouncement with
    | some id => { ledger with
        signedAnnouncementAssertions := ledger.signedAnnouncementAssertions ++ [id] }
    | none => ledger
  match condition.asReserveFee with
  | some amount =>
    let fee ← accumulate ledger.fee amount "reserved fee total"
    .ok { ledger with fee }
  | none =>
    match condition.asCreateCoin with
    | some create => routeXchCreate sdk ledger create
    | none => .ok ledger

def accountStandardSend (ledger : SpendLedger) (spend : CoinSpend)
    (puzzlePtr solutionPtr : Node) : WalletResult SpendLedger := do
  let committedMessage ← committedDelegatedPuzzleMessage sdk solutionPtr
  let ledger ← enterXch ledger spend.coin
  let conditions ← runConditions sdk puzzlePtr solutionPtr
  enforceSoleAggSigMe conditions committedMessage
  let ledger := { ledger with bindings := ledger.bindings ++ [coinBinding sdk spend.coin conditions] }
  conditions.foldlM (standardSendCondition sdk) ledger

def accountSettlementClaim (ledger : SpendLedger) (spend : CoinSpend)
    (puzzlePtr solutionPtr : Node) : WalletResult SpendLedger := do
  let ledger ← enterXch ledger spend.coin
  let conditions ← runConditions sdk puzzlePtr solutionPtr
  rejectAnyAggSig conditions
  (conditions.filterMap Condition.asCreateCoin).foldlM (routeXchCreate sdk) ledger

/-! ## Dispatch -/

def accountCoin (ledger : SpendLedger) (spend : CoinSpend) : WalletResult SpendLedger := do
  let puzzlePtr ← orReject "undecodable puzzle reveal: " (sdk.nodeFromBytes spend.puzzleReveal)
  let solutionPtr ← orReject "undecodable solution: " (sdk.nodeFromBytes spend.solution)
  let revealedHash := sdk.treeHash puzzlePtr
  require (revealedHash = spend.coin.puzzleHash)
    ("puzzle reveal hashes to " ++ hexEncode revealedHash.bytes ++ " but the coin commits to " ++
      hexEncode spend.coin.puzzleHash.bytes ++ " (substituted puzzle)")
  let puzzle := sdk.parsePuzzle puzzlePtr
  match ← orReject "malformed CAT spend: " (sdk.catParse spend.coin puzzle solutionPtr) with
  | some parsed => accountCatSpend sdk ledger spend parsed
  | none =>
  match ← orReject "malformed option singleton spend: "
      (sdk.optionContractParse spend.coin puzzle solutionPtr) with
  | some (innerPuzzle, innerSolution) =>
    accountOptionTransfer sdk ledger spend innerPuzzle innerSolution
  | none =>
  if ← orReject "malformed option underlying spend: " (sdk.p2OneOfManyParsePuzzle puzzle) then
    .error (reject ("option exercise is not signable: the unlocked underlying's reclaim to the " ++
      "holder is not consensus-forced, so a compromised engine could strip it after the wallet " ++
      "funds the strike (deferred to #2245); refusing to sign"))
  else if spend.coin.puzzleHash = sdk.singletonLauncherHash then
    accountSingletonLaunch sdk ledger spend puzzlePtr solutionPtr
  else
  match ← orReject "malformed NFT spend: " (sdk.nftParse spend.coin puzzle solutionPtr) with
  | some nft => accountNftSpend sdk ledger spend nft puzzlePtr solutionPtr
  | none =>
  if isSingletonPuzzle sdk puzzle then
    accountSingletonMelt sdk ledger spend puzzlePtr solutionPtr
  else
  match ← orReject "malformed standard spend: " (sdk.standardParsePuzzle puzzle) with
  | some _ => accountStandardSend sdk ledger spend puzzlePtr solutionPtr
  | none =>
  if ← orReject "malformed settlement spend: " (sdk.settlementParsePuzzle puzzle) then
    accountSettlementClaim sdk ledger spend puzzlePtr solutionPtr
  else .error (reject ("coin spend is not a standard-layer XCH, a CAT, an option, nor a " ++
    "settlement spend; refusing to sign"))

end Arms

end DigWallet
