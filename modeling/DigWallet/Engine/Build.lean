import DigWallet.Engine.Records
import DigWallet.Engine.Selection
import DigWallet.Lib.Faults

/-!
# DigWallet.Engine.Build — unsigned XCH and CAT sends

`engine::build` over the spend drivers of the SDK and the provider of the wallet's public inputs.  A
`SpendContext` is the list of coin spends inserted so far.
-/

namespace DigWallet

open Faults Totals

/-! ## Drivers and inputs -/

structure LineageProof where
  parentParentCoinInfo : Bytes32
  parentInnerPuzzleHash : Bytes32
  parentAmount : UInt64
deriving DecidableEq

structure CatInfo where
  assetId : Bytes32
  hiddenPuzzleHash : Option Bytes32
  p2PuzzleHash : Bytes32
deriving DecidableEq

/-- `chia_wallet_sdk::driver::Cat`. -/
structure Cat where
  coin : Coin
  lineageProof : Option LineageProof
  info : CatInfo
deriving DecidableEq

/-- `chia_wallet_sdk::driver::Spend`. -/
structure Spend where
  puzzle : Node
  solution : Node
deriving DecidableEq

structure CatSpend where
  cat : Cat
  spend : Spend
deriving DecidableEq

/-- The constructors of the SDK and the constants of `dig_constants` the builders use.
`catPuzzleHash` is `CatInfo::puzzle_hash`. -/
structure SpendDrivers where
  hint : Bytes32 → Except String Node
  standardSpend : PublicKey → Coin → List Condition → Except String CoinSpend
  standardInner : PublicKey → List Condition → Except String Spend
  catSpendAll : List CatSpend → Except String (List CoinSpend)
  catPuzzleHash : CatInfo → Bytes32
  chiaL1MainnetAggSigMe : Bytes32
  chiaL1Testnet11AggSigMe : Bytes32

/-- The public material a build reads. -/
structure SpendInputs where
  spendableXch : IdentityRef → WalletResult (List Coin)
  spendableCat : IdentityRef → AssetId → WalletResult (List Cat)
  syntheticKey : Bytes32 → Option PublicKey
  changePuzzleHash : IdentityRef → WalletResult Bytes32

structure SdkSpendBuilder where
  inputs : SpendInputs
  network : Network
  coinCap : ℕ

structure SendXchRequest where
  identity : IdentityRef
  toAddress : Address
  amount : Amount
  fee : Amount

structure SendCatRequest where
  identity : IdentityRef
  assetId : AssetId
  toAddress : Address
  amount : Amount
  fee : Amount

/-! ## Checks -/

def invalidInput (message : String) : WalletError := ⟨.invalidInput, message⟩

def insufficientFunds (message : String) : WalletError := ⟨.insufficientFunds, message⟩

def spendFailed (message : String) : WalletError := ⟨.spendValidationFailed, message⟩

/-- `map_err(|e| spend_failed(…))`. -/
def orSpendFailed {α : Type} (what : String) : Except String α → WalletResult α
  | .ok a => .ok a
  | .error e => .error (spendFailed (what ++ e))

@[simp] theorem orSpendFailed_eq_ok {α : Type} {what : String} {r : Except String α} {a : α} :
    orSpendFailed what r = .ok a ↔ r = .ok a := by
  cases r <;> simp [orSpendFailed]

def checkedTarget (amount fee : UInt64) : WalletResult UInt64 :=
  match checkedAdd amount fee with
  | none => .error (invalidInput "amount + fee overflows")
  | some target =>
    if target = 0 then .error (invalidInput "a spend must move a non-zero amount") else .ok target

def assertConserved (inputs outputs fee : UInt64) : WalletResult Unit :=
  match checkedAdd outputs fee with
  | none => .error (spendFailed "output + fee overflow")
  | some out =>
    if inputs ≠ out then
      .error (spendFailed s!"value not conserved: inputs {inputs} != outputs+fee {out}")
    else .ok ()

def ensureSignedOffline (coinSpends : List CoinSpend) (required : List RequiredSignature) :
    WalletResult Unit :=
  if coinSpends.isEmpty then .error (spendFailed "spend produced no coin spends")
  else if required.isEmpty then .error (spendFailed "spend requires no signatures")
  else .ok ()

/-- The change coin, when there is any change. -/
def changeCondition (changePh : Bytes32) (changeAmount : UInt64) : List Condition :=
  if 0 < changeAmount then [.createCoin ⟨changePh, changeAmount, none⟩] else []

/-- The fee, when there is one. -/
def feeCondition (fee : UInt64) : List Condition := if 0 < fee then [.reserveFee fee] else []

section Builder

variable (sdk : Sdk) (drivers : SpendDrivers) (overflowChecks : Bool)

def selectOrFail (coins : List Coin) (target : UInt64) (cap : ℕ) (asset : String) :
    Call WalletError (List Coin) := do
  match ← orPanic (selectForSpend sdk overflowChecks coins target cap) with
  | .selected coins _ _ => .ok coins
  | .needsConsolidation _ availableTotal required cap =>
    .error (.refused (insufficientFunds (s!"{asset} needs consolidation: {availableTotal} " ++
      s!"available across too many coins to reach {required} within the {cap}-coin cap")))
  | .insufficientFunds availableTotal required =>
    .error (.refused (insufficientFunds
      s!"insufficient {asset}: have {availableTotal}, need {required}"))

def decodeAddress (address : Address) : WalletResult Bytes32 :=
  match sdk.decodeAddress address.text with
  | .ok decoded => .ok decoded
  | .error e => .error (invalidInput ("bad address " ++ address.text ++ ": " ++ e))

/-- `create_coin` with the memo hint of its puzzle hash. -/
def hintedCreateCoin (puzzleHash : Bytes32) (amount : UInt64) : WalletResult Condition := do
  let hint ← orSpendFailed "hint: " (drivers.hint puzzleHash)
  .ok (.createCoin ⟨puzzleHash, amount, some hint⟩)

namespace SdkSpendBuilder

variable (builder : SdkSpendBuilder)

def aggSigConstants : Bytes32 :=
  match builder.network with
  | .mainnet => drivers.chiaL1MainnetAggSigMe
  | .testnet | .simulator => drivers.chiaL1Testnet11AggSigMe

def keyFor (coin : Coin) : WalletResult PublicKey :=
  match builder.inputs.syntheticKey coin.puzzleHash with
  | some key => .ok key
  | none => .error (spendFailed "no public key for an input coin's puzzle hash")

def spendStandard (ctx : List CoinSpend) (coin : Coin) (conditions : List Condition) :
    WalletResult (List CoinSpend) := do
  let key ← builder.keyFor coin
  let spend ← orSpendFailed "standard spend: " (drivers.standardSpend key coin conditions)
  .ok (ctx ++ [spend])

def linkSupportingCoins (ctx : List CoinSpend) (coins : List Coin) :
    WalletResult (List CoinSpend) :=
  match coins with
  | [] => .ok ctx
  | lead :: supporting => supporting.foldlM
      (fun ctx coin =>
        builder.spendStandard drivers ctx coin [.assertConcurrentSpend (sdk.coinId lead)]) ctx

def requiredSignature : SdkRequiredSignature → WalletResult RequiredSignature
  | .bls publicKey message _ => .ok ⟨publicKey, message⟩
  | .secp => .error (spendFailed "unexpected secp signature in a wallet spend")

def requiredSignatures (coinSpends : List CoinSpend) : WalletResult (List RequiredSignature) := do
  let extracted ← orSpendFailed "required-signature extraction: "
    (sdk.fromCoinSpends coinSpends (builder.aggSigConstants drivers))
  extracted.mapM requiredSignature

/-- The end of every build: the signatures it requires, and that it requires some. -/
def finish (coinSpends : List CoinSpend) (summary : TransactionSummary) :
    WalletResult UnsignedSpend := do
  let required ← builder.requiredSignatures sdk drivers coinSpends
  ensureSignedOffline coinSpends required
  .ok ⟨coinSpends, required, summary⟩

/-! ## The builders -/

def buildSendXch (request : SendXchRequest) : Call WalletError UnsignedSpend := do
  let amount := request.amount.mojos
  let fee := request.fee.mojos
  let target ← ofResult (checkedTarget amount fee)
  let destination ← ofResult (decodeAddress sdk request.toAddress)
  let changePh ← ofResult (builder.inputs.changePuzzleHash request.identity)
  let coins ← ofResult (builder.inputs.spendableXch request.identity)
  let selected ← selectOrFail sdk overflowChecks coins target builder.coinCap "XCH"
  let total ← orPanic (sumU64 overflowChecks (coinAmounts selected))
  let changeAmount ← orPanic (subU64 overflowChecks total target)
  let paid ← ofResult (hintedCreateCoin drivers destination amount)
  let conditions := paid :: changeCondition changePh changeAmount ++ feeCondition fee
  let lead ← orPanic selected.head?
  let ctx ← ofResult (builder.spendStandard drivers [] lead conditions)
  let coinSpends ← ofResult (builder.linkSupportingCoins sdk drivers ctx selected)
  let outputs ← orPanic (addU64 overflowChecks amount changeAmount)
  ofResult (assertConserved total outputs fee)
  ofResult (builder.finish sdk drivers coinSpends
    { outputs := [⟨request.toAddress, ⟨amount⟩, none⟩], received := [], fee := ⟨fee⟩
      meltedSingletons := [], nftOperations := [] })

/-- The synthetic key of a CAT's inner puzzle hash. -/
def catKey (cat : Cat) : WalletResult PublicKey :=
  match builder.inputs.syntheticKey cat.info.p2PuzzleHash with
  | some key => .ok key
  | none => .error (spendFailed "no public key for a CAT coin's inner puzzle hash")

/-- One turn of the loop over the CATs; `conditions` are built after the key is found. -/
def catInnerSpend (cat : Cat) (conditions : WalletResult (List Condition)) :
    WalletResult CatSpend := do
  let key ← builder.catKey cat
  let conditions ← conditions
  let inner ← orSpendFailed "cat inner spend: " (drivers.standardInner key conditions)
  .ok ⟨cat, inner⟩

/-- The lead CAT carries `conditions`, the others none. -/
def catRing (cats : List Cat) (conditions : WalletResult (List Condition)) :
    WalletResult (List CatSpend) :=
  match cats with
  | [] => .ok []
  | lead :: rest => do
    let leadSpend ← builder.catInnerSpend drivers lead conditions
    let restSpends ← rest.mapM fun cat => builder.catInnerSpend drivers cat (.ok [])
    .ok (leadSpend :: restSpends)

def buildCatInnerSpends (cats : List Cat) (destination : Bytes32) (sendAmount : UInt64)
    (changePh : Bytes32) (catChange : UInt64) : WalletResult (List CatSpend) :=
  builder.catRing drivers cats do
    let paid ← hintedCreateCoin drivers destination sendAmount
    .ok (paid :: changeCondition changePh catChange)

def addXchFee (ctx : List CoinSpend) (identity : IdentityRef) (fee : UInt64) (changePh : Bytes32)
    (catLeadId : Bytes32) : Call WalletError (List CoinSpend) := do
  let xch ← ofResult (builder.inputs.spendableXch identity)
  let selected ← selectOrFail sdk overflowChecks xch fee builder.coinCap "XCH (fee)"
  let total ← orPanic (sumU64 overflowChecks (coinAmounts selected))
  let changeAmount ← orPanic (subU64 overflowChecks total fee)
  let conditions := .reserveFee fee :: .assertConcurrentSpend catLeadId ::
    changeCondition changePh changeAmount
  let lead ← orPanic selected.head?
  let ctx ← ofResult (builder.spendStandard drivers ctx lead conditions)
  ofResult (builder.linkSupportingCoins sdk drivers ctx selected)

/-- The fee of a CAT spend, when there is one. -/
def addCatFee (ctx : List CoinSpend) (identity : IdentityRef) (fee : UInt64) (changePh : Bytes32)
    (cats : List Cat) : Call WalletError (List CoinSpend) :=
  if 0 < fee then do
    let lead ← orPanic cats.head?
    builder.addXchFee sdk drivers overflowChecks ctx identity fee changePh (sdk.coinId lead.coin)
  else .ok ctx

def buildSendCat (request : SendCatRequest) : Call WalletError UnsignedSpend := do
  let sendAmount := request.amount.mojos
  let fee := request.fee.mojos
  refuseIf (sendAmount = 0) (invalidInput "a CAT send must move a non-zero amount")
  let destination ← ofResult (decodeAddress sdk request.toAddress)
  let changePh ← ofResult (builder.inputs.changePuzzleHash request.identity)
  let cats ← ofResult (builder.inputs.spendableCat request.identity request.assetId)
  refuseIf (cats = []) (insufficientFunds ("no spendable " ++ request.assetId.text ++ " coins"))
  let catTotal ← orPanic (sumU64 overflowChecks (coinAmounts (cats.map Cat.coin)))
  refuseIf (catTotal < sendAmount)
    (insufficientFunds s!"insufficient CAT: have {catTotal}, need {sendAmount}")
  let catChange ← orPanic (subU64 overflowChecks catTotal sendAmount)
  let catSpends ← ofResult
    (builder.buildCatInnerSpends drivers cats destination sendAmount changePh catChange)
  let ctx ← ofResult (orSpendFailed "cat spend_all: " (drivers.catSpendAll catSpends))
  let coinSpends ← builder.addCatFee sdk drivers overflowChecks ctx request.identity fee changePh cats
  ofResult (builder.finish sdk drivers coinSpends
    { outputs := [⟨request.toAddress, ⟨sendAmount⟩, some request.assetId⟩], received := [], fee := ⟨fee⟩
      meltedSingletons := [], nftOperations := [] })

end SdkSpendBuilder

end Builder

end DigWallet
