import DigWallet.Engine.Build
import DigWallet.Verify.Conditions

/-!
# DigWallet.Engine.BuildTips — tips and the capped auto-tip

`engine::build_tips` over the `dig_tips` crate.  An auto-tip is decided before the inputs are resolved;
a tip spends CATs of one puzzle hash under its key.
-/

namespace DigWallet

open Faults Totals

/-! ## Requests -/

structure TipRequest where
  identity : IdentityRef
  assetId : AssetId
  recipient : Puzzlehash
  amount : Amount

inductive TipMode
  | auto
  | manual
deriving DecidableEq

structure AutoTipPolicy where
  enabled : Bool
  mode : TipMode
  assetId : AssetId
  recipient : Puzzlehash
  tipAmount : Amount
  threshold : Amount
  maxTipsPerDay : UInt32
  maxAmountPerDay : Amount
deriving DecidableEq

structure TipLedger where
  tipsToday : UInt32
  amountToday : Amount
deriving DecidableEq

structure AutoTipRequest where
  identity : IdentityRef
  policy : AutoTipPolicy
  primarySendAmount : Amount
  ledger : TipLedger

inductive CapReason
  | frequency
  | amount
deriving DecidableEq

inductive TipDecision
  | tip (amount : Amount)
  | skipDisabled
  | skipBelowThreshold
  | skipManualNotApproved
  | skipCapReached (reason : CapReason)
deriving DecidableEq

structure AutoTipOutcome where
  decision : TipDecision
  unsigned : Option UnsignedSpend
deriving DecidableEq

/-! ## `dig_tips` -/

namespace DigTips

structure TipRequest where
  cats : List Cat
  ownerPk : PublicKey
  assetId : Bytes32
  recipient : Bytes32
  amount : UInt64
  changeP2PuzzleHash : Bytes32

inductive TipMode
  | auto
  | manual
deriving DecidableEq

structure AutoTipPolicy where
  enabled : Bool
  mode : TipMode
  assetId : Bytes32
  recipient : Bytes32
  tipAmount : UInt64
  threshold : UInt64
  maxTipsPerDay : UInt32
  maxAmountPerDay : UInt64
deriving DecidableEq

structure LedgerSnapshot where
  tipsToday : UInt32
  amountToday : UInt64
deriving DecidableEq

inductive CapReason
  | frequencyCap
  | amountCap
deriving DecidableEq

inductive TipDecision
  | tip (amount : UInt64)
  | skipDisabled
  | skipBelowThreshold
  | skipManualNotApproved
  | skipCapReached (reason : CapReason)
deriving DecidableEq

/-- `dig_cat::CatError`, the variants with a message of their own. -/
inductive CatError
  | zeroAmount
  | insufficientFunds (need available : UInt64)
  | tooManyInputs (needed cap : ℕ)
  | other (text : String)
deriving DecidableEq

end DigTips

/-- The crates under the builder, and the profile it is compiled in. -/
structure TipLibs where
  sdk : Sdk
  drivers : SpendDrivers
  buildTip : DigTips.TipRequest → Except DigTips.CatError (List CoinSpend)
  buildTipIfAllowed : DigTips.AutoTipPolicy → UInt64 → DigTips.LedgerSnapshot → List Cat → PublicKey →
    Bytes32 → Except DigTips.CatError (DigTips.TipDecision × Option (List CoinSpend))
  decideAutoTip : DigTips.AutoTipPolicy → UInt64 → DigTips.LedgerSnapshot → DigTips.TipDecision
  hexDecode : String → Except String Bytes
  overflowChecks : Bool
  debugAssertions : Bool

namespace TipLibs

variable (libs : TipLibs)

/-! ## Conversions -/

def parseHex32 (value label : String) : WalletResult Bytes32 :=
  match libs.hexDecode value with
  | .error e => .error (invalidInput ("bad " ++ label ++ " " ++ value ++ ": " ++ e))
  | .ok bytes =>
    match Bytes32.ofBytes? bytes with
    | none => .error (invalidInput (label ++ " " ++ value ++ " is not 32 bytes"))
    | some hash => .ok hash

def parsePuzzleHash (puzzleHash : Puzzlehash) : WalletResult Bytes32 :=
  libs.parseHex32 puzzleHash.text "puzzle hash"

def parseAssetId (assetId : AssetId) : WalletResult Bytes32 := libs.parseHex32 assetId.text "asset id"

def encodeAddress (puzzleHash : Bytes32) : WalletResult Address := do
  let text ← orSpendFailed "encode address: " (libs.sdk.encodeAddress puzzleHash "xch")
  .ok ⟨text⟩

def mapTipError : DigTips.CatError → WalletError
  | .zeroAmount => invalidInput "a tip must move a non-zero amount"
  | .insufficientFunds need available =>
    insufficientFunds s!"insufficient CAT to tip: need {need}, have {available}"
  | .tooManyInputs needed cap => insufficientFunds
    s!"tip needs {needed} CAT inputs, over the {cap}-coin cap; consolidate first"
  | .other text => spendFailed ("dig-tips: " ++ text)

/-- `map_err(map_tip_error)`. -/
def orTipError {α : Type} : Except DigTips.CatError α → WalletResult α
  | .ok a => .ok a
  | .error e => .error (mapTipError e)

def toDigMode : TipMode → DigTips.TipMode
  | .auto => .auto
  | .manual => .manual

def toDigPolicy (policy : AutoTipPolicy) (recipient assetId : Bytes32) :
    WalletResult DigTips.AutoTipPolicy :=
  .ok
    { enabled := policy.enabled
      mode := toDigMode policy.mode
      assetId
      recipient
      tipAmount := policy.tipAmount.mojos
      threshold := policy.threshold.mojos
      maxTipsPerDay := policy.maxTipsPerDay
      maxAmountPerDay := policy.maxAmountPerDay.mojos }

def fromDigDecision : DigTips.TipDecision → TipDecision
  | .tip amount => .tip ⟨amount⟩
  | .skipDisabled => .skipDisabled
  | .skipBelowThreshold => .skipBelowThreshold
  | .skipManualNotApproved => .skipManualNotApproved
  | .skipCapReached .frequencyCap => .skipCapReached .frequency
  | .skipCapReached .amountCap => .skipCapReached .amount

@[simp] theorem orTipError_eq_ok {α : Type} {r : Except DigTips.CatError α} {a : α} :
    orTipError r = .ok a ↔ r = .ok a := by
  cases r <;> simp [orTipError]

end TipLibs

/-! ## The group a tip is drawn from -/

/-- The loop state of `largest_single_key_group`. -/
structure GroupSearch where
  best : Option (PublicKey × List Cat × UInt64)
  seen : List Bytes32

/-- The CATs of one inner puzzle hash. -/
def groupOf (cats : List Cat) (puzzleHash : Bytes32) : List Cat :=
  cats.filter fun cat => cat.info.p2PuzzleHash = puzzleHash

namespace SpendInputs

variable (overflowChecks : Bool) (inputs : SpendInputs) (cats : List Cat)

/-- One turn of the loop. -/
def considerGroup (search : GroupSearch) (cat : Cat) : Option GroupSearch :=
  let puzzleHash := cat.info.p2PuzzleHash
  if puzzleHash ∈ search.seen then some search
  else
    let seen := search.seen ++ [puzzleHash]
    match inputs.syntheticKey puzzleHash with
    | none => some { search with seen }
    | some key => do
      let group := groupOf cats puzzleHash
      let sum ← sumU64 overflowChecks (coinAmounts (group.map Cat.coin))
      let improves := search.best.all fun (_, _, bestTotal) => bestTotal < sum
      some ⟨if improves then some (key, group, sum) else search.best, seen⟩

/-- The outer `Option` is `none` when the sum of a group panics. -/
def largestSingleKeyGroup : Option (Option (PublicKey × List Cat)) := do
  let search ← cats.foldlM (inputs.considerGroup overflowChecks cats) ⟨none, []⟩
  some (search.best.map fun (key, group, _) => (key, group))

end SpendInputs

/-! ## The builder -/

structure TipInputs where
  cats : List Cat
  ownerPk : PublicKey
  assetId : Bytes32
  changePuzzleHash : Bytes32

namespace SdkSpendBuilder

variable (libs : TipLibs) (builder : SdkSpendBuilder)

def resolveTipInputs (identity : IdentityRef) (assetId : AssetId) : Call WalletError TipInputs := do
  let asset ← ofResult (libs.parseAssetId assetId)
  let listed ← ofResult (builder.inputs.spendableCat identity assetId)
  let cats := listed.filter fun cat => cat.info.assetId = asset
  let largest ← orPanic (builder.inputs.largestSingleKeyGroup libs.overflowChecks cats)
  match largest with
  | none => .error (.refused (insufficientFunds
      ("no spendable, key-controlled " ++ assetId.text ++ " coins to tip with")))
  | some (ownerPk, group) => do
    let changePuzzleHash ← ofResult (builder.inputs.changePuzzleHash identity)
    .ok ⟨group, ownerPk, asset, changePuzzleHash⟩

def finishTip (coinSpends : List CoinSpend) (recipient : Bytes32) (amount : Amount)
    (assetId : AssetId) : WalletResult UnsignedSpend := do
  let required ← builder.requiredSignatures libs.sdk libs.drivers coinSpends
  ensureSignedOffline coinSpends required
  let address ← libs.encodeAddress recipient
  .ok ⟨coinSpends, required,
    { outputs := [⟨address, amount, some assetId⟩], received := [], fee := ⟨0⟩
      meltedSingletons := [], nftOperations := [] }⟩

def buildTip (request : TipRequest) : Call WalletError UnsignedSpend := do
  let inputs ← builder.resolveTipInputs libs request.identity request.assetId
  let recipient ← ofResult (libs.parsePuzzleHash request.recipient)
  let coinSpends ← ofResult (TipLibs.orTipError (libs.buildTip
    { cats := inputs.cats, ownerPk := inputs.ownerPk, assetId := inputs.assetId, recipient
      amount := request.amount.mojos, changeP2PuzzleHash := inputs.changePuzzleHash }))
  ofResult (builder.finishTip libs coinSpends recipient request.amount request.assetId)

/-- `build_auto_tip` from a `Tip` decision on. -/
def buildAllowedTip (request : AutoTipRequest) (recipient : Bytes32) (policy : DigTips.AutoTipPolicy)
    (snapshot : DigTips.LedgerSnapshot) (amount : UInt64) : Call WalletError AutoTipOutcome := do
  let inputs ← builder.resolveTipInputs libs request.identity request.policy.assetId
  let (builtDecision, spend) ← ofResult (TipLibs.orTipError (libs.buildTipIfAllowed policy
    request.primarySendAmount.mojos snapshot inputs.cats inputs.ownerPk inputs.changePuzzleHash))
  -- `debug_assert_eq!`
  orPanic (if libs.debugAssertions ∧ builtDecision ≠ .tip amount then none else some ())
  let unsigned ←
    match spend with
    | some coinSpends => (ofResult (builder.finishTip libs coinSpends recipient ⟨amount⟩
        request.policy.assetId)).map some
    | none => .ok none
  .ok ⟨TipLibs.fromDigDecision builtDecision, unsigned⟩

def buildAutoTip (request : AutoTipRequest) : Call WalletError AutoTipOutcome := do
  let recipient ← ofResult (libs.parsePuzzleHash request.policy.recipient)
  let asset ← ofResult (libs.parseAssetId request.policy.assetId)
  let policy ← ofResult (TipLibs.toDigPolicy request.policy recipient asset)
  let snapshot := ⟨request.ledger.tipsToday, request.ledger.amountToday.mojos⟩
  match libs.decideAutoTip policy request.primarySendAmount.mojos snapshot with
  | .tip amount => builder.buildAllowedTip libs request recipient policy snapshot amount
  | skip => .ok ⟨TipLibs.fromDigDecision skip, none⟩

end SdkSpendBuilder

end DigWallet
