import DigWallet.Engine.Build

/-!
# DigWallet.Engine.BuildExtended — multi-sends, combine and split

`engine::build_extended`.
-/

namespace DigWallet

open Faults Totals

structure SendLeg where
  toAddress : Address
  amount : Amount

structure MultiSendXchRequest where
  identity : IdentityRef
  legs : List SendLeg
  fee : Amount

structure MultiSendCatRequest where
  identity : IdentityRef
  assetId : AssetId
  legs : List SendLeg
  fee : Amount

structure CombineXchRequest where
  identity : IdentityRef
  fee : Amount

structure SplitXchRequest where
  identity : IdentityRef
  parts : UInt32
  fee : Amount

/-! ## Helpers -/

def totalOf (legs : List SendLeg) : WalletResult UInt64 :=
  legs.foldlM (fun sum leg => match checkedAdd sum leg.amount.mojos with
    | some sum => .ok sum
    | none => .error (invalidInput "multi-send total overflows")) 0

def underFundedSplit (total fee parts : UInt64) : WalletError :=
  insufficientFunds (s!"{total} mojos cannot pay a {fee} mojo fee and still split into {parts} " ++
    "coins with distinct ids")

/-- `Option::ok_or`. -/
def okOr {α : Type} (error : WalletError) : Option α → WalletResult α
  | some a => .ok a
  | none => .error error

@[simp] theorem okOr_eq_ok {α : Type} {error : WalletError} {o : Option α} {a : α} :
    okOr error o = .ok a ↔ o = some a := by
  cases o <;> simp [okOr]

theorem okOr_eq_error {α : Type} {error e : WalletError} {o : Option α} :
    okOr error o = .error e ↔ o = none ∧ e = error := by
  cases o <;> simp [okOr, eq_comm]

/-- The offset `0 + 1 + … + (parts - 1)` and the least divisible amount. -/
def staggerAndFloor (parts : UInt64) : Option (UInt64 × UInt64) := do
  let stagger := (← checkedMul parts (← checkedSub parts 1)) / 2
  some (stagger, ← checkedAdd parts stagger)

section Amounts

variable (overflowChecks : Bool)

/-- `*amounts.last_mut() += remainder`. -/
def addToLast (remainder : UInt64) : List UInt64 → Option (List UInt64)
  | [] => none
  | [last] => do some [← addU64 overflowChecks last remainder]
  | amount :: next :: rest => do some (amount :: (← addToLast remainder (next :: rest)))

/-- `none` is a panic, `some none` is `None`. -/
def staggeredAmounts (divisible parts : UInt64) : Option (Option (List UInt64)) :=
  match staggerAndFloor parts with
  | none => some none
  | some (stagger, floor) =>
    if divisible < floor then some none
    else do
      let spread ← subU64 overflowChecks divisible stagger
      let base := spread / parts
      let remainder := spread % parts
      let amounts ← (List.range parts.toNat).mapM fun index =>
        addU64 overflowChecks base (UInt64.ofNat index)
      some (some (← addToLast overflowChecks remainder amounts))

end Amounts

section Builder

variable (sdk : Sdk) (drivers : SpendDrivers) (overflowChecks : Bool)

def resolveLeg (leg : SendLeg) : WalletResult (Bytes32 × UInt64) :=
  if leg.amount.mojos = 0 then
    .error (invalidInput ("destination " ++ leg.toAddress.text ++ " was given a zero amount"))
  else do .ok (← decodeAddress sdk leg.toAddress, leg.amount.mojos)

def resolveLegs (legs : List SendLeg) : WalletResult (List (Bytes32 × UInt64)) :=
  if legs.isEmpty then
    .error (invalidInput "a multi-send must have at least one destination")
  else legs.mapM (resolveLeg sdk)

/-- The loop of `ensure_distinct_created_coins`, from the ids seen so far. -/
def ensureDistinctFrom (parent : Bytes32) : List Bytes32 → List (Bytes32 × UInt64) → WalletResult Unit
  | _, [] => .ok ()
  | seen, (puzzleHash, amount) :: created =>
    let id := sdk.coinId ⟨parent, puzzleHash, amount⟩
    if id ∈ seen then
      .error (invalidInput (s!"this spend would create two coins with the same id ({amount} mojos " ++
        "to the same address); vary the amount or send them separately"))
    else ensureDistinctFrom parent (id :: seen) created

def ensureDistinctCreatedCoins (parent : Bytes32) (created : List (Bytes32 × UInt64)) :
    WalletResult Unit := ensureDistinctFrom sdk parent [] created

/-- The change, when there is any. -/
def changePairs (changePh : Bytes32) (changeAmount : UInt64) : List (Bytes32 × UInt64) :=
  if 0 < changeAmount then [(changePh, changeAmount)] else []

/-- `cmp` is `Greater`: the larger amount, then the smaller coin id. -/
def Outranks (a b : Coin) : Prop :=
  b.amount < a.amount ∨ a.amount = b.amount ∧ (sdk.coinId a).bytes < (sdk.coinId b).bytes

instance : DecidableRel (Outranks sdk) := fun a b =>
  inferInstanceAs (Decidable (b.amount < a.amount ∨
    a.amount = b.amount ∧ (sdk.coinId a).bytes < (sdk.coinId b).bytes))

/-- `max_by` keeps the later of two equals. -/
def largestSpendable : List Coin → WalletResult Coin
  | [] => .error (insufficientFunds "no spendable XCH coin to split")
  | coin :: coins =>
    .ok (coins.foldl (fun best next => if Outranks sdk best next then best else next) coin)

namespace SdkSpendBuilder

variable (builder : SdkSpendBuilder)

def legOutputs (legs : List SendLeg) (assetId : Option AssetId) : List SpendOutput :=
  legs.map fun leg => ⟨leg.toAddress, leg.amount, assetId⟩

def catRingPaying (cats : List Cat) (destinations : List (Bytes32 × UInt64)) (changePh : Bytes32)
    (catChange : UInt64) : WalletResult (List CatSpend) :=
  builder.catRing drivers cats do
    let paid ← destinations.mapM fun (puzzleHash, amount) => hintedCreateCoin drivers puzzleHash amount
    .ok (paid ++ changeCondition changePh catChange)

/-- A spend whose whole value stays with the wallet lists no output. -/
def finishSelfDirected (coinSpends : List CoinSpend) (fee : UInt64) : WalletResult UnsignedSpend :=
  builder.finish sdk drivers coinSpends
    { outputs := [], received := [], fee := ⟨fee⟩, meltedSingletons := [], nftOperations := [] }

/-! ## The builders -/

def buildMultiSendXch (request : MultiSendXchRequest) : Call WalletError UnsignedSpend := do
  let fee := request.fee.mojos
  let destinations ← ofResult (resolveLegs sdk request.legs)
  let payout ← ofResult (totalOf request.legs)
  let target ← ofResult (okOr (invalidInput "legs + fee overflows") (checkedAdd payout fee))
  let changePh ← ofResult (builder.inputs.changePuzzleHash request.identity)
  let coins ← ofResult (builder.inputs.spendableXch request.identity)
  let selected ← selectOrFail sdk overflowChecks coins target builder.coinCap "XCH"
  let total ← orPanic (sumU64 overflowChecks (coinAmounts selected))
  let changeAmount ← orPanic (subU64 overflowChecks total target)
  let lead ← orPanic selected.head?
  ofResult (ensureDistinctCreatedCoins sdk (sdk.coinId lead)
    (destinations ++ changePairs changePh changeAmount))
  let paid ← ofResult (destinations.mapM fun (puzzleHash, amount) =>
    hintedCreateCoin drivers puzzleHash amount)
  let conditions := paid ++ changeCondition changePh changeAmount ++ feeCondition fee
  let ctx ← ofResult (builder.spendStandard drivers [] lead conditions)
  let coinSpends ← ofResult (builder.linkSupportingCoins sdk drivers ctx selected)
  let outputs ← orPanic (addU64 overflowChecks payout changeAmount)
  ofResult (assertConserved total outputs fee)
  ofResult (builder.finish sdk drivers coinSpends
    { outputs := legOutputs request.legs none, received := [], fee := ⟨fee⟩
      meltedSingletons := [], nftOperations := [] })

def buildMultiSendCat (request : MultiSendCatRequest) : Call WalletError UnsignedSpend := do
  let fee := request.fee.mojos
  let destinations ← ofResult (resolveLegs sdk request.legs)
  let payout ← ofResult (totalOf request.legs)
  let changePh ← ofResult (builder.inputs.changePuzzleHash request.identity)
  let cats ← ofResult (builder.inputs.spendableCat request.identity request.assetId)
  let catTotal ← orPanic (sumU64 overflowChecks (coinAmounts (cats.map Cat.coin)))
  refuseIf (cats = [] ∨ catTotal < payout) (insufficientFunds
    ("insufficient " ++ request.assetId.text ++ s!": have {catTotal}, need {payout}"))
  let catChange ← orPanic (subU64 overflowChecks catTotal payout)
  let lead ← orPanic cats.head?
  ofResult (ensureDistinctCreatedCoins sdk (sdk.coinId lead.coin)
    (destinations ++ changePairs changePh catChange))
  let catSpends ← ofResult (builder.catRingPaying drivers cats destinations changePh catChange)
  let ctx ← ofResult (orSpendFailed "cat spend_all: " (drivers.catSpendAll catSpends))
  let coinSpends ← builder.addCatFee sdk drivers overflowChecks ctx request.identity fee changePh cats
  let outputs ← orPanic (addU64 overflowChecks payout catChange)
  ofResult (assertConserved catTotal outputs 0)
  ofResult (builder.finish sdk drivers coinSpends
    { outputs := legOutputs request.legs (some request.assetId), received := [], fee := ⟨fee⟩
      meltedSingletons := [], nftOperations := [] })

def buildCombineXch (request : CombineXchRequest) : Call WalletError UnsignedSpend := do
  let fee := request.fee.mojos
  let changePh ← ofResult (builder.inputs.changePuzzleHash request.identity)
  let coins ← ofResult (builder.inputs.spendableXch request.identity)
  let selected ← ofResult (selectForConsolidation sdk coins builder.coinCap)
  let total ← orPanic (sumU64 overflowChecks (coinAmounts selected))
  let merged ← ofResult (okOr
    (insufficientFunds s!"combining {total} mojos cannot also pay a {fee} mojo fee")
    ((checkedSub total fee).filter (0 < ·)))
  let conditions := .createCoin ⟨changePh, merged, none⟩ :: feeCondition fee
  let lead ← orPanic selected.head?
  let ctx ← ofResult (builder.spendStandard drivers [] lead conditions)
  let coinSpends ← ofResult (builder.linkSupportingCoins sdk drivers ctx selected)
  ofResult (assertConserved total merged fee)
  ofResult (builder.finishSelfDirected sdk drivers coinSpends fee)

def buildSplitXch (request : SplitXchRequest) : Call WalletError UnsignedSpend := do
  let fee := request.fee.mojos
  let parts := request.parts.toUInt64
  refuseIf (parts < 2) (invalidInput "a split must produce at least two coins")
  let changePh ← ofResult (builder.inputs.changePuzzleHash request.identity)
  let coins ← ofResult (builder.inputs.spendableXch request.identity)
  let selected ← ofResult (largestSpendable sdk coins)
  let total := selected.amount
  let divisible ← ofResult (okOr (underFundedSplit total fee parts) (checkedSub total fee))
  let staggered ← orPanic (staggeredAmounts overflowChecks divisible parts)
  let amounts ← ofResult (okOr (underFundedSplit total fee parts) staggered)
  let conditions :=
    amounts.map (fun amount => .createCoin ⟨changePh, amount, none⟩) ++ feeCondition fee
  ofResult (ensureDistinctCreatedCoins sdk (sdk.coinId selected)
    (amounts.map fun amount => (changePh, amount)))
  let coinSpends ← ofResult (builder.spendStandard drivers [] selected conditions)
  let outputs ← orPanic (sumU64 overflowChecks amounts)
  ofResult (assertConserved total outputs fee)
  ofResult (builder.finishSelfDirected sdk drivers coinSpends fee)

end SdkSpendBuilder

end Builder

end DigWallet
