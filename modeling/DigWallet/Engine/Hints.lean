import Mathlib.Data.Finset.Sort
import Mathlib.Data.String.Basic
import DigWallet.Hex
import DigWallet.Lib.Table
import DigWallet.Sdk
import DigWallet.Verify.Posting

/-!
# DigWallet.Engine.Hints — the memo-hint index

`Hint`, `HintIndex` and `hints_from_coin_spend`.  A B-tree set is a `Finset`, read in sorted order.
-/

namespace DigWallet

/-- A memo as lower-case hex. -/
structure Hint where
  text : String
deriving DecidableEq

namespace Hint

/-- `strip_prefix("0x").or_else(|| strip_prefix("0X")).unwrap_or(raw)`. -/
def body : List Char → List Char
  | '0' :: 'x' :: rest => rest
  | '0' :: 'X' :: rest => rest
  | raw => raw

def new (hex : String) : Hint := ⟨String.ofList ((body hex.toList).map Char.toLower)⟩

def fromBytes (bytes : Bytes) : Hint := ⟨hexEncode bytes⟩

/-- The derived `Deserialize` of a newtype, on a JSON string. -/
def deserialize (text : String) : Hint := ⟨text⟩

theorem text_injective : Function.Injective text := by
  rintro ⟨s⟩ ⟨t⟩ h
  exact congrArg mk h

/-- The derived `Ord`. -/
instance linearOrder : LinearOrder Hint := LinearOrder.lift' text text_injective

end Hint

structure HintIndex where
  byHint : Table Hint (Finset String)
  byCoin : Table String (Finset Hint)

namespace HintIndex

def new : HintIndex := ⟨Table.empty, Table.empty⟩

/-- One turn of the loop of `index`. -/
def indexOne (coinId : String) (hints : HintIndex) (hint : Hint) : HintIndex where
  byHint := hints.byHint.put hint (insert coinId ((hints.byHint.get? hint).getD ∅))
  byCoin := hints.byCoin.put coinId (insert hint ((hints.byCoin.get? coinId).getD ∅))

def index (hints : HintIndex) (coinId : String) (memos : List Hint) : HintIndex :=
  memos.foldl (indexOne coinId)
    { hints with byCoin := hints.byCoin.put coinId ((hints.byCoin.get? coinId).getD ∅) }

/-- The emptied buckets go with the coin. -/
def forget (hints : HintIndex) (coinId : String) : HintIndex :=
  match hints.byCoin.get? coinId with
  | none => hints
  | some memos =>
    { byHint := (hints.byHint.alter fun hint bucket =>
        if hint ∈ memos then bucket.erase coinId else bucket).keep fun hint bucket =>
          !(decide (hint ∈ memos) && decide (bucket = ∅))
      byCoin := hints.byCoin.keep fun id _ => decide (id ≠ coinId) }

/-- `BTreeSet::into_iter`, of the bucket if there is one. -/
def listed {α : Type} [LinearOrder α] (bucket : Option (Finset α)) : List α := (bucket.getD ∅).sort

def coinsByHint (hints : HintIndex) (hint : Hint) : List String := listed (hints.byHint.get? hint)

/-- The loop of `coins_by_all_hints`. -/
def retainIn (hints : HintIndex) (matched : Finset String) : List Hint → List String
  | [] => matched.sort
  | hint :: rest =>
    match hints.byHint.get? hint with
    | none => []
    | some bucket => retainIn hints (matched.filter (· ∈ bucket)) rest

def coinsByAllHints (hints : HintIndex) : List Hint → List String
  | [] => []
  | first :: rest =>
    match hints.byHint.get? first with
    | none => []
    | some seed => hints.retainIn seed rest

/-- One turn of the loop of `coins_by_any_hint`. -/
def extend (hints : HintIndex) (matched : Finset String) (hint : Hint) : Finset String :=
  match hints.byHint.get? hint with
  | none => matched
  | some bucket => matched ∪ bucket

def coinsByAnyHint (hints : HintIndex) (queried : List Hint) : List String :=
  (queried.foldl hints.extend ∅).sort

def hintsFor (hints : HintIndex) (coinId : String) : List Hint := listed (hints.byCoin.get? coinId)

end HintIndex

/-! ## Hints of a spend -/

/-- `<Vec<Bytes>>::from_clvm`. -/
def atomList : Node → Option (List Bytes)
  | .atom [] => some []
  | .atom _ => none
  | .pair (.atom bytes) rest => (atomList rest).map (bytes :: ·)
  | .pair (.pair _ _) _ => none

-- `runProgram` is `clvmr::run_program` without a cost limit.
variable (sdk : Sdk) (runProgram : Node → Node → Except String Node)

def hintParseFailed (message : String) : WalletError := ⟨.spendValidationFailed, message⟩

/-- `map_err(|e| hint_parse_failed(…))`. -/
def orHintParseFailed {α : Type} (what : String) : Except String α → WalletResult α
  | .ok a => .ok a
  | .error e => .error (hintParseFailed (what ++ e))

/-- The hinted coin a condition of `parent` creates. -/
def hintedCoin (parent : Bytes32) (condition : Condition) : Option (String × List Hint) := do
  let create ← condition.asCreateCoin
  let values ← atomList (← create.memos)
  if values.isEmpty then none
  else some (hexEncode (sdk.coinId ⟨parent, create.puzzleHash, create.amount⟩).bytes,
    values.map Hint.fromBytes)

def hintsFromCoinSpend (coinSpend : CoinSpend) : WalletResult (List (String × List Hint)) := do
  let puzzle ← orHintParseFailed "puzzle reveal: " (sdk.nodeFromBytes coinSpend.puzzleReveal)
  let solution ← orHintParseFailed "solution: " (sdk.nodeFromBytes coinSpend.solution)
  let output ← orHintParseFailed "puzzle did not run: " (runProgram puzzle solution)
  let conditions ← orHintParseFailed "conditions: " (sdk.conditionsFromClvm output)
  .ok (conditions.filterMap (hintedCoin sdk (sdk.coinId coinSpend.coin)))

end DigWallet
