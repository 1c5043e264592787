import DigWallet.Engine.Hints
import DigWallet.Engine.Records
import DigWallet.Lib.Totals

/-!
# DigWallet.Engine.State — the in-memory wallet store

`WalletState`, `InMemoryWalletStore` and `classify_coin_change`.  A hash map is a `Table`, its row
order the order of iteration; a store without an entry for a wallet reads as the default state.
-/

namespace DigWallet

open Totals

/-! ## Coin changes -/

inductive CoinChange
  | created
  | spent
  | updated
  | unchanged
deriving DecidableEq

def classifyCoinChange (previous : Option CoinRecord) (incoming : CoinRecord) : CoinChange :=
  match previous with
  | none => if incoming.spentHeight.isSome then .spent else .created
  | some prev =>
    if prev = incoming then .unchanged
    else if prev.spentHeight.isNone ∧ incoming.spentHeight.isSome then .spent
    else .updated

/-- `is_some_and(|h| h > fork_height)`. -/
def above (forkHeight : UInt32) (height : Option UInt32) : Bool :=
  height.any fun h => forkHeight < h

/-! ## One wallet -/

structure WalletState where
  coins : Table String CoinRecord
  cats : Table String CatRecord
  nfts : Table String NftRecord
  dids : Table String DidRecord
  hints : HintIndex
  history : List TransactionRecord
  peakHeight : UInt32
  targetHeight : UInt32
  lifecycle : SyncLifecycle

namespace WalletState

/-- `Default`: nothing tracked, idle at height 0. -/
def fresh : WalletState where
  coins := Table.empty
  cats := Table.empty
  nfts := Table.empty
  dids := Table.empty
  hints := HintIndex.new
  history := []
  peakHeight := 0
  targetHeight := 0
  lifecycle := .idle

/-- The unspent coins, as `values().filter(…)` yields them. -/
def unspent (state : WalletState) : List CoinRecord :=
  (state.coins.rows.map Prod.snd).filter fun coin => coin.spentHeight.isNone

/-- The unchecked sum of the unspent amounts; `none` is the overflow panic of a checked build. -/
def balance (overflowChecks : Bool) (state : WalletState) : Option Balance := do
  let total ← sumU64 overflowChecks (state.unspent.map fun coin => coin.amount.mojos)
  some ⟨⟨total⟩, ⟨total⟩⟩

def syncStatus (state : WalletState) : SyncStatus :=
  ⟨state.lifecycle, state.peakHeight, state.targetHeight⟩

def applyCoinState (state : WalletState) (record : CoinRecord) : WalletState × CoinChange :=
  ({ state with coins := state.coins.put record.coinId record },
    classifyCoinChange (state.coins.get? record.coinId) record)

/-- The ids of the coins a predicate holds of. -/
def idsWhere (coins : Table String CoinRecord) (p : CoinRecord → Bool) : List String :=
  (coins.rows.filter fun row => p row.2).map Prod.fst

def rollbackTo (state : WalletState) (forkHeight : UInt32) : WalletState × List String :=
  let forgotten := idsWhere state.coins fun coin => above forkHeight coin.createdHeight
  let kept := state.coins.keep fun _ coin => !above forkHeight coin.createdHeight
  let unspentIds := idsWhere kept fun coin => above forkHeight coin.spentHeight
  ({ state with
      coins := kept.alter fun _ coin =>
        if above forkHeight coin.spentHeight then { coin with spentHeight := none } else coin
      hints := forgotten.foldl HintIndex.forget state.hints
      peakHeight := forkHeight },
    forgotten ++ unspentIds)

theorem get?_rollbackTo (state : WalletState) (forkHeight : UInt32) (id : String) :
    (state.rollbackTo forkHeight).1.coins.get? id =
      ((state.coins.get? id).filter fun coin => !above forkHeight coin.createdHeight).map fun coin =>
        if above forkHeight coin.spentHeight then { coin with spentHeight := none } else coin := by
  show ((state.coins.keep _).alter _).get? id = _
  rw [Table.get?_alter, Table.get?_keep]

section Rollback

variable {state : WalletState} {forkHeight : UInt32} {id : String}

/-- What a rollback leaves of a coin: created no higher than the fork, and un-spent or as it was. -/
theorem rollbackTo_cases {coin : CoinRecord}
    (h : (state.rollbackTo forkHeight).1.coins.get? id = some coin) :
    ∃ before, state.coins.get? id = some before ∧ above forkHeight before.createdHeight = false ∧
      (above forkHeight before.spentHeight = true ∧ coin = { before with spentHeight := none } ∨
        above forkHeight before.spentHeight = false ∧ coin = before) := by
  rw [get?_rollbackTo] at h
  obtain ⟨before, hkept, hcoin⟩ := Option.map_eq_some_iff.mp h
  obtain ⟨hbefore, hcreated⟩ := Option.filter_eq_some_iff.mp hkept
  refine ⟨before, hbefore, by simpa using hcreated, ?_⟩
  by_cases hspent : above forkHeight before.spentHeight = true
  · rw [if_pos hspent] at hcoin
    exact .inl ⟨hspent, hcoin.symm⟩
  · rw [if_neg hspent] at hcoin
    exact .inr ⟨Bool.eq_false_iff.mpr hspent, hcoin.symm⟩

theorem mem_idsWhere {coins : Table String CoinRecord} {p : CoinRecord → Bool} :
    id ∈ idsWhere coins p ↔ ∃ coin, coins.get? id = some coin ∧ p coin = true :=
  Table.mem_keysWhere

theorem nodup_idsWhere (coins : Table String CoinRecord) (p : CoinRecord → Bool) :
    (idsWhere coins p).Nodup :=
  coins.unique.sublist (List.filter_sublist.map _)

/-- The ids a rollback reports are those of the coins it forgets or un-spends. -/
theorem mem_rollbackTo :
    id ∈ (state.rollbackTo forkHeight).2 ↔ ∃ coin, state.coins.get? id = some coin ∧
      (above forkHeight coin.createdHeight = true ∨ above forkHeight coin.spentHeight = true) := by
  show id ∈ idsWhere _ _ ++ idsWhere _ _ ↔ _
  rw [List.mem_append, mem_idsWhere, mem_idsWhere]
  constructor
  · rintro (⟨coin, hget, hcreated⟩ | ⟨coin, hget, hspent⟩)
    · exact ⟨coin, hget, .inl hcreated⟩
    · rw [Table.get?_keep] at hget
      exact ⟨coin, (Option.filter_eq_some_iff.mp hget).1, .inr hspent⟩
  · rintro ⟨coin, hget, habove⟩
    by_cases hcreated : above forkHeight coin.createdHeight = true
    · exact .inl ⟨coin, hget, hcreated⟩
    · refine .inr ⟨coin, ?_, habove.resolve_left hcreated⟩
      rw [Table.get?_keep, Option.filter_eq_some_iff]
      exact ⟨hget, by simpa using hcreated⟩

/-- A coin is forgotten or un-spent, not both. -/
theorem nodup_rollbackTo (state : WalletState) (forkHeight : UInt32) :
    (state.rollbackTo forkHeight).2.Nodup := by
  refine List.nodup_append.mpr ⟨nodup_idsWhere _ _, nodup_idsWhere _ _, ?_⟩
  rintro id hforgotten _ hunspent rfl
  obtain ⟨coin, hget, hcreated⟩ := mem_idsWhere.mp hforgotten
  obtain ⟨coin', hkept, -⟩ := mem_idsWhere.mp hunspent
  rw [Table.get?_keep, hget] at hkept
  obtain ⟨-, hbelow⟩ := Option.filter_eq_some_iff.mp hkept
  obtain rfl := Option.some.inj (Option.filter_eq_some_iff.mp hkept).1
  rw [hcreated] at hbelow
  cases hbelow

/-- A coin a rollback does not report is as it was. -/
theorem get?_rollbackTo_of_notMem (h : id ∉ (state.rollbackTo forkHeight).2) :
    (state.rollbackTo forkHeight).1.coins.get? id = state.coins.get? id := by
  rw [get?_rollbackTo]
  cases hget : state.coins.get? id with
  | none => rfl
  | some coin =>
    have hbelow : ¬ (above forkHeight coin.createdHeight = true ∨
        above forkHeight coin.spentHeight = true) :=
      fun habove => h (mem_rollbackTo.mpr ⟨coin, hget, habove⟩)
    obtain ⟨hcreated, hspent⟩ := not_or.mp hbelow
    have hcreated : (!above forkHeight coin.createdHeight) = true := by simpa using hcreated
    rw [Option.filter_some, if_pos hcreated, Option.map_some, if_neg hspent]

end Rollback

def setPeak (state : WalletState) (peakHeight : UInt32) : WalletState :=
  { state with peakHeight := if state.peakHeight ≤ peakHeight then peakHeight else state.peakHeight }

def setSyncStatus (state : WalletState) (lifecycle : SyncLifecycle) (target : UInt32) : WalletState :=
  { state with lifecycle := lifecycle, targetHeight := target }

def upsertCat (state : WalletState) (record : CatRecord) : WalletState :=
  { state with cats := state.cats.put record.assetId.text record }

def upsertNft (state : WalletState) (record : NftRecord) : WalletState :=
  { state with nfts := state.nfts.put record.launcherId record }

def upsertDid (state : WalletState) (record : DidRecord) : WalletState :=
  { state with dids := state.dids.put record.launcherId record }

def recordTransaction (state : WalletState) (record : TransactionRecord) : WalletState :=
  { state with history := state.history ++ [record] }

def indexHints (state : WalletState) (extracted : List (String × List Hint)) : WalletState :=
  { state with hints := extracted.foldl (fun hints coin => hints.index coin.1 coin.2) state.hints }

def indexCoinHints (state : WalletState) (coinId : String) (hints : List Hint) : WalletState :=
  { state with hints := state.hints.index coinId hints }

/-- The state is kept when the spend does not run. -/
def indexHintsFromSpend (sdk : Sdk) (runProgram : Node → Node → Except String Node)
    (state : WalletState) (coinSpend : CoinSpend) : WalletState × WalletResult ℕ :=
  match hintsFromCoinSpend sdk runProgram coinSpend with
  | .error e => (state, .error e)
  | .ok extracted => (state.indexHints extracted, .ok extracted.length)

def resolve (coins : Table String CoinRecord) (ids : List String) : List CoinRecord :=
  ids.filterMap coins.get?

def coinsByHint (state : WalletState) (hint : Hint) : List CoinRecord :=
  resolve state.coins (state.hints.coinsByHint hint)

def coinsByAllHints (state : WalletState) (hints : List Hint) : List CoinRecord :=
  resolve state.coins (state.hints.coinsByAllHints hints)

def hintsForCoin (state : WalletState) (coinId : String) : List Hint := state.hints.hintsFor coinId

end WalletState

/-! ## All wallets -/

structure InMemoryWalletStore where
  wallets : Table WalletId WalletState

namespace InMemoryWalletStore

def new : InMemoryWalletStore := ⟨Table.empty⟩

/-- `entry(wallet_id).or_default()`. -/
def wallet (store : InMemoryWalletStore) (walletId : WalletId) : WalletState :=
  (store.wallets.get? walletId).getD .fresh

def setWallet (store : InMemoryWalletStore) (walletId : WalletId) (state : WalletState) :
    InMemoryWalletStore := ⟨store.wallets.put walletId state⟩

theorem wallet_setWallet (store : InMemoryWalletStore) (w w' : WalletId) (state : WalletState) :
    (store.setWallet w state).wallet w' = if w = w' then state else store.wallet w' := by
  unfold wallet setWallet
  rw [Table.get?_put]
  by_cases h : w = w'
  · rw [if_pos h, if_pos h, Option.getD_some]
  · rw [if_neg h, if_neg h]

@[simp] theorem wallet_new (w : WalletId) : new.wallet w = .fresh := rfl

end InMemoryWalletStore

end DigWallet
