import DigWallet.Engine.Events
import DigWallet.Engine.State
import DigWallet.Lib.Script
import DigWallet.Lib.Text

/-!
# DigWallet.Engine.Persist — the SQLite wallet store

The tables, the statements of each mutation as a `Script`, and the reads.  An amount column holds
decimal text; a JSON column is kept as the value it is read back as.
-/

namespace DigWallet

open Text Totals

/-! ## Tables -/

structure CoinRow where
  puzzleHash : String
  amount : String
  createdHeight : Option UInt32
  spentHeight : Option UInt32
deriving DecidableEq

structure CatRow where
  balance : String
  name : Option String
deriving DecidableEq

/-- A row of `transactions`; the table is in order of `seq`. -/
structure TransactionRow where
  walletId : WalletId
  record : TransactionRecord
deriving DecidableEq

structure SyncRow where
  peakHeight : UInt32
  targetHeight : UInt32
  lifecycle : SyncLifecycle
deriving DecidableEq

structure SqliteWalletStore where
  coins : Table (WalletId × String) CoinRow
  cats : Table (WalletId × String) CatRow
  nfts : Table (WalletId × String) (Option String)
  dids : Table (WalletId × String) (Option String)
  transactions : List TransactionRow
  syncState : Table WalletId SyncRow
deriving DecidableEq

namespace SqliteWalletStore

def fresh : SqliteWalletStore :=
  ⟨Table.empty, Table.empty, Table.empty, Table.empty, [], Table.empty⟩

/-! ## Rows -/

def coinRow (record : CoinRecord) : CoinRow :=
  ⟨record.puzzleHash.text, toString record.amount.mojos.toNat, record.createdHeight,
    record.spentHeight⟩

/-- `amount.parse()`; a malformed amount is a corrupted store. -/
def parseAmount (amount : String) : WalletResult UInt64 :=
  match parseU64 amount with
  | some mojos => .ok mojos
  | none => .error (storageErr ("invalid amount " ++ amount))

def rowToCoin (coinId : String) (row : CoinRow) : WalletResult CoinRecord := do
  .ok ⟨coinId, ⟨row.puzzleHash⟩, ⟨← parseAmount row.amount⟩, row.createdHeight, row.spentHeight⟩

def rowToCat (assetId : String) (row : CatRow) : WalletResult CatRecord := do
  .ok ⟨⟨assetId⟩, ⟨← parseAmount row.balance⟩, row.name⟩

variable (db : SqliteWalletStore) (walletId : WalletId)

/-! ## Queries -/

def fetchCoin (coinId : String) : WalletResult (Option CoinRecord) :=
  match db.coins.get? (walletId, coinId) with
  | none => .ok none
  | some row => do .ok (some (← rowToCoin coinId row))

/-- The wallet's recorded peak, 0 without a row. -/
def fetchPeak : UInt32 :=
  match db.syncState.get? walletId with
  | some row => row.peakHeight
  | none => 0

/-- `SELECT coin_id FROM coins WHERE wallet_id = ? AND p`. -/
def queryCoinIds (p : CoinRow → Bool) : List String :=
  ((db.coins.slice walletId).rows.filter fun row => p row.2).map Prod.fst

/-! ## Write statements -/

def upsertCoinRow (record : CoinRecord) : SqliteWalletStore :=
  { db with coins := db.coins.put (walletId, record.coinId) (coinRow record) }

/-- `DELETE FROM coins WHERE wallet_id = ? AND created_height > ?`. -/
def deleteCreatedAbove (forkHeight : UInt32) : SqliteWalletStore :=
  { db with
    coins := db.coins.keep fun key row => !(decide (key.1 = walletId) && above forkHeight row.createdHeight) }

/-- `UPDATE coins SET spent_height = NULL WHERE wallet_id = ? AND spent_height > ?`. -/
def unspendAbove (forkHeight : UInt32) : SqliteWalletStore :=
  { db with
    coins := db.coins.alter fun key row =>
      if decide (key.1 = walletId) && above forkHeight row.spentHeight then
        { row with spentHeight := none }
      else row }

def setPeakAbsolute (peak : UInt32) : SqliteWalletStore :=
  { db with
    syncState := db.syncState.put walletId
      (match db.syncState.get? walletId with
      | some row => { row with peakHeight := peak }
      | none => ⟨peak, 0, .idle⟩) }

def upsertSyncStatus (lifecycle : SyncLifecycle) (target : UInt32) : SqliteWalletStore :=
  { db with
    syncState := db.syncState.put walletId
      (match db.syncState.get? walletId with
      | some row => { row with targetHeight := target, lifecycle := lifecycle }
      | none => ⟨0, target, lifecycle⟩) }

def upsertCatRow (record : CatRecord) : SqliteWalletStore :=
  { db with
    cats := db.cats.put (walletId, record.assetId.text)
      ⟨toString record.balance.mojos.toNat, record.name⟩ }

def upsertNftRow (record : NftRecord) : SqliteWalletStore :=
  { db with nfts := db.nfts.put (walletId, record.launcherId) record.dataUri }

def upsertDidRow (record : DidRecord) : SqliteWalletStore :=
  { db with dids := db.dids.put (walletId, record.launcherId) record.name }

def insertTransaction (record : TransactionRecord) : SqliteWalletStore :=
  { db with transactions := db.transactions ++ [⟨walletId, record⟩] }

/-! ## Reads -/

/-- The wallet's unspent rows. -/
def unspentRows : List (String × CoinRow) :=
  (db.coins.slice walletId).rows.filter fun row => row.2.spentHeight.isNone

def balance : WalletResult Balance := do
  let amounts ← (unspentRows db walletId).mapM fun row => parseAmount row.2.amount
  let total := sumSaturating amounts
  .ok ⟨⟨total⟩, ⟨total⟩⟩

def readCoins : WalletResult (List CoinRecord) :=
  (unspentRows db walletId).mapM fun row => rowToCoin row.1 row.2

def readCats : WalletResult (List CatRecord) :=
  (db.cats.slice walletId).rows.mapM fun row => rowToCat row.1 row.2

def readNfts : List NftRecord := (db.nfts.slice walletId).rows.map fun row => ⟨row.1, row.2⟩

def readDids : List DidRecord := (db.dids.slice walletId).rows.map fun row => ⟨row.1, row.2⟩

def history : List TransactionRecord :=
  (db.transactions.filter fun row => row.walletId = walletId).map TransactionRow.record

/-- A wallet that never synced is idle at height 0. -/
def syncStatus : SyncStatus :=
  match db.syncState.get? walletId with
  | some row => ⟨row.lifecycle, row.peakHeight, row.targetHeight⟩
  | none => ⟨.idle, 0, 0⟩

end SqliteWalletStore

/-! ## Mutations -/

open SqliteWalletStore in
/-- The statements of `apply_coin_state`. -/
def sqlApplyCoinState (walletId : WalletId) (record : CoinRecord) :
    Script SqliteWalletStore (WalletResult CoinChange) :=
  .query fun db =>
    match fetchCoin db walletId record.coinId with
    | .error e => .done (.error e)
    | .ok previous =>
      .execute (upsertCoinRow · walletId record) (.done (.ok (classifyCoinChange previous record)))

open SqliteWalletStore in
/-- The statements of `rollback_to`; the ids are collected in a set. -/
def sqlRollbackTo (walletId : WalletId) (forkHeight : UInt32) :
    Script SqliteWalletStore (WalletResult (List String)) :=
  .query fun db =>
    let created := queryCoinIds db walletId fun row => above forkHeight row.createdHeight
    .execute (deleteCreatedAbove · walletId forkHeight) <| .query fun db =>
      let spent := queryCoinIds db walletId fun row => above forkHeight row.spentHeight
      .execute (unspendAbove · walletId forkHeight) <|
        .execute (setPeakAbsolute · walletId forkHeight) <| .done (.ok (created ++ spent).dedup)

open SqliteWalletStore in
def sqlSetPeak (walletId : WalletId) (peakHeight : UInt32) :
    Script SqliteWalletStore (WalletResult Unit) :=
  .query fun db =>
    let current := fetchPeak db walletId
    .execute (setPeakAbsolute · walletId (if current ≤ peakHeight then peakHeight else current))
      (.done (.ok ()))

open SqliteWalletStore in
def sqlSetSyncStatus (walletId : WalletId) (lifecycle : SyncLifecycle) (target : UInt32) :
    Script SqliteWalletStore (WalletResult Unit) :=
  .execute (upsertSyncStatus · walletId lifecycle target) (.done (.ok ()))

open SqliteWalletStore in
def sqlUpsertCat (walletId : WalletId) (record : CatRecord) :
    Script SqliteWalletStore (WalletResult Unit) :=
  .execute (upsertCatRow · walletId record) (.done (.ok ()))

open SqliteWalletStore in
def sqlUpsertNft (walletId : WalletId) (record : NftRecord) :
    Script SqliteWalletStore (WalletResult Unit) :=
  .execute (upsertNftRow · walletId record) (.done (.ok ()))

open SqliteWalletStore in
def sqlUpsertDid (walletId : WalletId) (record : DidRecord) :
    Script SqliteWalletStore (WalletResult Unit) :=
  .execute (upsertDidRow · walletId record) (.done (.ok ()))

open SqliteWalletStore in
def sqlRecordTransaction (walletId : WalletId) (record : TransactionRecord) :
    Script SqliteWalletStore (WalletResult Unit) :=
  .execute (insertTransaction · walletId record) (.done (.ok ()))

/-! ## Calls on either store -/

/-- A call of the mutation surface both stores have. -/
inductive StoreCall
  | applyCoinState (walletId : WalletId) (record : CoinRecord)
  | rollbackTo (walletId : WalletId) (forkHeight : UInt32)
  | setPeak (walletId : WalletId) (peakHeight : UInt32)
  | setSyncStatus (walletId : WalletId) (lifecycle : SyncLifecycle) (target : UInt32)
  | upsertCat (walletId : WalletId) (record : CatRecord)
  | upsertNft (walletId : WalletId) (record : NftRecord)
  | upsertDid (walletId : WalletId) (record : DidRecord)
  | recordTransaction (walletId : WalletId) (record : TransactionRecord)

/-- What a call returns; the affected ids are a set. -/
inductive StoreReturn
  | change (change : CoinChange)
  | affected (coinIds : Finset String)
  | unit
deriving DecidableEq

namespace StoreCall

/-- The call on the in-memory store. -/
def onMemory (store : InMemoryWalletStore) : StoreCall → InMemoryWalletStore × StoreReturn
  | applyCoinState w record =>
    let out := (store.wallet w).applyCoinState record
    (store.setWallet w out.1, .change out.2)
  | rollbackTo w forkHeight =>
    let out := (store.wallet w).rollbackTo forkHeight
    (store.setWallet w out.1, .affected out.2.toFinset)
  | setPeak w peakHeight => (store.setWallet w ((store.wallet w).setPeak peakHeight), .unit)
  | setSyncStatus w lifecycle target =>
    (store.setWallet w ((store.wallet w).setSyncStatus lifecycle target), .unit)
  | upsertCat w record => (store.setWallet w ((store.wallet w).upsertCat record), .unit)
  | upsertNft w record => (store.setWallet w ((store.wallet w).upsertNft record), .unit)
  | upsertDid w record => (store.setWallet w ((store.wallet w).upsertDid record), .unit)
  | recordTransaction w record =>
    (store.setWallet w ((store.wallet w).recordTransaction record), .unit)

/-- The result type of a script, as a `StoreReturn`. -/
def returned {α : Type} (f : α → StoreReturn) (out : SqliteWalletStore × WalletResult α) :
    SqliteWalletStore × WalletResult StoreReturn := (out.1, out.2.map f)

/-- The call on the SQLite store. -/
def onSqlite (db : SqliteWalletStore) : StoreCall → SqliteWalletStore × WalletResult StoreReturn
  | applyCoinState w record => returned .change ((sqlApplyCoinState w record).run db)
  | rollbackTo w forkHeight =>
    returned (fun ids => .affected ids.toFinset) ((sqlRollbackTo w forkHeight).run db)
  | setPeak w peakHeight => returned (fun _ => .unit) ((sqlSetPeak w peakHeight).run db)
  | setSyncStatus w lifecycle target =>
    returned (fun _ => .unit) ((sqlSetSyncStatus w lifecycle target).run db)
  | upsertCat w record => returned (fun _ => .unit) ((sqlUpsertCat w record).run db)
  | upsertNft w record => returned (fun _ => .unit) ((sqlUpsertNft w record).run db)
  | upsertDid w record => returned (fun _ => .unit) ((sqlUpsertDid w record).run db)
  | recordTransaction w record =>
    returned (fun _ => .unit) ((sqlRecordTransaction w record).run db)

end StoreCall

end DigWallet
