import DigWallet.Engine.Persist

/-!
# DigWallet.Engine.Rows — what either store holds for a wallet

`WalletRows` is a wallet's data as functions of the key, and each mutation is one operation on it.
The in-memory mutation and the SQLite mutation both refine that operation, so the two stores mirror
each other along every sequence of calls (`mirrors_call`).
-/

namespace DigWallet

open Text Totals SqliteWalletStore

/-! ## A wallet's rows -/

/-- The contents of one wallet, as functions of the key. -/
@[ext] structure WalletRows where
  coin : String → Option CoinRow
  cat : String → Option CatRow
  nft : String → Option (Option String)
  did : String → Option (Option String)
  history : List TransactionRecord
  sync : SyncRow

def catRow (record : CatRecord) : CatRow := ⟨toString record.balance.mojos.toNat, record.name⟩

/-- The row of a wallet that never synced. -/
def idleRow : SyncRow := ⟨0, 0, .idle⟩

/-- The row under one key replaced. -/
def upsert {V : Type} (row : String → Option V) (key : String) (value : V) : String → Option V :=
  fun key' => if key = key' then some value else row key'

/-- A reorg's effect on one coin row: forgotten, un-spent or kept. -/
def revertRow (forkHeight : UInt32) (row : CoinRow) : Option CoinRow :=
  if above forkHeight row.createdHeight then none
  else if above forkHeight row.spentHeight then some { row with spentHeight := none }
  else some row

/-- A rollback's effect on a coin, in either store's form of it: forgotten, un-spent or kept. -/
def revertWith {C : Type} (created spent : C → Option UInt32) (unspend : C → C) (forkHeight : UInt32)
    (coin : C) : Option C :=
  if above forkHeight (created coin) then none
  else if above forkHeight (spent coin) then some (unspend coin)
  else some coin

def revertCoin : UInt32 → CoinRecord → Option CoinRecord :=
  revertWith CoinRecord.createdHeight CoinRecord.spentHeight fun coin =>
    { coin with spentHeight := none }

theorem revertRow_eq : revertRow =
    revertWith CoinRow.createdHeight CoinRow.spentHeight fun row => { row with spentHeight := none } :=
  rfl

theorem map_coinRow_revertCoin (forkHeight : UInt32) (coin : CoinRecord) :
    (revertCoin forkHeight coin).map coinRow = revertRow forkHeight (coinRow coin) := by
  unfold revertCoin revertWith
  rw [apply_ite (Option.map coinRow), apply_ite (Option.map coinRow)]
  rfl

namespace WalletRows

variable (rows : WalletRows)

def rollbackTo (forkHeight : UInt32) : WalletRows :=
  { rows with
    coin := fun id => (rows.coin id).bind (revertRow forkHeight)
    sync := { rows.sync with peakHeight := forkHeight } }

def setPeak (peakHeight : UInt32) : WalletRows :=
  { rows with
    sync := { rows.sync with
      peakHeight := if rows.sync.peakHeight ≤ peakHeight then peakHeight else rows.sync.peakHeight } }

def setSyncStatus (lifecycle : SyncLifecycle) (target : UInt32) : WalletRows :=
  { rows with sync := { rows.sync with targetHeight := target, lifecycle := lifecycle } }

/-- The coins a reorg touches. -/
def Affected (forkHeight : UInt32) (id : String) : Prop :=
  ∃ row, rows.coin id = some row ∧
    (above forkHeight row.createdHeight = true ∨ above forkHeight row.spentHeight = true)

end WalletRows

/-- The wallet a call is about. -/
def StoreCall.walletId : StoreCall → WalletId
  | applyCoinState w _ | rollbackTo w _ | setPeak w _ | setSyncStatus w _ _ | upsertCat w _
  | upsertNft w _ | upsertDid w _ | recordTransaction w _ => w

/-- What a call does to the rows of its wallet. -/
def StoreCall.onRows (rows : WalletRows) : StoreCall → WalletRows
  | applyCoinState _ record =>
    { rows with coin := upsert rows.coin record.coinId (coinRow record) }
  | rollbackTo _ forkHeight => rows.rollbackTo forkHeight
  | setPeak _ peakHeight => rows.setPeak peakHeight
  | setSyncStatus _ lifecycle target => rows.setSyncStatus lifecycle target
  | upsertCat _ record => { rows with cat := upsert rows.cat record.assetId.text (catRow record) }
  | upsertNft _ record => { rows with nft := upsert rows.nft record.launcherId record.dataUri }
  | upsertDid _ record => { rows with did := upsert rows.did record.launcherId record.name }
  | recordTransaction _ record => { rows with history := rows.history ++ [record] }

/-! ## The in-memory store -/

def WalletState.rows (state : WalletState) : WalletRows where
  coin id := (state.coins.get? id).map coinRow
  cat id := (state.cats.get? id).map catRow
  nft id := (state.nfts.get? id).map NftRecord.dataUri
  did id := (state.dids.get? id).map DidRecord.name
  history := state.history
  sync := ⟨state.peakHeight, state.targetHeight, state.lifecycle⟩

/-- Every record is stored under its own id. -/
structure WalletState.Keyed (state : WalletState) : Prop where
  coins : ∀ id record, state.coins.get? id = some record → record.coinId = id
  cats : ∀ id record, state.cats.get? id = some record → record.assetId.text = id
  nfts : ∀ id record, state.nfts.get? id = some record → record.launcherId = id
  dids : ∀ id record, state.dids.get? id = some record → record.launcherId = id

/-- The state a call leaves its wallet in. -/
def StoreCall.onState (state : WalletState) : StoreCall → WalletState
  | applyCoinState _ record => (state.applyCoinState record).1
  | rollbackTo _ forkHeight => (state.rollbackTo forkHeight).1
  | setPeak _ peakHeight => state.setPeak peakHeight
  | setSyncStatus _ lifecycle target => state.setSyncStatus lifecycle target
  | upsertCat _ record => state.upsertCat record
  | upsertNft _ record => state.upsertNft record
  | upsertDid _ record => state.upsertDid record
  | recordTransaction _ record => state.recordTransaction record

theorem onMemory_fst (store : InMemoryWalletStore) (call : StoreCall) :
    (call.onMemory store).1 =
      store.setWallet call.walletId (call.onState (store.wallet call.walletId)) := by
  cases call <;> rfl

theorem wallet_onMemory (store : InMemoryWalletStore) (call : StoreCall) (w : WalletId) :
    (call.onMemory store).1.wallet w =
      if call.walletId = w then call.onState (store.wallet w) else store.wallet w := by
  rw [onMemory_fst, InMemoryWalletStore.wallet_setWallet]
  by_cases h : call.walletId = w
  · rw [if_pos h, if_pos h, h]
  · rw [if_neg h, if_neg h]

theorem get?_rollbackTo_eq (state : WalletState) (forkHeight : UInt32) (id : String) :
    (state.rollbackTo forkHeight).1.coins.get? id =
      (state.coins.get? id).bind (revertCoin forkHeight) := by
  rw [WalletState.get?_rollbackTo]
  cases state.coins.get? id with
  | none => rfl
  | some coin =>
    cases hcreated : above forkHeight coin.createdHeight <;>
      cases hspent : above forkHeight coin.spentHeight <;>
      simp [revertCoin, revertWith, hcreated, hspent]

theorem map_get?_put {V R : Type} (t : Table String V) (key : String) (value : V) (row : V → R) :
    (fun id => ((t.put key value).get? id).map row) =
      upsert (fun id => (t.get? id).map row) key (row value) := by
  funext id
  unfold upsert
  rw [Table.get?_put]
  by_cases h : key = id
  · rw [if_pos h, if_pos h, Option.map_some]
  · rw [if_neg h, if_neg h]

/-- The in-memory store refines the operation on rows. -/
theorem rows_onState (state : WalletState) (call : StoreCall) :
    (call.onState state).rows = call.onRows state.rows := by
  cases call with
  | applyCoinState _ record =>
    refine WalletRows.ext ?_ rfl rfl rfl rfl rfl
    exact map_get?_put state.coins record.coinId record coinRow
  | rollbackTo _ forkHeight =>
    refine WalletRows.ext ?_ rfl rfl rfl rfl rfl
    funext id
    show ((state.rollbackTo forkHeight).1.coins.get? id).map coinRow =
      ((state.coins.get? id).map coinRow).bind (revertRow forkHeight)
    rw [get?_rollbackTo_eq]
    cases state.coins.get? id with
    | none => rfl
    | some coin => exact map_coinRow_revertCoin forkHeight coin
  | setPeak | setSyncStatus | recordTransaction => rfl
  | upsertCat _ record =>
    refine WalletRows.ext rfl ?_ rfl rfl rfl rfl
    exact map_get?_put state.cats record.assetId.text record catRow
  | upsertNft _ record =>
    refine WalletRows.ext rfl rfl ?_ rfl rfl rfl
    exact map_get?_put state.nfts record.launcherId record NftRecord.dataUri
  | upsertDid _ record =>
    refine WalletRows.ext rfl rfl rfl ?_ rfl rfl
    exact map_get?_put state.dids record.launcherId record DidRecord.name

theorem keyed_put {V : Type} {t : Table String V} {key : V → String} (value : V)
    (h : ∀ id v, t.get? id = some v → key v = id) :
    ∀ id v, (t.put (key value) value).get? id = some v → key v = id := by
  intro id v hget
  rw [Table.get?_put] at hget
  by_cases hkey : key value = id
  · rw [if_pos hkey] at hget
    rw [← Option.some.inj hget, hkey]
  · rw [if_neg hkey] at hget
    exact h id v hget

theorem keyed_onState {state : WalletState} (h : state.Keyed) (call : StoreCall) :
    (call.onState state).Keyed := by
  cases call with
  | applyCoinState _ record => exact { h with coins := keyed_put record h.coins }
  | rollbackTo _ forkHeight =>
    refine { h with coins := ?_ }
    intro id coin hget
    obtain ⟨before, hbefore, -, ⟨-, rfl⟩ | ⟨-, rfl⟩⟩ := WalletState.rollbackTo_cases hget
    · exact h.coins id before hbefore
    · exact h.coins id coin hbefore
  | setPeak | setSyncStatus | recordTransaction => exact { h with }
  | upsertCat _ record => exact { h with cats := keyed_put record h.cats }
  | upsertNft _ record => exact { h with nfts := keyed_put record h.nfts }
  | upsertDid _ record => exact { h with dids := keyed_put record h.dids }

/-! ## The SQLite store -/

def SqliteWalletStore.rows (db : SqliteWalletStore) (w : WalletId) : WalletRows where
  coin id := db.coins.get? (w, id)
  cat id := db.cats.get? (w, id)
  nft id := db.nfts.get? (w, id)
  did id := db.dids.get? (w, id)
  history := db.history w
  sync := (db.syncState.get? w).getD idleRow

section Statements

variable (db : SqliteWalletStore) (w w' : WalletId)

theorem get?_put_pair {V : Type} (t : Table (WalletId × String) V) (key : String) (value : V) :
    (fun id => (t.put (w, key) value).get? (w', id)) =
      if w = w' then upsert (fun id => t.get? (w', id)) key value else fun id => t.get? (w', id) := by
  funext id
  rw [Table.get?_put]
  by_cases hw : w = w'
  · subst hw
    simp [upsert]
  · have hne : ¬ (w, key) = (w', id) := fun h => hw (congrArg Prod.fst h)
    rw [if_neg hne, if_neg hw]

variable {w w'} in
/-- A statement writes the rows of one wallet. -/
theorem rows_write {X : Type} (write : X → WalletRows) {x written kept : X}
    (h : x = if w = w' then written else kept) :
    write x = if w = w' then write written else write kept := by
  rw [h, apply_ite write]

theorem rows_upsertCoinRow (record : CoinRecord) :
    (upsertCoinRow db w record).rows w' =
      if w = w' then { db.rows w' with coin := upsert (db.rows w').coin record.coinId (coinRow record) }
      else db.rows w' := by
  have hput := get?_put_pair w w' db.coins record.coinId (coinRow record)
  exact rows_write (fun coin => { db.rows w' with coin := coin }) hput

theorem rows_upsertCatRow (record : CatRecord) :
    (upsertCatRow db w record).rows w' =
      if w = w' then { db.rows w' with cat := upsert (db.rows w').cat record.assetId.text (catRow record) }
      else db.rows w' := by
  have hput := get?_put_pair w w' db.cats record.assetId.text (catRow record)
  exact rows_write (fun cat => { db.rows w' with cat := cat }) hput

theorem rows_upsertNftRow (record : NftRecord) :
    (upsertNftRow db w record).rows w' =
      if w = w' then { db.rows w' with nft := upsert (db.rows w').nft record.launcherId record.dataUri }
      else db.rows w' := by
  have hput := get?_put_pair w w' db.nfts record.launcherId record.dataUri
  exact rows_write (fun nft => { db.rows w' with nft := nft }) hput

theorem rows_upsertDidRow (record : DidRecord) :
    (upsertDidRow db w record).rows w' =
      if w = w' then { db.rows w' with did := upsert (db.rows w').did record.launcherId record.name }
      else db.rows w' := by
  have hput := get?_put_pair w w' db.dids record.launcherId record.name
  exact rows_write (fun did => { db.rows w' with did := did }) hput

theorem rows_insertTransaction (record : TransactionRecord) :
    (insertTransaction db w record).rows w' =
      if w = w' then { db.rows w' with history := (db.rows w').history ++ [record] }
      else db.rows w' := by
  have hhistory : (insertTransaction db w record).history w' =
      if w = w' then db.history w' ++ [record] else db.history w' := by
    unfold insertTransaction history
    rw [List.filter_append, List.map_append]
    by_cases hw : w = w'
    · simp [hw]
    · simp [hw]
  exact rows_write (fun history => { db.rows w' with history := history }) hhistory

/-- A statement on `sync_state` that writes one row. -/
theorem rows_putSync (row : SyncRow) :
    ({ db with syncState := db.syncState.put w row } : SqliteWalletStore).rows w' =
      if w = w' then { db.rows w' with sync := row } else db.rows w' := by
  have hput : (db.syncState.put w row).get? w' = if w = w' then some row else db.syncState.get? w' :=
    Table.get?_put
  exact rows_write (fun sync => { db.rows w' with sync := sync.getD idleRow }) hput

theorem rows_setPeakAbsolute (peak : UInt32) :
    (setPeakAbsolute db w peak).rows w' =
      if w = w' then { db.rows w' with sync := { (db.rows w').sync with peakHeight := peak } }
      else db.rows w' := by
  unfold setPeakAbsolute
  rw [rows_putSync]
  by_cases hw : w = w'
  · subst hw
    rw [if_pos rfl, if_pos rfl]
    show _ = { db.rows w with
      sync := { (db.syncState.get? w).getD idleRow with peakHeight := peak } }
    cases db.syncState.get? w <;> rfl
  · rw [if_neg hw, if_neg hw]

theorem rows_upsertSyncStatus (lifecycle : SyncLifecycle) (target : UInt32) :
    (upsertSyncStatus db w lifecycle target).rows w' =
      if w = w' then (db.rows w').setSyncStatus lifecycle target else db.rows w' := by
  unfold upsertSyncStatus
  rw [rows_putSync]
  by_cases hw : w = w'
  · subst hw
    rw [if_pos rfl, if_pos rfl]
    show _ = { db.rows w with
      sync := { (db.syncState.get? w).getD idleRow with
        targetHeight := target, lifecycle := lifecycle } }
    cases db.syncState.get? w <;> rfl
  · rw [if_neg hw, if_neg hw]

theorem fetchPeak_eq : db.fetchPeak w = (db.rows w).sync.peakHeight := by
  unfold fetchPeak SqliteWalletStore.rows
  cases db.syncState.get? w <;> rfl

theorem coin_deleteCreatedAbove (forkHeight : UInt32) (id : String) :
    (deleteCreatedAbove db w forkHeight).coins.get? (w', id) =
      (db.coins.get? (w', id)).filter fun row =>
        !(decide (w' = w) && above forkHeight row.createdHeight) :=
  Table.get?_keep

theorem coin_unspendAbove (forkHeight : UInt32) (id : String) :
    (unspendAbove db w forkHeight).coins.get? (w', id) =
      (db.coins.get? (w', id)).map fun row =>
        if decide (w' = w) && above forkHeight row.spentHeight then
          { row with spentHeight := none }
        else row :=
  Table.get?_alter

/-- The three writes of a rollback. -/
def revert (forkHeight : UInt32) : SqliteWalletStore :=
  setPeakAbsolute (unspendAbove (deleteCreatedAbove db w forkHeight) w forkHeight) w forkHeight

theorem rows_revert (forkHeight : UInt32) :
    (revert db w forkHeight).rows w' =
      if w = w' then (db.rows w').rollbackTo forkHeight else db.rows w' := by
  have hcoin : ∀ id, (unspendAbove (deleteCreatedAbove db w forkHeight) w forkHeight).coins.get? (w', id) =
      if w = w' then (db.coins.get? (w', id)).bind (revertRow forkHeight)
      else db.coins.get? (w', id) := by
    intro id
    rw [coin_unspendAbove, coin_deleteCreatedAbove]
    by_cases hw : w = w'
    · subst hw
      rw [if_pos rfl]
      cases db.coins.get? (w, id) with
      | none => rfl
      | some row =>
        cases hcreated : above forkHeight row.createdHeight <;>
          cases hspent : above forkHeight row.spentHeight <;>
          simp [revertRow, hcreated, hspent]
    · have hne : ¬ w' = w := fun h => hw h.symm
      rw [if_neg hw]
      cases db.coins.get? (w', id) with
      | none => rfl
      | some row => simp [hne]
  unfold revert
  rw [rows_setPeakAbsolute]
  by_cases hw : w = w'
  · rw [if_pos hw, if_pos hw]
    refine WalletRows.ext ?_ rfl rfl rfl rfl rfl
    funext id
    exact (hcoin id).trans (if_pos hw)
  · rw [if_neg hw, if_neg hw]
    refine WalletRows.ext ?_ rfl rfl rfl rfl rfl
    funext id
    exact (hcoin id).trans (if_neg hw)

end Statements

/-! ## Equal rows -/

section Reads

variable {state : WalletState} {db : SqliteWalletStore} {w : WalletId}

theorem parseAmount_toString (mojos : UInt64) : parseAmount (toString mojos.toNat) = .ok mojos := by
  unfold parseAmount
  rw [parseU64_repr]

theorem rowToCoin_coinRow (record : CoinRecord) :
    rowToCoin record.coinId (coinRow record) = .ok record := by
  unfold rowToCoin coinRow
  rw [parseAmount_toString]
  rfl

theorem rowToCat_catRow (record : CatRecord) :
    rowToCat record.assetId.text (catRow record) = .ok record := by
  unfold rowToCat catRow
  rw [parseAmount_toString]
  rfl

theorem fetchCoin_eq (hrows : db.rows w = state.rows) (hkeyed : state.Keyed) (id : String) :
    db.fetchCoin w id = .ok (state.coins.get? id) := by
  have hcoin : db.coins.get? (w, id) = (state.coins.get? id).map coinRow :=
    congrFun (congrArg WalletRows.coin hrows) id
  unfold fetchCoin
  rw [hcoin]
  cases hget : state.coins.get? id with
  | none => rfl
  | some record =>
    have hid := hkeyed.coins id record hget
    have hrow : rowToCoin id (coinRow record) = .ok record := hid ▸ rowToCoin_coinRow record
    show (do Except.ok (some (← rowToCoin id (coinRow record)))) = _
    rw [hrow]
    rfl

theorem run_sqlApplyCoinState {record : CoinRecord} {previous : Option CoinRecord}
    (h : db.fetchCoin w record.coinId = .ok previous) :
    (sqlApplyCoinState w record).run db =
      (upsertCoinRow db w record, .ok (classifyCoinChange previous record)) := by
  simp only [sqlApplyCoinState, Script.run, h]

theorem mem_queryCoinIds {p : CoinRow → Bool} {id : String} :
    id ∈ db.queryCoinIds w p ↔ ∃ row, db.coins.get? (w, id) = some row ∧ p row = true := by
  unfold queryCoinIds
  rw [Table.mem_keysWhere, Table.get?_slice]

theorem affected_rows (forkHeight : UInt32) (id : String) :
    state.rows.Affected forkHeight id ↔ id ∈ (state.rollbackTo forkHeight).2 := by
  show (∃ row, (state.coins.get? id).map coinRow = some row ∧ _) ↔ _
  rw [WalletState.mem_rollbackTo]
  constructor
  · rintro ⟨row, hrow, habove⟩
    obtain ⟨coin, hcoin, rfl⟩ := Option.map_eq_some_iff.mp hrow
    exact ⟨coin, hcoin, habove⟩
  · rintro ⟨coin, hcoin, habove⟩
    exact ⟨coinRow coin, congrArg (Option.map coinRow) hcoin, habove⟩

theorem mem_sqlRollbackTo (forkHeight : UInt32) (id : String) :
    (id ∈ db.queryCoinIds w (fun row => above forkHeight row.createdHeight) ∨
      id ∈ (deleteCreatedAbove db w forkHeight).queryCoinIds w
        (fun row => above forkHeight row.spentHeight)) ↔
      (db.rows w).Affected forkHeight id := by
  rw [mem_queryCoinIds, mem_queryCoinIds]
  simp only [coin_deleteCreatedAbove]
  show _ ↔ ∃ row, db.coins.get? (w, id) = some row ∧ _
  cases db.coins.get? (w, id) with
  | none => simp
  | some row =>
    cases hcreated : above forkHeight row.createdHeight <;>
      simp [hcreated]

end Reads

/-! ## One call -/

/-- Either store holds the same rows for every wallet. -/
def Mirrors (mem : InMemoryWalletStore) (db : SqliteWalletStore) : Prop :=
  ∀ w, db.rows w = (mem.wallet w).rows ∧ (mem.wallet w).Keyed

theorem mirrors_new : Mirrors .new .fresh := by
  intro w
  refine ⟨rfl, ⟨?_, ?_, ?_, ?_⟩⟩ <;>
  · intro id record h
    cases h

section Calls

variable {mem : InMemoryWalletStore} {db : SqliteWalletStore}

/-- The SQLite store refines the operation on rows. -/
theorem rows_onSqlite (hmirrors : Mirrors mem db) (call : StoreCall) (w : WalletId) :
    (call.onSqlite db).1.rows w =
      if call.walletId = w then call.onRows (db.rows w) else db.rows w := by
  cases call with
  | applyCoinState w₀ record =>
    have hfetch := fetchCoin_eq (hmirrors w₀).1 (hmirrors w₀).2 record.coinId
    show ((sqlApplyCoinState w₀ record).run db).1.rows w = _
    rw [run_sqlApplyCoinState hfetch]
    exact rows_upsertCoinRow db w₀ w record
  | rollbackTo w₀ forkHeight => exact rows_revert db w₀ w forkHeight
  | setPeak w₀ peakHeight =>
    show (setPeakAbsolute db w₀ _).rows w = _
    rw [rows_setPeakAbsolute, fetchPeak_eq]
    by_cases hw : w₀ = w
    · rw [hw]
      rfl
    · have hw' : ¬ StoreCall.walletId (.setPeak w₀ peakHeight) = w := hw
      rw [if_neg hw, if_neg hw']
  | setSyncStatus w₀ lifecycle target => exact rows_upsertSyncStatus db w₀ w lifecycle target
  | upsertCat w₀ record => exact rows_upsertCatRow db w₀ w record
  | upsertNft w₀ record => exact rows_upsertNftRow db w₀ w record
  | upsertDid w₀ record => exact rows_upsertDidRow db w₀ w record
  | recordTransaction w₀ record => exact rows_insertTransaction db w₀ w record

theorem returned_onSqlite (hmirrors : Mirrors mem db) (call : StoreCall) :
    (call.onSqlite db).2 = .ok (call.onMemory mem).2 := by
  cases call with
  | applyCoinState w record =>
    have hfetch := fetchCoin_eq (hmirrors w).1 (hmirrors w).2 record.coinId
    show (((sqlApplyCoinState w record).run db).2).map StoreReturn.change = _
    rw [run_sqlApplyCoinState hfetch]
    rfl
  | rollbackTo w forkHeight =>
    show Except.ok (StoreReturn.affected (_ : List String).dedup.toFinset) =
      Except.ok (StoreReturn.affected ((mem.wallet w).rollbackTo forkHeight).2.toFinset)
    congr 2
    ext id
    rw [List.mem_toFinset, List.mem_toFinset, List.mem_dedup, List.mem_append, mem_sqlRollbackTo,
      (hmirrors w).1, affected_rows]
  | setPeak | setSyncStatus | upsertCat | upsertNft | upsertDid | recordTransaction => rfl

theorem mirrors_call (hmirrors : Mirrors mem db) (call : StoreCall) :
    Mirrors (call.onMemory mem).1 (call.onSqlite db).1 := by
  intro w
  rw [rows_onSqlite hmirrors, wallet_onMemory]
  by_cases hw : call.walletId = w
  · rw [if_pos hw, if_pos hw, rows_onState, (hmirrors w).1]
    exact ⟨rfl, keyed_onState (hmirrors w).2 call⟩
  · rw [if_neg hw, if_neg hw]
    exact hmirrors w

end Calls

end DigWallet
