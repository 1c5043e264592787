import DigWallet.Engine.Events
import DigWallet.Engine.State

/-!
# DigWallet.Engine.Sync — the sync loop

`SyncEngine`: ingestion of coin records, reorg rollback, and the routing between the peer and the
point-read fallback.  What a source answers is an argument; a call of `sync_with_fallback` takes the
answers to its point reads in the order it makes them.
-/

namespace DigWallet

/-- The store the engine writes, and every event it has published, in order. -/
structure SyncEngine where
  store : InMemoryWalletStore
  published : List WalletEvent

/-! ## Events of a change -/

def coinStateChanged (record : CoinRecord) : WalletEvent :=
  .coinStateChanged record.coinId record.spentHeight.isSome record.createdHeight record.spentHeight

/-- The value event of a change: inbound for a created coin, outbound for a spent one. -/
def fundsEvent (walletId : WalletId) (record : CoinRecord) : CoinChange → Option WalletEvent
  | .created =>
    record.createdHeight.map fun height =>
      .fundsReceived walletId none record.amount record.coinId height
  | .spent =>
    record.spentHeight.map fun height =>
      .fundsSent walletId none record.amount record.coinId height
  | .updated | .unchanged => none

/-- What `emit_for_change` publishes. -/
def changeEvents (walletId : WalletId) (record : CoinRecord) (change : CoinChange) :
    List WalletEvent :=
  if change = .unchanged then []
  else (fundsEvent walletId record change).toList ++ [coinStateChanged record]

namespace SyncEngine

def new : SyncEngine := ⟨.new, []⟩

variable (engine : SyncEngine) (walletId : WalletId)

/-- The engine's view of one wallet. -/
def wallet : WalletState := engine.store.wallet walletId

def setWallet (state : WalletState) : SyncEngine :=
  { engine with store := engine.store.setWallet walletId state }

def publish (events : List WalletEvent) : SyncEngine :=
  { engine with published := engine.published ++ events }

/-! ## Ingestion -/

/-- `apply_coin_state` and `emit_for_change`; whether anything changed. -/
def applyAndEmit (record : CoinRecord) : SyncEngine × Bool :=
  let out := (engine.wallet walletId).applyCoinState record
  ((engine.setWallet walletId out.1).publish (changeEvents walletId record out.2),
    out.2 ≠ .unchanged)

/-- The loop state of `ingest`. -/
structure IngestLoop where
  engine : SyncEngine
  changed : ℕ
  maxHeight : UInt32

def ingestTurn (loop : IngestLoop) (record : CoinRecord) : IngestLoop :=
  let out := loop.engine.applyAndEmit walletId record
  { engine := out.1
    changed := if out.2 then loop.changed + 1 else loop.changed
    maxHeight := max (max loop.maxHeight (record.createdHeight.getD 0)) (record.spentHeight.getD 0) }

def ingest (records : List CoinRecord) : SyncEngine × ℕ :=
  let loop := records.foldl (ingestTurn walletId) ⟨engine, 0, 0⟩
  (if 0 < loop.maxHeight then
      loop.engine.setWallet walletId ((loop.engine.wallet walletId).setPeak loop.maxHeight)
    else loop.engine,
    loop.changed)

/-! ## Progress and reorgs -/

def publishProgress (state : SyncLifecycle) (peak : UInt32) : SyncEngine :=
  engine.publish [.syncProgress walletId state peak peak]

/-- `set_sync_status` and `publish_progress`. -/
def progress (state : SyncLifecycle) (peak : UInt32) : SyncEngine :=
  (engine.setWallet walletId ((engine.wallet walletId).setSyncStatus state peak)).publishProgress
    walletId state peak

def markSynced : SyncEngine := engine.progress walletId .synced (engine.wallet walletId).peakHeight

/-- The event of a coin a rollback touched: its current store value, or nothing. -/
def revertedEvent (state : WalletState) (coinId : String) : WalletEvent :=
  let coin := state.coins.get? coinId
  .coinStateChanged coinId (coin.any fun c => c.spentHeight.isSome)
    (coin.bind CoinRecord.createdHeight) (coin.bind CoinRecord.spentHeight)

def handleReorg (forkHeight : UInt32) : SyncEngine × List String :=
  let out := (engine.wallet walletId).rollbackTo forkHeight
  let engine := (engine.setWallet walletId out.1).publish (out.2.map (revertedEvent out.1))
  (engine.progress walletId .syncing forkHeight, out.2)

/-! ## Sources -/

/-- What follows the answer of the peer in `sync_from_peer`. -/
def syncFromPeer (answer : WalletResult (List CoinRecord)) : SyncEngine × WalletResult ℕ :=
  match answer with
  | .error e => (engine, .error e)
  | .ok records =>
    let out := engine.ingest walletId records
    (out.1.markSynced walletId, .ok out.2)

/-- What follows the answer of the fallback in `resolve_via_fallback`. -/
def resolveViaFallback (answer : WalletResult (Option CoinRecord)) :
    SyncEngine × WalletResult (Option CoinRecord) :=
  match answer with
  | .error e => (engine, .error e)
  | .ok none => (engine, .ok none)
  | .ok (some record) => ((engine.ingest walletId [record]).1, .ok (some record))

/-- Local first; the answer is the fallback's, if it is asked. -/
def resolveCoin (coinId : String) (answer : WalletResult (Option CoinRecord)) :
    SyncEngine × WalletResult (Option CoinRecord) :=
  match (engine.wallet walletId).coins.get? coinId with
  | some record => (engine, .ok (some record))
  | none => engine.resolveViaFallback walletId answer

/-- The loop of `sync_with_fallback` over the point reads. -/
def resolveEach (walletId : WalletId) :
    SyncEngine → ℕ → List (WalletResult (Option CoinRecord)) → SyncEngine × WalletResult ℕ
  | engine, changed, [] => (engine, .ok changed)
  | engine, changed, answer :: answers =>
    let out := engine.resolveViaFallback walletId answer
    match out.2 with
    | .error e => (out.1, .error e)
    | .ok found =>
      resolveEach walletId out.1 (if found.isSome then changed + 1 else changed) answers

/-- `reads` are the answers to the point reads of `coin_ids`, in order. -/
def syncWithFallback (peer : WalletResult (List CoinRecord))
    (reads : List (WalletResult (Option CoinRecord))) : SyncEngine × WalletResult ℕ :=
  match peer with
  | .ok records =>
    let out := engine.ingest walletId records
    (out.1.markSynced walletId, .ok out.2)
  | .error e =>
    if e.code = .transport then resolveEach walletId engine 0 reads else (engine, .error e)

end SyncEngine

/-! ## Calls -/

/-- A call of the sync loop on one wallet, with the answers of its sources. -/
inductive SyncCall
  | ingest (records : List CoinRecord)
  | syncFromPeer (answer : WalletResult (List CoinRecord))
  | syncWithFallback (peer : WalletResult (List CoinRecord))
      (reads : List (WalletResult (Option CoinRecord)))
  | resolveCoin (coinId : String) (answer : WalletResult (Option CoinRecord))
  | handleReorg (forkHeight : UInt32)

/-- The engine after a call. -/
def SyncCall.perform (walletId : WalletId) (engine : SyncEngine) : SyncCall → SyncEngine
  | ingest records => (engine.ingest walletId records).1
  | syncFromPeer answer => (engine.syncFromPeer walletId answer).1
  | syncWithFallback peer reads => (engine.syncWithFallback walletId peer reads).1
  | resolveCoin coinId answer => (engine.resolveCoin walletId coinId answer).1
  | handleReorg forkHeight => (engine.handleReorg walletId forkHeight).1

end DigWallet
