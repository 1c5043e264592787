import Mathlib.Data.Finset.Sort
import Mathlib.Data.Fintype.Defs
import Mathlib.Data.PNat.Defs
import DigWallet.Engine.Records
import DigWallet.Lib.Sorting
import DigWallet.Lib.Table

/-!
# DigWallet.Engine.Events — the emitter and its two logs

`EventSink` with the four steps of `publish`, the ring behind `DeltaLog::catch_up`, and the table
behind `SqliteDeltaLog`.
-/

namespace DigWallet

/-! ## Events -/

inductive EventKind
  | fundsReceived
  | fundsSent
  | coinStateChanged
  | confirmation
  | transactionFailed
  | newTip
  | syncProgress
  | catInfo
  | didInfo
  | nftData
  | derivation
deriving DecidableEq

/-- `EnumSet::all()`. -/
instance : Fintype EventKind where
  elems := {.fundsReceived, .fundsSent, .coinStateChanged, .confirmation, .transactionFailed,
    .newTip, .syncProgress, .catInfo, .didInfo, .nftData, .derivation}
  complete kind := by cases kind <;> decide

/-- A wallet event.  The last three payloads are never built or read by the wallet. -/
inductive WalletEvent
  | fundsReceived (walletId : WalletId) (asset : Option AssetId) (amount : Amount)
      (coinId : String) (confirmedHeight : UInt32)
  | fundsSent (walletId : WalletId) (asset : Option AssetId) (amount : Amount) (txId : String)
      (confirmedHeight : UInt32)
  | coinStateChanged (coinId : String) (spent : Bool) (createdHeight spentHeight : Option UInt32)
  | confirmation (txId : String) (height : UInt32)
  | transactionFailed (txId error : String)
  | newTip (height : UInt32) (headerHash : String)
  | syncProgress (walletId : WalletId) (state : SyncLifecycle) (peakHeight targetHeight : UInt32)
  | derivation (walletId : WalletId) (index : UInt32)
  | catInfo (payload : String)
  | didInfo (payload : String)
  | nftData (payload : String)
deriving DecidableEq

namespace WalletEvent

def kind : WalletEvent → EventKind
  | fundsReceived .. => .fundsReceived
  | fundsSent .. => .fundsSent
  | coinStateChanged .. => .coinStateChanged
  | confirmation .. => .confirmation
  | transactionFailed .. => .transactionFailed
  | newTip .. => .newTip
  | syncProgress .. => .syncProgress
  | derivation .. => .derivation
  | catInfo .. => .catInfo
  | didInfo .. => .didInfo
  | nftData .. => .nftData

/-- The filter rule of the live stream and of catch-up. -/
def isMatch (event : WalletEvent) (filter : Finset EventKind) : Bool := event.kind ∈ filter

@[simp] theorem isMatch_univ (event : WalletEvent) : event.isMatch Finset.univ = true :=
  decide_eq_true (Finset.mem_univ _)

end WalletEvent

structure EmittedEvent where
  cursor : UInt64
  event : WalletEvent
deriving DecidableEq

/-! ## The durable log -/

def storageErr (message : String) : WalletError := ⟨.storage, message⟩

/-- A `u64` binds to an SQL integer only below `2^63`. -/
def sqlInteger (n : UInt64) : WalletResult UInt64 :=
  if n.toNat < 2 ^ 63 then .ok n else .error (storageErr "number too large to fit in target type")

/-- The `events` table.  A row's JSON text is kept as the event it is read back as. -/
structure SqliteDeltaLog where
  events : Table UInt64 WalletEvent
deriving DecidableEq

namespace SqliteDeltaLog

/-- A log opened for the first time. -/
def fresh : SqliteDeltaLog := ⟨Table.empty⟩

/-- `INSERT … ON CONFLICT(cursor) DO NOTHING`. -/
def append (log : SqliteDeltaLog) (emitted : EmittedEvent) : WalletResult SqliteDeltaLog := do
  let cursor ← sqlInteger emitted.cursor
  .ok ⟨log.events.insertNew cursor emitted.event⟩

/-- `SELECT … WHERE cursor > since ORDER BY cursor`, then the kind filter. -/
def catchUp (log : SqliteDeltaLog) (since : UInt64) (filter : Finset EventKind) :
    WalletResult (List EmittedEvent) := do
  let since ← sqlInteger since
  let rows := (log.events.rows.filter fun row => since < row.1).insertionSort fun a b => a.1 ≤ b.1
  .ok ((rows.map fun row => ⟨row.1, row.2⟩).filter fun emitted => emitted.event.isMatch filter)

end SqliteDeltaLog

/-! ## The emitter -/

structure EventSink where
  /-- Everything handed to the broadcast channel, in order. -/
  sent : List EmittedEvent
  /-- How many of them the channel still holds for a slow receiver. -/
  capacity : ℕ
  nextCursor : UInt64
  history : List EmittedEvent
  historyCapacity : ℕ
  persistent : Option SqliteDeltaLog
deriving DecidableEq

namespace EventSink

/-- Cursors start at 1; the channel rounds its capacity up to a power of two, and there is none of
capacity 0. -/
def build (capacity : ℕ+) (historyCapacity : ℕ) (persistent : Option SqliteDeltaLog) : EventSink where
  sent := []
  capacity := (capacity : ℕ).nextPowerOfTwo
  nextCursor := 1
  history := []
  historyCapacity := historyCapacity
  persistent := persistent

def withHistoryCapacity (capacity : ℕ+) (historyCapacity : ℕ) : EventSink :=
  build capacity historyCapacity none

def withPersistentLog (capacity : ℕ+) (historyCapacity : ℕ) (persistent : SqliteDeltaLog) : EventSink :=
  build capacity historyCapacity (some persistent)

/-! ### The steps of `publish` -/

/-- `next_cursor.fetch_add(1)`. -/
def fetchAdd (sink : EventSink) : EventSink := { sink with nextCursor := sink.nextCursor + 1 }

/-- `let _ = persistent.append(&emitted)`. -/
def appendDurable (sink : EventSink) (emitted : EmittedEvent) : EventSink :=
  { sink with
    persistent := sink.persistent.map fun log =>
      match log.append emitted with
      | .ok log => log
      | .error _ => log }

/-- The ring under its lock: the oldest goes when it is exactly full. -/
def pushRing (sink : EventSink) (emitted : EmittedEvent) : EventSink :=
  { sink with
    history :=
      (if sink.history.length = sink.historyCapacity then sink.history.tail else sink.history) ++
        [emitted] }

/-- `sender.send(emitted)`. -/
def send (sink : EventSink) (emitted : EmittedEvent) : EventSink :=
  { sink with sent := sink.sent ++ [emitted] }

/-- `record`. -/
def record (sink : EventSink) (emitted : EmittedEvent) : EventSink :=
  (sink.appendDurable emitted).pushRing emitted

/-- What `publish` makes of an event. -/
def stamp (sink : EventSink) (event : WalletEvent) : EmittedEvent := ⟨sink.nextCursor, event⟩

def publish (sink : EventSink) (event : WalletEvent) : EventSink × UInt64 :=
  let emitted := sink.stamp event
  ((sink.fetchAdd.record emitted).send emitted, emitted.cursor)

/-- `DeltaLog::catch_up`. -/
def catchUp (sink : EventSink) (since : UInt64) (filter : Finset EventKind) : List EmittedEvent :=
  (sink.history.filter fun emitted => since < emitted.cursor).filter fun emitted =>
    emitted.event.isMatch filter

end EventSink

end DigWallet
