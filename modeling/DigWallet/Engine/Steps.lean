import Mathlib.Data.List.Basic
import DigWallet.Engine.Sync

/-!
# DigWallet.Engine.Steps — the steps a call of the sync loop is made of

Every call is a sequence of four kinds of step: one record applied, the peak advanced, the status
set, a reorg reverted.  An invariant is proved of a step and holds of every run of calls
(`perform_eq`).
-/

namespace DigWallet

inductive SyncStep
  | deliver (record : CoinRecord)
  | raisePeak (height : UInt32)
  | progress (state : SyncLifecycle) (peak : UInt32)
  | revert (forkHeight : UInt32)

section Steps

variable (w : WalletId)

namespace SyncStep

def perform (engine : SyncEngine) : SyncStep → SyncEngine
  | deliver record => (engine.applyAndEmit w record).1
  | raisePeak height => engine.setWallet w ((engine.wallet w).setPeak height)
  | progress state peak => engine.progress w state peak
  | revert forkHeight =>
    let out := (engine.wallet w).rollbackTo forkHeight
    (engine.setWallet w out.1).publish (out.2.map (SyncEngine.revertedEvent out.1))

/-- The steps performed one after the other. -/
def performAll (engine : SyncEngine) (steps : List SyncStep) : SyncEngine :=
  steps.foldl (perform w) engine

@[simp] theorem performAll_nil (engine : SyncEngine) : performAll w engine [] = engine := rfl

@[simp] theorem performAll_cons (engine : SyncEngine) (step : SyncStep) (steps : List SyncStep) :
    performAll w engine (step :: steps) = performAll w (step.perform w engine) steps := rfl

theorem performAll_append (engine : SyncEngine) (steps steps' : List SyncStep) :
    performAll w engine (steps ++ steps') = performAll w (performAll w engine steps) steps' :=
  List.foldl_append

end SyncStep

open SyncStep

/-- The greatest height a batch mentions, 0 if none. -/
def batchHeight (records : List CoinRecord) : UInt32 :=
  records.foldl
    (fun height record => max (max height (record.createdHeight.getD 0)) (record.spentHeight.getD 0)) 0

def ingestSteps (records : List CoinRecord) : List SyncStep :=
  records.map .deliver ++ if 0 < batchHeight records then [.raisePeak (batchHeight records)] else []

/-- The steps that follow the answer to a point read. -/
def readSteps : WalletResult (Option CoinRecord) → List SyncStep
  | .ok (some record) => ingestSteps [record]
  | _ => []

/-- The loop stops at the first failed read. -/
def eachReadSteps : List (WalletResult (Option CoinRecord)) → List SyncStep
  | [] => []
  | .error _ :: _ => []
  | .ok found :: answers => readSteps (.ok found) ++ eachReadSteps answers

/-- Ingestion of what the peer answered, then `mark_synced` at the peak it left. -/
def syncedSteps (engine : SyncEngine) (records : List CoinRecord) : List SyncStep :=
  ingestSteps records ++
    [.progress .synced ((performAll w engine (ingestSteps records)).wallet w).peakHeight]

def SyncCall.steps (engine : SyncEngine) : SyncCall → List SyncStep
  | ingest records => ingestSteps records
  | syncFromPeer (.ok records) => syncedSteps w engine records
  | syncFromPeer (.error _) => []
  | syncWithFallback (.ok records) _ => syncedSteps w engine records
  | syncWithFallback (.error e) reads => if e.code = .transport then eachReadSteps reads else []
  | resolveCoin coinId answer =>
    if ((engine.wallet w).coins.get? coinId).isSome then [] else readSteps answer
  | handleReorg forkHeight => [.revert forkHeight, .progress .syncing forkHeight]

/-! ## A call is its steps -/

theorem foldl_ingestTurn (records : List CoinRecord) (loop : SyncEngine.IngestLoop) :
    (records.foldl (SyncEngine.ingestTurn w) loop).engine =
        performAll w loop.engine (records.map .deliver) ∧
      (records.foldl (SyncEngine.ingestTurn w) loop).maxHeight =
        records.foldl (fun height record =>
          max (max height (record.createdHeight.getD 0)) (record.spentHeight.getD 0))
          loop.maxHeight := by
  induction records generalizing loop with
  | nil => exact ⟨rfl, rfl⟩
  | cons record records ih => exact ih (SyncEngine.ingestTurn w loop record)

theorem ingest_eq (engine : SyncEngine) (records : List CoinRecord) :
    (engine.ingest w records).1 = performAll w engine (ingestSteps records) := by
  obtain ⟨hengine, hheight⟩ := foldl_ingestTurn w records ⟨engine, 0, 0⟩
  unfold SyncEngine.ingest ingestSteps batchHeight
  simp only [hengine, hheight]
  rw [performAll_append]
  by_cases hmax : 0 < records.foldl (fun height record =>
      max (max height (record.createdHeight.getD 0)) (record.spentHeight.getD 0)) 0
  · rw [if_pos hmax, if_pos hmax]
    rfl
  · rw [if_neg hmax, if_neg hmax]
    rfl

theorem markSynced_ingest_eq (engine : SyncEngine) (records : List CoinRecord) :
    (engine.ingest w records).1.markSynced w =
      performAll w engine (syncedSteps w engine records) := by
  unfold syncedSteps
  rw [performAll_append, ← ingest_eq]
  rfl

theorem resolveViaFallback_eq (engine : SyncEngine) (answer : WalletResult (Option CoinRecord)) :
    (engine.resolveViaFallback w answer).1 = performAll w engine (readSteps answer) := by
  cases answer with
  | error e => rfl
  | ok found =>
    cases found with
    | none => rfl
    | some record => exact ingest_eq w engine [record]

theorem resolveEach_eq (engine : SyncEngine) (changed : ℕ)
    (answers : List (WalletResult (Option CoinRecord))) :
    (SyncEngine.resolveEach w engine changed answers).1 =
      performAll w engine (eachReadSteps answers) := by
  induction answers generalizing engine changed with
  | nil => rfl
  | cons answer answers ih =>
    have hread := resolveViaFallback_eq w engine answer
    unfold SyncEngine.resolveEach
    cases answer with
    | error e => rfl
    | ok found =>
      have hresult : (engine.resolveViaFallback w (.ok found)).2 = .ok found := by
        cases found <;> rfl
      simp only [hresult]
      rw [ih, hread]
      exact (performAll_append w engine _ _).symm

/-- A call performs its steps. -/
theorem perform_eq (engine : SyncEngine) (call : SyncCall) :
    call.perform w engine = performAll w engine (call.steps w engine) := by
  cases call with
  | ingest records => exact ingest_eq w engine records
  | syncFromPeer answer =>
    cases answer with
    | error e => rfl
    | ok records => exact markSynced_ingest_eq w engine records
  | syncWithFallback peer reads =>
    cases peer with
    | ok records => exact markSynced_ingest_eq w engine records
    | error e =>
      show (if e.code = .transport then SyncEngine.resolveEach w engine 0 reads
        else (engine, .error e)).1 = performAll w engine (if e.code = .transport then _ else [])
      by_cases htransport : e.code = .transport
      · rw [if_pos htransport, if_pos htransport]
        exact resolveEach_eq w engine 0 reads
      · rw [if_neg htransport, if_neg htransport]
        rfl
  | resolveCoin coinId answer =>
    show (engine.resolveCoin w coinId answer).1 = performAll w engine
      (if ((engine.wallet w).coins.get? coinId).isSome then [] else readSteps answer)
    unfold SyncEngine.resolveCoin
    cases (engine.wallet w).coins.get? coinId with
    | none => exact resolveViaFallback_eq w engine answer
    | some record => rfl
  | handleReorg forkHeight => rfl

/-- What every step preserves holds after a run of calls. -/
theorem run_invariant {Inv : SyncEngine → Prop}
    (hstep : ∀ {engine} (step : SyncStep), Inv engine → Inv (step.perform w engine))
    {engine : SyncEngine} (h : Inv engine) (calls : List SyncCall) :
    Inv (calls.foldl (SyncCall.perform w) engine) := by
  refine List.foldlRecOn calls _ h fun engine hengine call _ => ?_
  rw [perform_eq]
  exact List.foldlRecOn _ _ hengine fun engine hengine step _ => hstep step hengine

end Steps

/-! ## What a step does to the coins -/

section Coins

variable {w : WalletId} {engine : SyncEngine}

@[simp] theorem wallet_setWallet_self (state : WalletState) :
    (engine.setWallet w state).wallet w = state := by
  unfold SyncEngine.wallet SyncEngine.setWallet
  rw [InMemoryWalletStore.wallet_setWallet, if_pos rfl]

@[simp] theorem wallet_publish (events : List WalletEvent) :
    (engine.publish events).wallet w = engine.wallet w := rfl

theorem wallet_deliver (record : CoinRecord) :
    ((SyncStep.deliver record).perform w engine).wallet w =
      ((engine.wallet w).applyCoinState record).1 := by
  show ((engine.setWallet w _).publish _).wallet w = _
  rw [wallet_publish, wallet_setWallet_self]

/-- A delivered record is stored under its id. -/
theorem get?_deliver (record : CoinRecord) (id : String) :
    (((SyncStep.deliver record).perform w engine).wallet w).coins.get? id =
      if record.coinId = id then some record else (engine.wallet w).coins.get? id := by
  rw [wallet_deliver]
  exact Table.get?_put

theorem wallet_raisePeak (height : UInt32) :
    ((SyncStep.raisePeak height).perform w engine).wallet w = (engine.wallet w).setPeak height :=
  wallet_setWallet_self _

theorem wallet_progress (state : SyncLifecycle) (peak : UInt32) :
    ((SyncStep.progress state peak).perform w engine).wallet w =
      (engine.wallet w).setSyncStatus state peak := by
  show ((engine.setWallet w _).publish _).wallet w = _
  rw [wallet_publish, wallet_setWallet_self]

theorem wallet_revert (forkHeight : UInt32) :
    ((SyncStep.revert forkHeight).perform w engine).wallet w =
      ((engine.wallet w).rollbackTo forkHeight).1 := by
  show ((engine.setWallet w _).publish _).wallet w = _
  rw [wallet_publish, wallet_setWallet_self]

end Coins

end DigWallet
