import Mathlib.Order.Bounds.Basic
import DigWallet.Engine.Steps

/-!
# DigWallet.Engine.Peak — the processed peak

The history of a run keeps the fork height of the last reorg and the records ingested since.  The
peak is the greatest height among these, and no stored coin is created or spent above it.
-/

namespace DigWallet

def CoinRecord.Mentions (record : CoinRecord) (height : UInt32) : Prop :=
  record.createdHeight = some height ∨ record.spentHeight = some height

/-- The engine, the fork height of the last reorg, and the records delivered since. -/
structure Chronicle where
  engine : SyncEngine
  fork : UInt32
  ingested : List CoinRecord

namespace Chronicle

def new : Chronicle := ⟨.new, 0, []⟩

variable (w : WalletId)

def after (chronicle : Chronicle) (step : SyncStep) : Chronicle :=
  let engine := step.perform w chronicle.engine
  match step with
  | .deliver record => ⟨engine, chronicle.fork, chronicle.ingested ++ [record]⟩
  | .revert forkHeight => ⟨engine, forkHeight, []⟩
  | .raisePeak _ | .progress _ _ => ⟨engine, chronicle.fork, chronicle.ingested⟩

/-- A call, with what its steps add to the history. -/
def afterCall (chronicle : Chronicle) (call : SyncCall) : Chronicle :=
  let history := (call.steps w chronicle.engine).foldl (after w) chronicle
  ⟨call.perform w chronicle.engine, history.fork, history.ingested⟩

/-- The heights since the last reorg, its fork height included. -/
def heights (chronicle : Chronicle) : Set UInt32 :=
  {height | height = chronicle.fork ∨ ∃ record ∈ chronicle.ingested, record.Mentions height}

def peak (chronicle : Chronicle) : UInt32 := (chronicle.engine.wallet w).peakHeight

end Chronicle

/-! ## The greatest height of a batch -/

theorem max_height (height height' : UInt32) :
    height ≤ height' ∧ max height height' = height' ∨
      height' ≤ height ∧ max height height' = height := by
  by_cases hle : height ≤ height'
  · exact .inl ⟨hle, if_pos hle⟩
  · exact .inr ⟨(UInt32.le_total height height').resolve_left hle, if_neg hle⟩

theorem le_max_height (height height' : UInt32) :
    height ≤ max height height' ∧ height' ≤ max height height' := by
  rcases max_height height height' with ⟨hle, hmax⟩ | ⟨hle, hmax⟩
  · rw [hmax]
    exact ⟨hle, UInt32.le_refl _⟩
  · rw [hmax]
    exact ⟨UInt32.le_refl _, hle⟩

theorem max_height_zero (height : UInt32) : max height 0 = height := by
  rcases max_height height 0 with ⟨hle, hmax⟩ | ⟨-, hmax⟩
  · exact hmax.trans (UInt32.le_antisymm UInt32.zero_le hle)
  · exact hmax

theorem max_getD (height : UInt32) (mentioned : Option UInt32) :
    height ≤ max height (mentioned.getD 0) ∧
      (∀ h, mentioned = some h → h ≤ max height (mentioned.getD 0)) ∧
      (max height (mentioned.getD 0) = height ∨
        mentioned = some (max height (mentioned.getD 0))) := by
  cases mentioned with
  | none =>
    refine ⟨(le_max_height height 0).1, ?_, .inl (max_height_zero height)⟩
    intro h hh
    cases hh
  | some h =>
    refine ⟨(le_max_height height h).1, ?_, ?_⟩
    · intro h' hh
      exact Option.some.inj hh ▸ (le_max_height height h).2
    · rcases max_height height h with ⟨-, hmax⟩ | ⟨-, hmax⟩
      · exact .inr (congrArg some hmax.symm)
      · exact .inl hmax

theorem foldl_height (records : List CoinRecord) (start : UInt32) :
    let top := records.foldl (fun height record =>
      max (max height (record.createdHeight.getD 0)) (record.spentHeight.getD 0)) start
    start ≤ top ∧ (∀ record ∈ records, ∀ h, record.Mentions h → h ≤ top) ∧
      (top = start ∨ ∃ record ∈ records, record.Mentions top) := by
  induction records generalizing start with
  | nil =>
    refine ⟨UInt32.le_refl _, ?_, .inl rfl⟩
    intro record hrecord
    cases hrecord
  | cons record records ih =>
    obtain ⟨hstart, hcreated, hcreatedEq⟩ := max_getD start record.createdHeight
    obtain ⟨hmid, hspent, hspentEq⟩ :=
      max_getD (max start (record.createdHeight.getD 0)) record.spentHeight
    obtain ⟨htop, hrest, htopEq⟩ :=
      ih (max (max start (record.createdHeight.getD 0)) (record.spentHeight.getD 0))
    refine ⟨UInt32.le_trans (UInt32.le_trans hstart hmid) htop, ?_, ?_⟩
    · intro record' hrecord' h hmentions
      rcases List.mem_cons.mp hrecord' with rfl | hmem
      · rcases hmentions with hh | hh
        · exact UInt32.le_trans (UInt32.le_trans (hcreated h hh) hmid) htop
        · exact UInt32.le_trans (hspent h hh) htop
      · exact hrest record' hmem h hmentions
    · rw [List.foldl_cons]
      rcases htopEq with htopEq | ⟨record', hmem, hmentions⟩
      · rw [htopEq]
        rcases hspentEq with hspentEq | hspentEq
        · rw [hspentEq]
          rcases hcreatedEq with hcreatedEq | hcreatedEq
          · exact .inl hcreatedEq
          · exact .inr ⟨record, List.mem_cons_self, .inl hcreatedEq⟩
        · exact .inr ⟨record, List.mem_cons_self, .inr hspentEq⟩
      · exact .inr ⟨record', List.mem_cons_of_mem _ hmem, hmentions⟩

theorem le_batchHeight {records : List CoinRecord} {record : CoinRecord} {height : UInt32}
    (hrecord : record ∈ records) (h : record.Mentions height) : height ≤ batchHeight records :=
  (foldl_height records 0).2.1 record hrecord height h

theorem batchHeight_mentioned (records : List CoinRecord) :
    batchHeight records = 0 ∨ ∃ record ∈ records, record.Mentions (batchHeight records) :=
  (foldl_height records 0).2.2

/-! ## The invariant -/

section Invariant

variable {w : WalletId} {chronicle : Chronicle}

/-- The peak is the greatest height of the history, and bounds the heights of every stored coin. -/
structure PeakInv (w : WalletId) (chronicle : Chronicle) : Prop where
  exact : IsGreatest chronicle.heights (chronicle.peak w)
  bounds : ∀ id coin, (chronicle.engine.wallet w).coins.get? id = some coin →
    ∀ height, coin.Mentions height → height ≤ chronicle.peak w

theorem peakInv_new : PeakInv w .new where
  exact := by
    refine ⟨.inl rfl, ?_⟩
    rintro height (rfl | ⟨record, hrecord, -⟩)
    · exact UInt32.le_refl _
    · cases hrecord
  bounds id coin hget := by cases hget

theorem engine_chronicle (chronicle : Chronicle) (step : SyncStep) :
    (chronicle.after w step).engine = step.perform w chronicle.engine := by
  cases step <;> rfl

theorem foldl_deliver (records : List CoinRecord) (chronicle : Chronicle) :
    let out := (records.map SyncStep.deliver).foldl (Chronicle.after w) chronicle
    out.peak w = chronicle.peak w ∧ out.fork = chronicle.fork ∧
      out.ingested = chronicle.ingested ++ records ∧
      ∀ id coin, (out.engine.wallet w).coins.get? id = some coin →
        (chronicle.engine.wallet w).coins.get? id = some coin ∨ coin ∈ records := by
  induction records generalizing chronicle with
  | nil => exact ⟨rfl, rfl, (List.append_nil _).symm, fun id coin hget => .inl hget⟩
  | cons record records ih =>
    obtain ⟨hpeak, hfork, hingested, hcoins⟩ := ih (chronicle.after w (.deliver record))
    refine ⟨?_, hfork, ?_, ?_⟩
    · refine hpeak.trans ?_
      unfold Chronicle.peak
      rw [engine_chronicle, wallet_deliver]
      rfl
    · exact hingested.trans (List.append_assoc _ _ _)
    · intro id coin hget
      rcases hcoins id coin hget with hold | hmem
      · rw [engine_chronicle, get?_deliver] at hold
        by_cases hid : record.coinId = id
        · rw [if_pos hid] at hold
          obtain rfl := Option.some.inj hold
          exact .inr List.mem_cons_self
        · rw [if_neg hid] at hold
          exact .inl hold
      · exact .inr (List.mem_cons_of_mem _ hmem)

theorem peak_raisePeak (height : UInt32) :
    (chronicle.after w (.raisePeak height)).peak w = max (chronicle.peak w) height := by
  unfold Chronicle.peak
  rw [engine_chronicle, wallet_raisePeak]
  rfl

/-- Ingesting a batch: the records, then the peak raised to the greatest height among them. -/
theorem foldl_ingestSteps (records : List CoinRecord) (chronicle : Chronicle) :
    let out := (ingestSteps records).foldl (Chronicle.after w) chronicle
    out.peak w = max (chronicle.peak w) (batchHeight records) ∧ out.fork = chronicle.fork ∧
      out.ingested = chronicle.ingested ++ records ∧
      ∀ id coin, (out.engine.wallet w).coins.get? id = some coin →
        (chronicle.engine.wallet w).coins.get? id = some coin ∨ coin ∈ records := by
  obtain ⟨hpeak, hfork, hingested, hcoins⟩ := foldl_deliver (w := w) records chronicle
  unfold ingestSteps
  rw [List.foldl_append]
  generalize (records.map SyncStep.deliver).foldl (Chronicle.after w) chronicle = delivered
    at hpeak hfork hingested hcoins ⊢
  by_cases hraise : 0 < batchHeight records
  · rw [if_pos hraise]
    refine ⟨?_, hfork, hingested, fun id coin hget => hcoins id coin ?_⟩
    · rw [← hpeak]
      exact peak_raisePeak (batchHeight records)
    · rwa [List.foldl_cons, List.foldl_nil, engine_chronicle, wallet_raisePeak] at hget
  · rw [if_neg hraise]
    have hzero : batchHeight records = 0 :=
      UInt32.le_antisymm (UInt32.not_lt.mp hraise) UInt32.zero_le
    rw [hzero, max_height_zero]
    exact ⟨hpeak, hfork, hingested, hcoins⟩

theorem peakInv_ingest (h : PeakInv w chronicle) (records : List CoinRecord) :
    PeakInv w ((ingestSteps records).foldl (Chronicle.after w) chronicle) := by
  obtain ⟨hpeak, hfork, hingested, hcoins⟩ := foldl_ingestSteps (w := w) records chronicle
  generalize (ingestSteps records).foldl (Chronicle.after w) chronicle = out
    at hpeak hfork hingested hcoins ⊢
  obtain ⟨hold, hnew⟩ : chronicle.peak w ≤ out.peak w ∧ batchHeight records ≤ out.peak w := by
    rw [hpeak]
    exact le_max_height _ _
  refine ⟨⟨?_, ?_⟩, ?_⟩
  · show out.peak w = out.fork ∨ ∃ record ∈ out.ingested, record.Mentions (out.peak w)
    rw [hfork, hingested, hpeak]
    have hkept : chronicle.peak w = chronicle.fork ∨
        ∃ record ∈ chronicle.ingested ++ records, record.Mentions (chronicle.peak w) := by
      rcases h.exact.1 with hfork | ⟨record, hrecord, hmentions⟩
      · exact .inl hfork
      · exact .inr ⟨record, List.mem_append_left _ hrecord, hmentions⟩
    rcases batchHeight_mentioned records with hzero | ⟨record, hrecord, hmentions⟩
    · rw [hzero, max_height_zero]
      exact hkept
    · rcases max_height (chronicle.peak w) (batchHeight records) with ⟨-, hmax⟩ | ⟨-, hmax⟩
      · rw [hmax]
        exact .inr ⟨record, List.mem_append_right _ hrecord, hmentions⟩
      · rw [hmax]
        exact hkept
  · rintro height (rfl | ⟨record, hrecord, hmentions⟩)
    · rw [hfork]
      exact UInt32.le_trans (h.exact.2 (.inl rfl)) hold
    · rw [hingested] at hrecord
      rcases List.mem_append.mp hrecord with hmem | hmem
      · exact UInt32.le_trans (h.exact.2 (.inr ⟨record, hmem, hmentions⟩)) hold
      · exact UInt32.le_trans (le_batchHeight hmem hmentions) hnew
  · intro id coin hget height hmentions
    rcases hcoins id coin hget with hbefore | hmem
    · exact UInt32.le_trans (h.bounds id coin hbefore height hmentions) hold
    · exact UInt32.le_trans (le_batchHeight hmem hmentions) hnew

theorem peakInv_progress (h : PeakInv w chronicle) (state : SyncLifecycle) (peak : UInt32) :
    PeakInv w (chronicle.after w (.progress state peak)) := by
  have hwallet : (chronicle.after w (.progress state peak)).engine.wallet w =
      (chronicle.engine.wallet w).setSyncStatus state peak := by
    rw [engine_chronicle, wallet_progress]
  have hpeak : (chronicle.after w (.progress state peak)).peak w = chronicle.peak w := by
    unfold Chronicle.peak
    rw [hwallet]
    rfl
  constructor
  · rw [hpeak]
    exact h.exact
  · intro id coin hget height hmentions
    rw [hwallet] at hget
    rw [hpeak]
    exact h.bounds id coin hget height hmentions

/-- A height that is not above the fork is at most the fork. -/
theorem le_of_not_above {forkHeight height : UInt32} (h : ¬ above forkHeight (some height) = true) :
    height ≤ forkHeight := by
  have hlt : ¬ forkHeight < height := fun hlt => h (decide_eq_true hlt)
  exact UInt32.not_lt.mp hlt

/-- A rollback leaves nothing above the fork. -/
theorem mentions_rollbackTo {state : WalletState} {forkHeight height : UInt32} {id : String}
    {coin : CoinRecord} (hget : (state.rollbackTo forkHeight).1.coins.get? id = some coin)
    (h : coin.Mentions height) : height ≤ forkHeight := by
  obtain ⟨before, -, hcreated, ⟨-, rfl⟩ | ⟨hspent, rfl⟩⟩ := WalletState.rollbackTo_cases hget
  · rcases h with hheight | hheight
    · refine le_of_not_above ?_
      rw [← hheight]
      exact Bool.eq_false_iff.mp hcreated
    · cases hheight
  · refine le_of_not_above ?_
    rcases h with hheight | hheight
    · rw [← hheight]
      exact Bool.eq_false_iff.mp hcreated
    · rw [← hheight]
      exact Bool.eq_false_iff.mp hspent

theorem peakInv_revert (forkHeight : UInt32) :
    PeakInv w (chronicle.after w (.revert forkHeight)) := by
  have hwallet : (chronicle.after w (.revert forkHeight)).engine.wallet w =
      ((chronicle.engine.wallet w).rollbackTo forkHeight).1 := by
    rw [engine_chronicle, wallet_revert]
  have hpeak : (chronicle.after w (.revert forkHeight)).peak w = forkHeight := by
    unfold Chronicle.peak
    rw [hwallet]
    rfl
  constructor
  · rw [hpeak]
    refine ⟨.inl rfl, ?_⟩
    rintro height (rfl | ⟨record, hrecord, -⟩)
    · exact UInt32.le_refl _
    · cases hrecord
  · intro id coin hget height hmentions
    rw [hwallet] at hget
    rw [hpeak]
    exact mentions_rollbackTo hget hmentions

/-! ### Calls and runs -/

theorem peakInv_reads (h : PeakInv w chronicle) (answer : WalletResult (Option CoinRecord)) :
    PeakInv w ((readSteps answer).foldl (Chronicle.after w) chronicle) := by
  cases answer with
  | error e => exact h
  | ok found =>
    cases found with
    | none => exact h
    | some record => exact peakInv_ingest h [record]

theorem peakInv_eachRead (h : PeakInv w chronicle)
    (answers : List (WalletResult (Option CoinRecord))) :
    PeakInv w ((eachReadSteps answers).foldl (Chronicle.after w) chronicle) := by
  induction answers generalizing chronicle with
  | nil => exact h
  | cons answer answers ih =>
    cases answer with
    | error e => exact h
    | ok found =>
      show PeakInv w (List.foldl _ chronicle (readSteps (.ok found) ++ eachReadSteps answers))
      rw [List.foldl_append]
      exact ih (peakInv_reads h (.ok found))

theorem peakInv_synced (h : PeakInv w chronicle) (records : List CoinRecord) :
    PeakInv w ((syncedSteps w chronicle.engine records).foldl (Chronicle.after w) chronicle) := by
  unfold syncedSteps
  rw [List.foldl_append]
  exact peakInv_progress (peakInv_ingest h records) .synced _

theorem peakInv_steps (h : PeakInv w chronicle) (call : SyncCall) :
    PeakInv w ((call.steps w chronicle.engine).foldl (Chronicle.after w) chronicle) := by
  cases call with
  | ingest records => exact peakInv_ingest h records
  | syncFromPeer answer =>
    cases answer with
    | error e => exact h
    | ok records => exact peakInv_synced h records
  | syncWithFallback peer reads =>
    cases peer with
    | ok records => exact peakInv_synced h records
    | error e =>
      show PeakInv w (List.foldl _ chronicle (if e.code = .transport then eachReadSteps reads else []))
      by_cases htransport : e.code = .transport
      · rw [if_pos htransport]
        exact peakInv_eachRead h reads
      · rw [if_neg htransport]
        exact h
  | resolveCoin coinId answer =>
    show PeakInv w (List.foldl _ chronicle
      (if ((chronicle.engine.wallet w).coins.get? coinId).isSome then [] else readSteps answer))
    by_cases hstored : ((chronicle.engine.wallet w).coins.get? coinId).isSome = true
    · rw [if_pos hstored]
      exact h
    · rw [if_neg hstored]
      exact peakInv_reads h answer
  | handleReorg forkHeight =>
    exact peakInv_progress (peakInv_revert forkHeight) .syncing forkHeight

theorem engine_foldl_after (steps : List SyncStep) (chronicle : Chronicle) :
    (steps.foldl (Chronicle.after w) chronicle).engine =
      SyncStep.performAll w chronicle.engine steps :=
  (List.foldl_hom Chronicle.engine fun chronicle step => (engine_chronicle chronicle step).symm).symm

theorem peakInv_afterCall (h : PeakInv w chronicle) (call : SyncCall) :
    PeakInv w (chronicle.afterCall w call) := by
  have hafter : chronicle.afterCall w call =
      (call.steps w chronicle.engine).foldl (Chronicle.after w) chronicle := by
    have hengine := engine_foldl_after (w := w) (call.steps w chronicle.engine) chronicle
    unfold Chronicle.afterCall
    rw [perform_eq, ← hengine]
  rw [hafter]
  exact peakInv_steps h call

theorem peakInv_run (h : PeakInv w chronicle) (calls : List SyncCall) :
    PeakInv w (calls.foldl (Chronicle.afterCall w) chronicle) :=
  List.foldlRecOn calls _ h fun _ hchronicle call _ => peakInv_afterCall hchronicle call

theorem engine_run (calls : List SyncCall) (chronicle : Chronicle) :
    (calls.foldl (Chronicle.afterCall w) chronicle).engine =
      calls.foldl (SyncCall.perform w) chronicle.engine :=
  (List.foldl_hom Chronicle.engine fun _ _ => rfl).symm

end Invariant

/-- After every run of calls the peak is the greatest of the last reorg's fork height and the
heights in the records ingested since, and bounds the heights of every stored coin. -/
theorem peak_exact (w : WalletId) (calls : List SyncCall) :
    let engine := calls.foldl (SyncCall.perform w) .new
    let chronicle := calls.foldl (Chronicle.afterCall w) .new
    chronicle.engine = engine ∧
      IsGreatest chronicle.heights (engine.wallet w).peakHeight ∧
      ∀ id coin, (engine.wallet w).coins.get? id = some coin →
        (∀ height, coin.createdHeight = some height → height ≤ (engine.wallet w).peakHeight) ∧
        ∀ height, coin.spentHeight = some height → height ≤ (engine.wallet w).peakHeight := by
  intro engine chronicle
  have hengine : chronicle.engine = engine := engine_run calls .new
  have h : PeakInv w chronicle := peakInv_run peakInv_new calls
  have hpeak : chronicle.peak w = (engine.wallet w).peakHeight :=
    congrArg (fun e : SyncEngine => (e.wallet w).peakHeight) hengine
  refine ⟨hengine, hpeak ▸ h.exact, ?_⟩
  intro id coin hget
  rw [← hengine] at hget
  rw [← hpeak]
  exact ⟨fun height hh => h.bounds id coin hget height (.inl hh),
    fun height hh => h.bounds id coin hget height (.inr hh)⟩

end DigWallet
