import Mathlib.Data.Set.Card
import DigWallet.Engine.Peak
import DigWallet.Engine.Replayed

/-!
# DigWallet.Engine.Fallback — the point reads against the peer

`sync_with_fallback` ingests the peer's answer as one batch, or each record by itself when the peer
is out of reach.  The coins, the peak and the events agree (`paths_agree`); the number returned by the
point reads is the number of records.
-/

namespace DigWallet

/-- The events of a coin change. -/
def changeKinds : Finset EventKind := {.fundsReceived, .fundsSent, .coinStateChanged}

section Fallback

variable (w : WalletId)

/-- How many coins have another record, or none, in `after`. -/
noncomputable def changedCoins (engine after : SyncEngine) : ℕ :=
  Set.ncard {id | (engine.wallet w).coins.get? id ≠ (after.wallet w).coins.get? id}

/-- Both paths leave the same coins, peak and change events, and return the number of coins that
changed. -/
structure SameSync (engine : SyncEngine) (peer peer' : WalletResult (List CoinRecord))
    (reads : List (WalletResult (Option CoinRecord))) : Prop where
  coins : ((engine.syncWithFallback w peer reads).1.wallet w).coins =
    ((engine.syncWithFallback w peer' reads).1.wallet w).coins
  peak : ((engine.syncWithFallback w peer reads).1.wallet w).peakHeight =
    ((engine.syncWithFallback w peer' reads).1.wallet w).peakHeight
  events : (engine.syncWithFallback w peer reads).1.published.filter (·.isMatch changeKinds) =
    (engine.syncWithFallback w peer' reads).1.published.filter (·.isMatch changeKinds)
  counts : ∃ changed,
    (engine.syncWithFallback w peer reads).2 = .ok changed ∧
    (engine.syncWithFallback w peer' reads).2 = .ok changed ∧
    changed = changedCoins w engine (engine.syncWithFallback w peer reads).1

end Fallback

open SyncStep

section Paths

variable {w : WalletId} {engine engine' : SyncEngine} {records : List CoinRecord}

/-! ## Coins and events -/

/-- Two engines alike up to the peak. -/
structure AlikeUpToPeak (w : WalletId) (engine engine' : SyncEngine) : Prop where
  coins : (engine.wallet w).coins = (engine'.wallet w).coins
  published : engine.published = engine'.published

theorem alike_refl (w : WalletId) (engine : SyncEngine) : AlikeUpToPeak w engine engine := ⟨rfl, rfl⟩

theorem alike_deliver (h : AlikeUpToPeak w engine engine') (record : CoinRecord) :
    AlikeUpToPeak w ((deliver record).perform w engine) ((deliver record).perform w engine') := by
  constructor
  · rw [wallet_deliver, wallet_deliver]
    show (engine.wallet w).coins.put _ _ = (engine'.wallet w).coins.put _ _
    rw [h.coins]
  · show engine.published ++ changeEvents w record
        (classifyCoinChange ((engine.wallet w).coins.get? record.coinId) record) = _
    rw [h.coins, h.published]
    rfl

theorem alike_raisePeak (h : AlikeUpToPeak w engine engine') (height : UInt32) :
    AlikeUpToPeak w engine ((raisePeak height).perform w engine') := by
  constructor
  · rw [wallet_raisePeak]
    exact h.coins
  · exact h.published

theorem alike_deliverAll (h : AlikeUpToPeak w engine engine') (records : List CoinRecord) :
    AlikeUpToPeak w (performAll w engine (records.map .deliver))
      (performAll w engine' (records.map .deliver)) := by
  induction records generalizing engine engine' with
  | nil => exact h
  | cons record records ih => exact ih (alike_deliver h record)

/-- The batch: its records, up to the peak. -/
theorem alike_ingestSteps (h : AlikeUpToPeak w engine engine') (records : List CoinRecord) :
    AlikeUpToPeak w (performAll w engine (records.map .deliver))
      (performAll w engine' (ingestSteps records)) := by
  have hdelivered := alike_deliverAll h records
  unfold ingestSteps
  rw [performAll_append]
  by_cases hraise : 0 < batchHeight records
  · rw [if_pos hraise]
    exact alike_raisePeak hdelivered _
  · rw [if_neg hraise]
    exact hdelivered

/-- What a fallback that knows every record answers. -/
def foundReads (records : List CoinRecord) : List (WalletResult (Option CoinRecord)) :=
  records.map fun record => .ok (some record)

/-- The point reads: the records one by one, up to the peak. -/
theorem alike_eachRead (h : AlikeUpToPeak w engine engine') (records : List CoinRecord) :
    AlikeUpToPeak w (performAll w engine (records.map .deliver))
      (performAll w engine' (eachReadSteps (foundReads records))) := by
  induction records generalizing engine engine' with
  | nil => exact h
  | cons record records ih =>
    have hone := alike_ingestSteps h [record]
    show AlikeUpToPeak w (performAll w ((deliver record).perform w engine) _)
      (performAll w engine' (ingestSteps [record] ++ eachReadSteps (foundReads records)))
    rw [performAll_append]
    exact ih hone

/-! ## The peak -/

theorem toNat_max_height (height height' : UInt32) :
    (max height height').toNat = max height.toNat height'.toNat := by
  rcases max_height height height' with ⟨hle, hmax⟩ | ⟨hle, hmax⟩
  · rw [hmax, Nat.max_eq_right (UInt32.le_iff_toNat_le.mp hle)]
  · rw [hmax, Nat.max_eq_left (UInt32.le_iff_toNat_le.mp hle)]

theorem max_height_assoc (a b c : UInt32) : max (max a b) c = max a (max b c) := by
  apply UInt32.toNat_inj.mp
  simp only [toNat_max_height]
  omega

theorem batchHeight_cons (record : CoinRecord) (records : List CoinRecord) :
    batchHeight (record :: records) = max (batchHeight [record]) (batchHeight records) := by
  have hstart : ∀ (records : List CoinRecord) (a b : UInt32),
      records.foldl (fun height record =>
        max (max height (record.createdHeight.getD 0)) (record.spentHeight.getD 0)) (max a b) =
      max a (records.foldl (fun height record =>
        max (max height (record.createdHeight.getD 0)) (record.spentHeight.getD 0)) b) := by
    intro records
    induction records with
    | nil => exact fun a b => rfl
    | cons record records ih =>
      intro a b
      rw [List.foldl_cons, List.foldl_cons, max_height_assoc a, max_height_assoc a, ih]
  have hrest := hstart records (batchHeight [record]) 0
  rw [max_height_zero] at hrest
  exact hrest

theorem peak_ingestSteps (engine : SyncEngine) (records : List CoinRecord) :
    ((performAll w engine (ingestSteps records)).wallet w).peakHeight =
      max (engine.wallet w).peakHeight (batchHeight records) := by
  have hpeak := (foldl_ingestSteps (w := w) records ⟨engine, 0, []⟩).1
  rw [← engine_foldl_after (ingestSteps records) ⟨engine, 0, []⟩]
  exact hpeak

/-- By induction on the records: the greatest height so far, one record at a time. -/
theorem peak_eachRead (engine : SyncEngine) (records : List CoinRecord) :
    ((performAll w engine (eachReadSteps (foundReads records))).wallet w).peakHeight =
      max (engine.wallet w).peakHeight (batchHeight records) := by
  induction records generalizing engine with
  | nil => exact (max_height_zero _).symm
  | cons record records ih =>
    show ((performAll w engine (ingestSteps [record] ++
      eachReadSteps (foundReads records))).wallet w).peakHeight = _
    rw [performAll_append, ih, peak_ingestSteps, batchHeight_cons record records, max_height_assoc]

/-! ## The numbers -/

/-- Whether the store holds another record, or none. -/
def SyncEngine.differs (engine : SyncEngine) (w : WalletId) (record : CoinRecord) : Bool :=
  (engine.wallet w).coins.get? record.coinId ≠ some record

theorem get?_deliverAll_of_notMem {id : String} (h : id ∉ records.map CoinRecord.coinId) :
    ((performAll w engine (records.map .deliver)).wallet w).coins.get? id =
      (engine.wallet w).coins.get? id := by
  induction records generalizing engine with
  | nil => rfl
  | cons record records ih =>
    obtain ⟨hne, hrest⟩ := not_or.mp (List.mem_cons.not.mp h)
    have hkept := @get?_deliver w engine record id
    rw [if_neg (Ne.symm hne)] at hkept
    exact (ih hrest).trans hkept

/-- Under distinct ids each record is what its coin ends as. -/
theorem get?_deliverAll_of_mem (hids : (records.map CoinRecord.coinId).Nodup)
    {record : CoinRecord} (h : record ∈ records) :
    ((performAll w engine (records.map .deliver)).wallet w).coins.get? record.coinId =
      some record := by
  induction records generalizing engine with
  | nil => exact absurd h List.not_mem_nil
  | cons first records ih =>
    obtain ⟨hfirst, hids⟩ := List.nodup_cons.mp hids
    rcases List.mem_cons.mp h with rfl | hmem
    · have hstored := @get?_deliver w engine record record.coinId
      rw [if_pos rfl] at hstored
      exact (get?_deliverAll_of_notMem hfirst).trans hstored
    · exact ih hids hmem

/-- The coins that changed are those of the records that differ. -/
theorem changedCoins_deliverAll (hids : (records.map CoinRecord.coinId).Nodup) :
    changedCoins w engine (performAll w engine (records.map .deliver)) =
      records.countP (engine.differs w) := by
  have hset : {id | (engine.wallet w).coins.get? id ≠
      ((performAll w engine (records.map .deliver)).wallet w).coins.get? id} =
      (((records.filter (engine.differs w)).map CoinRecord.coinId).toFinset : Set String) := by
    ext id
    rw [Finset.mem_coe, List.mem_toFinset]
    constructor
    · intro hchanged
      by_cases hid : id ∈ records.map CoinRecord.coinId
      · obtain ⟨record, hrecord, rfl⟩ := List.mem_map.mp hid
        refine List.mem_map_of_mem (List.mem_filter.mpr ⟨hrecord, decide_eq_true ?_⟩)
        rw [← get?_deliverAll_of_mem hids hrecord]
        exact hchanged
      · exact absurd (get?_deliverAll_of_notMem hid).symm hchanged
    · intro hid
      obtain ⟨record, hrecord, rfl⟩ := List.mem_map.mp hid
      obtain ⟨hrecord, hdiffers⟩ := List.mem_filter.mp hrecord
      show _ ≠ _
      rw [get?_deliverAll_of_mem hids hrecord]
      exact of_decide_eq_true hdiffers
  have hnodup : ((records.filter (engine.differs w)).map CoinRecord.coinId).Nodup :=
    hids.sublist (List.filter_sublist.map _)
  rw [changedCoins, hset, Set.ncard_coe_finset, List.toFinset_card_of_nodup hnodup,
    List.length_map, List.countP_eq_length_filter]

/-- `ingest` counts the records that differ. -/
theorem changed_foldl_ingestTurn (hids : (records.map CoinRecord.coinId).Nodup)
    (loop : SyncEngine.IngestLoop) :
    (records.foldl (SyncEngine.ingestTurn w) loop).changed =
      loop.changed + records.countP (loop.engine.differs w) := by
  induction records generalizing loop with
  | nil => rfl
  | cons record records ih =>
    obtain ⟨hfirst, hids⟩ := List.nodup_cons.mp hids
    have hkept : records.countP ((SyncEngine.ingestTurn w loop record).engine.differs w) =
        records.countP (loop.engine.differs w) := by
      refine List.countP_congr fun other hother => ?_
      have hne : record.coinId ≠ other.coinId := fun heq =>
        hfirst (heq ▸ List.mem_map_of_mem hother)
      have hget := @get?_deliver w loop.engine record other.coinId
      rw [if_neg hne] at hget
      have hsame : (SyncEngine.ingestTurn w loop record).engine.differs w other =
          loop.engine.differs w other := by
        unfold SyncEngine.differs
        rw [← hget]
        rfl
      rw [hsame]
    have hcount : (SyncEngine.ingestTurn w loop record).changed =
        loop.changed + if loop.engine.differs w record then 1 else 0 := by
      show (if (decide (classifyCoinChange ((loop.engine.wallet w).coins.get? record.coinId) record ≠
        .unchanged)) = true then loop.changed + 1 else loop.changed) = _
      unfold SyncEngine.differs
      simp only [ne_eq, decide_eq_true_eq, unchanged_iff]
      by_cases hsame : (loop.engine.wallet w).coins.get? record.coinId = some record
      · simp [hsame]
      · simp [hsame]
    rw [List.foldl_cons, ih hids, hkept, hcount, List.countP_cons]
    omega

/-- The point reads count every record. -/
theorem resolveEach_count (engine : SyncEngine) (counted : ℕ) (records : List CoinRecord) :
    (SyncEngine.resolveEach w engine counted (foundReads records)).2 =
      .ok (counted + records.length) := by
  induction records generalizing engine counted with
  | nil => rfl
  | cons record records ih =>
    have hrest := ih (engine.resolveViaFallback w (.ok (some record))).1 (counted + 1)
    rw [List.length_cons, Nat.add_comm records.length, ← Nat.add_assoc]
    exact hrest

/-! ## The two calls -/

theorem published_peer (engine : SyncEngine) (records : List CoinRecord)
    (reads : List (WalletResult (Option CoinRecord))) :
    (engine.syncWithFallback w (.ok records) reads).1.published.filter (·.isMatch changeKinds) =
      (performAll w engine (ingestSteps records)).published.filter (·.isMatch changeKinds) := by
  show ((engine.ingest w records).1.published ++ [WalletEvent.syncProgress ..]).filter _ = _
  rw [ingest_eq, List.filter_append]
  exact List.append_nil _

theorem wallet_peer (engine : SyncEngine) (records : List CoinRecord)
    (reads : List (WalletResult (Option CoinRecord))) :
    (engine.syncWithFallback w (.ok records) reads).1.wallet w =
      ((performAll w engine (ingestSteps records)).wallet w).setSyncStatus .synced
        ((performAll w engine (ingestSteps records)).wallet w).peakHeight := by
  show ((engine.ingest w records).1.markSynced w).wallet w = _
  rw [ingest_eq]
  exact wallet_progress _ _

theorem syncWithFallback_transport (engine : SyncEngine) {e : WalletError}
    (htransport : e.code = .transport) (reads : List (WalletResult (Option CoinRecord))) :
    engine.syncWithFallback w (.error e) reads = SyncEngine.resolveEach w engine 0 reads :=
  if_pos htransport

/-- The peer's number is the number of coins that changed. -/
theorem peer_count (hids : (records.map CoinRecord.coinId).Nodup)
    (reads : List (WalletResult (Option CoinRecord))) :
    (engine.syncWithFallback w (.ok records) reads).2 = .ok (records.countP (engine.differs w)) ∧
      changedCoins w engine (engine.syncWithFallback w (.ok records) reads).1 =
        records.countP (engine.differs w) := by
  constructor
  · have hcount := changed_foldl_ingestTurn (w := w) hids ⟨engine, 0, 0⟩
    rw [Nat.zero_add] at hcount
    exact congrArg Except.ok hcount
  · have halike := alike_ingestSteps (alike_refl w engine) records
    rw [← changedCoins_deliverAll hids]
    unfold changedCoins
    rw [wallet_peer, halike.coins]
    rfl

/-- Everything but the number agrees. -/
theorem paths_agree (engine : SyncEngine) {e : WalletError} (htransport : e.code = .transport)
    (records : List CoinRecord) :
    ((engine.syncWithFallback w (.ok records) (foundReads records)).1.wallet w).coins =
        ((engine.syncWithFallback w (.error e) (foundReads records)).1.wallet w).coins ∧
      ((engine.syncWithFallback w (.ok records) (foundReads records)).1.wallet w).peakHeight =
        ((engine.syncWithFallback w (.error e) (foundReads records)).1.wallet w).peakHeight ∧
      (engine.syncWithFallback w (.ok records) (foundReads records)).1.published.filter
          (·.isMatch changeKinds) =
        (engine.syncWithFallback w (.error e) (foundReads records)).1.published.filter
          (·.isMatch changeKinds) := by
  have hbatch := alike_ingestSteps (alike_refl w engine) records
  have hreads := alike_eachRead (alike_refl w engine) records
  rw [syncWithFallback_transport engine htransport, resolveEach_eq, published_peer, wallet_peer]
  refine ⟨hbatch.coins.symm.trans hreads.coins, ?_, ?_⟩
  · exact (peak_ingestSteps engine records).trans (peak_eachRead engine records).symm
  · rw [← hbatch.published, hreads.published]

end Paths

/-- The point reads do what the peer's batch does exactly when every record changes its coin: they
return the number of records found. -/
theorem sameSync_iff {w : WalletId} {engine : SyncEngine} {records : List CoinRecord}
    {fallback : String → WalletResult (Option CoinRecord)} {e : WalletError}
    (hids : (records.map CoinRecord.coinId).Nodup)
    (hanswers : ∀ record ∈ records, fallback record.coinId = .ok (some record))
    (htransport : e.code = .transport) :
    SameSync w engine (.ok records) (.error e) ((records.map CoinRecord.coinId).map fallback) ↔
      ∀ record ∈ records, (engine.wallet w).coins.get? record.coinId ≠ some record := by
  have hreads : (records.map CoinRecord.coinId).map fallback = foundReads records := by
    rw [List.map_map]
    exact List.map_congr_left hanswers
  rw [hreads]
  obtain ⟨hpeer, hchanged⟩ := @peer_count w engine records hids (foundReads records)
  have hcounted := resolveEach_count (w := w) engine 0 records
  rw [Nat.zero_add] at hcounted
  have hall : records.countP (engine.differs w) = records.length ↔
      ∀ record ∈ records, (engine.wallet w).coins.get? record.coinId ≠ some record := by
    rw [List.countP_eq_length]
    exact forall₂_congr fun record _ => decide_eq_true_iff
  rw [← hall]
  constructor
  · rintro ⟨-, -, -, changed, hbatch, hread, -⟩
    rw [hpeer] at hbatch
    rw [syncWithFallback_transport engine htransport, hcounted] at hread
    exact (Except.ok.inj hbatch).trans (Except.ok.inj hread).symm
  · intro hlength
    obtain ⟨hcoins, hpeak, hevents⟩ := paths_agree (w := w) engine htransport records
    refine ⟨hcoins, hpeak, hevents, records.length, ?_, ?_, ?_⟩
    · rw [hpeer, hlength]
    · rw [syncWithFallback_transport engine htransport, hcounted]
    · rw [hchanged, hlength]

def recordAt (coinId : String) (createdHeight : UInt32) : CoinRecord :=
  ⟨coinId, ⟨""⟩, ⟨5⟩, some createdHeight, none⟩

/-- One coin new, one created again at another height. -/
theorem sameSync_iff_twoCoins :
    SameSync ⟨0⟩ (SyncEngine.new.ingest ⟨0⟩ [recordAt "a" 1]).1
      (.ok [recordAt "a" 2, recordAt "b" 2]) (.error ⟨.transport, "peer unreachable"⟩)
      [.ok (some (recordAt "a" 2)), .ok (some (recordAt "b" 2))] :=
  (@sameSync_iff _ _ [recordAt "a" 2, recordAt "b" 2] (fun coinId => .ok (some (recordAt coinId 2)))
    _ (by decide) (by decide) rfl).mpr (by decide)

/-- A record the store holds already: the peer's batch returns 0, the point reads 1. -/
theorem not_sameSync :
    ¬ SameSync ⟨0⟩ (SyncEngine.new.ingest ⟨0⟩ [recordAt "a" 1]).1 (.ok [recordAt "a" 1])
      (.error ⟨.transport, "peer unreachable"⟩) [.ok (some (recordAt "a" 1))] := by
  intro h
  obtain ⟨changed, hpeer, hreads, -⟩ := h.counts
  have hzero : 0 = changed := Except.ok.inj hpeer
  have hone : 1 = changed := Except.ok.inj hreads
  omega

end DigWallet
