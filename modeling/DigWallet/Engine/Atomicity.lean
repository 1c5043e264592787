import DigWallet.Engine.Persist

/-!
# DigWallet.Engine.Atomicity — what a crash inside a mutation leaves

Every statement commits by itself and no mutation opens a transaction, so a mutation is all or
nothing when at most one of its statements changes the store.  That is every mutation but
`rollback_to`, which has three writes.
-/

namespace DigWallet

open SqliteWalletStore

/-! ## What the writes of a rollback change -/

section Writes

variable (db : SqliteWalletStore) (w : WalletId) (forkHeight : UInt32)

/-- A coin of the wallet was created above the fork. -/
def Forgets : Prop :=
  ∃ row ∈ db.coins.rows, row.1.1 = w ∧ above forkHeight row.2.createdHeight = true

/-- A coin of the wallet that the rollback keeps was spent above the fork. -/
def Unspends : Prop :=
  ∃ row ∈ db.coins.rows, row.1.1 = w ∧ above forkHeight row.2.createdHeight = false ∧
    above forkHeight row.2.spentHeight = true

/-- The recorded peak is another height, or there is none. -/
def MovesPeak : Prop := (db.syncState.get? w).map SyncRow.peakHeight ≠ some forkHeight

instance : Decidable (Forgets db w forkHeight) := inferInstanceAs (Decidable (∃ row ∈ _, _))

instance : Decidable (Unspends db w forkHeight) := inferInstanceAs (Decidable (∃ row ∈ _, _))

instance : Decidable (MovesPeak db w forkHeight) := inferInstanceAs (Decidable (_ ≠ _))

/-- At most one of the three writes of `rollback_to` changes the store. -/
def OneWriteOnly : Prop :=
  ¬ (Forgets db w forkHeight ∧ Unspends db w forkHeight) ∧
  ¬ (Forgets db w forkHeight ∧ MovesPeak db w forkHeight) ∧
  ¬ (Unspends db w forkHeight ∧ MovesPeak db w forkHeight)

instance : Decidable (OneWriteOnly db w forkHeight) := inferInstanceAs (Decidable (_ ∧ _))

variable {db w forkHeight}

theorem setCoins_eq_self {coins : Table (WalletId × String) CoinRow} :
    { db with coins := coins } = db ↔ coins = db.coins := by
  constructor
  · exact congrArg SqliteWalletStore.coins
  · rintro rfl
    rfl

theorem setSyncState_eq_self {syncState : Table WalletId SyncRow} :
    { db with syncState := syncState } = db ↔ syncState = db.syncState := by
  constructor
  · exact congrArg SqliteWalletStore.syncState
  · rintro rfl
    rfl

theorem deleteCreatedAbove_eq_self :
    deleteCreatedAbove db w forkHeight = db ↔ ¬ Forgets db w forkHeight := by
  unfold deleteCreatedAbove Forgets
  rw [setCoins_eq_self, Table.keep_eq_self]
  constructor
  · rintro hkept ⟨row, hrow, hw, hcreated⟩
    have hkeep := hkept row hrow
    rw [hw, hcreated] at hkeep
    simp at hkeep
  · intro hnot row hrow
    rw [Bool.not_eq_true']
    apply Bool.eq_false_iff.mpr
    intro hgone
    obtain ⟨hw, hcreated⟩ := Bool.and_eq_true_iff.mp hgone
    exact hnot ⟨row, hrow, of_decide_eq_true hw, hcreated⟩

theorem unspendAbove_deleteCreatedAbove_eq_self :
    unspendAbove (deleteCreatedAbove db w forkHeight) w forkHeight =
      deleteCreatedAbove db w forkHeight ↔ ¬ Unspends db w forkHeight := by
  set kept := deleteCreatedAbove db w forkHeight with hkept
  unfold unspendAbove
  rw [setCoins_eq_self, Table.alter_eq_self]
  have hmem : ∀ row, row ∈ kept.coins.rows ↔ row ∈ db.coins.rows ∧
      (!(decide (row.1.1 = w) && above forkHeight row.2.createdHeight)) = true :=
    fun row => Table.mem_rows_keep
  constructor
  · rintro hsame ⟨row, hrow, hw, hcreated, hspent⟩
    have heq := hsame row ((hmem row).mpr ⟨hrow, by simp [hcreated]⟩)
    have hnone : none = row.2.spentHeight := by
      simpa [hw, hspent] using congrArg CoinRow.spentHeight heq
    rw [← hnone] at hspent
    cases hspent
  · intro hnot row hrow
    obtain ⟨hrow, hkeep⟩ := (hmem row).mp hrow
    refine if_neg ?_
    intro htouched
    obtain ⟨hw, hspent⟩ := Bool.and_eq_true_iff.mp htouched
    have hw := of_decide_eq_true hw
    exact hnot ⟨row, hrow, hw, by simpa [hw] using hkeep, hspent⟩

theorem setPeakAbsolute_eq_self :
    setPeakAbsolute db w forkHeight = db ↔ ¬ MovesPeak db w forkHeight := by
  unfold setPeakAbsolute MovesPeak
  rw [setSyncState_eq_self, Table.put_eq_self]
  cases hrow : db.syncState.get? w with
  | none => simp
  | some row =>
    obtain ⟨peak, target, lifecycle⟩ := row
    simp [eq_comm]

/-- The second write cannot restore what the first one deleted. -/
theorem unspendAbove_eq_start :
    unspendAbove (deleteCreatedAbove db w forkHeight) w forkHeight = db ↔
      ¬ Forgets db w forkHeight ∧ ¬ Unspends db w forkHeight := by
  constructor
  · intro h
    have hkeeps : ¬ Forgets db w forkHeight := by
      rintro ⟨⟨key, row⟩, hrow, hw, hcreated⟩
      have hget := Table.mem_rows.mp hrow
      have hgone : (unspendAbove (deleteCreatedAbove db w forkHeight) w forkHeight).coins.get? key =
          ((db.coins.get? key).filter fun row =>
            !(decide (key.1 = w) && above forkHeight row.createdHeight)).map _ :=
        Table.get?_alter.trans (congrArg _ Table.get?_keep)
      rw [h, hget, Option.filter_some, if_neg (by simpa using ⟨hw, hcreated⟩)] at hgone
      cases hgone
    refine ⟨hkeeps, ?_⟩
    rw [← unspendAbove_deleteCreatedAbove_eq_self]
    exact h.trans (deleteCreatedAbove_eq_self.mpr hkeeps).symm
  · rintro ⟨hkeeps, hunspends⟩
    rw [unspendAbove_deleteCreatedAbove_eq_self.mpr hunspends,
      deleteCreatedAbove_eq_self.mpr hkeeps]

/-- The state after the first write is the final one when the other two change nothing. -/
theorem deleteCreatedAbove_eq_end :
    deleteCreatedAbove db w forkHeight =
        setPeakAbsolute (unspendAbove (deleteCreatedAbove db w forkHeight) w forkHeight) w forkHeight ↔
      ¬ Unspends db w forkHeight ∧ ¬ MovesPeak db w forkHeight := by
  set second := unspendAbove (deleteCreatedAbove db w forkHeight) w forkHeight with hsecond
  have hpeak : setPeakAbsolute second w forkHeight = second ↔ ¬ MovesPeak db w forkHeight :=
    setPeakAbsolute_eq_self
  rw [← hpeak, ← unspendAbove_deleteCreatedAbove_eq_self, ← hsecond]
  constructor
  · intro h
    have hsync : (setPeakAbsolute second w forkHeight).syncState = second.syncState :=
      (congrArg SqliteWalletStore.syncState h).symm
    have hlast : setPeakAbsolute second w forkHeight = second := setSyncState_eq_self.mpr hsync
    exact ⟨(h.trans hlast).symm, hlast⟩
  · rintro ⟨hmiddle, hlast⟩
    rw [hlast, hmiddle]

end Writes

/-! ## The mutations -/

/-- A call, started in `db`, is all or nothing. -/
def StoreCall.AllOrNothing (db : SqliteWalletStore) : StoreCall → Prop
  | applyCoinState w record => (sqlApplyCoinState w record).AllOrNothing db
  | rollbackTo w forkHeight => (sqlRollbackTo w forkHeight).AllOrNothing db
  | setPeak w peakHeight => (sqlSetPeak w peakHeight).AllOrNothing db
  | setSyncStatus w lifecycle target => (sqlSetSyncStatus w lifecycle target).AllOrNothing db
  | upsertCat w record => (sqlUpsertCat w record).AllOrNothing db
  | upsertNft w record => (sqlUpsertNft w record).AllOrNothing db
  | upsertDid w record => (sqlUpsertDid w record).AllOrNothing db
  | recordTransaction w record => (sqlRecordTransaction w record).AllOrNothing db

/-- What the call must be: no rollback, or a rollback with one effective write. -/
def StoreCall.SingleWrite (db : SqliteWalletStore) : StoreCall → Prop
  | rollbackTo w forkHeight => OneWriteOnly db w forkHeight
  | _ => True

section Mutations

variable {db : SqliteWalletStore} {w : WalletId}

theorem applyCoinState_allOrNothing (record : CoinRecord) :
    (sqlApplyCoinState w record).AllOrNothing db := by
  apply Script.allOrNothing_query
  cases fetchCoin db w record.coinId with
  | error e => exact Script.allOrNothing_done _ db
  | ok previous => exact Script.allOrNothing_execute _ _ db

theorem setPeak_allOrNothing (peakHeight : UInt32) :
    (sqlSetPeak w peakHeight).AllOrNothing db := by
  apply Script.allOrNothing_query
  exact Script.allOrNothing_execute _ _ db

theorem cuts_sqlRollbackTo (forkHeight : UInt32) {P : SqliteWalletStore → Prop} :
    (∀ cut ∈ (sqlRollbackTo w forkHeight).cuts db, P cut) ↔
      P db ∧ P (deleteCreatedAbove db w forkHeight) ∧
        P (unspendAbove (deleteCreatedAbove db w forkHeight) w forkHeight) ∧
        P (setPeakAbsolute (unspendAbove (deleteCreatedAbove db w forkHeight) w forkHeight)
          w forkHeight) := by
  simp [sqlRollbackTo, Script.cuts]

theorem rollbackTo_allOrNothing_iff (forkHeight : UInt32) :
    (sqlRollbackTo w forkHeight).AllOrNothing db ↔ OneWriteOnly db w forkHeight := by
  rw [Script.allOrNothing_iff, cuts_sqlRollbackTo]
  show (_ ∨ _) ∧ (_ ∨ deleteCreatedAbove db w forkHeight = setPeakAbsolute _ w forkHeight) ∧
    (_ ∨ unspendAbove _ w forkHeight = setPeakAbsolute _ w forkHeight) ∧ _ ↔ _
  have hlast : unspendAbove (deleteCreatedAbove db w forkHeight) w forkHeight =
        setPeakAbsolute (unspendAbove (deleteCreatedAbove db w forkHeight) w forkHeight) w forkHeight ↔
      ¬ MovesPeak db w forkHeight := eq_comm.trans setPeakAbsolute_eq_self
  rw [deleteCreatedAbove_eq_self, deleteCreatedAbove_eq_end, unspendAbove_eq_start, hlast]
  unfold OneWriteOnly
  tauto

/-- A mutation of the SQLite store is all or nothing exactly when it is no rollback, or a rollback
of which at most one write changes anything. -/
theorem mutation_all_or_nothing_iff (db : SqliteWalletStore) (call : StoreCall) :
    call.AllOrNothing db ↔ call.SingleWrite db := by
  cases call with
  | applyCoinState w record => exact iff_of_true (applyCoinState_allOrNothing record) trivial
  | rollbackTo w forkHeight => exact rollbackTo_allOrNothing_iff forkHeight
  | setPeak w peakHeight => exact iff_of_true (setPeak_allOrNothing peakHeight) trivial
  | setSyncStatus | upsertCat | upsertNft | upsertDid | recordTransaction =>
    exact iff_of_true (Script.allOrNothing_execute _ _ db) trivial

end Mutations

/-- A store synced to height 9, with one coin created there. -/
def syncedStore : SqliteWalletStore :=
  let applied := (sqlApplyCoinState ⟨7⟩ ⟨"c1", ⟨"p"⟩, ⟨5⟩, some 9, none⟩).run .fresh
  ((sqlSetPeak ⟨7⟩ 9).run applied.1).1

/-- A reorg below that coin, stopped after the deletion, keeps the peak at 9 without the coin. -/
theorem rollback_half_done : ¬ (StoreCall.rollbackTo ⟨7⟩ 4).AllOrNothing syncedStore := by
  intro h
  have hone := (rollbackTo_allOrNothing_iff 4).mp h
  revert hone
  decide +kernel

end DigWallet
