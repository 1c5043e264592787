import DigWallet.Engine.Rows
import DigWallet.Lib.Results

/-!
# DigWallet.Engine.Parity — observational equality of the two stores

Stores that mirror each other answer every read alike, but for one: the in-memory balance is an
unchecked sum and the SQLite balance saturates, so they part when the unspent total leaves `u64`.
-/

namespace DigWallet

open Totals SqliteWalletStore

/-! ## Reads -/

/-- The amounts `balance` adds up. -/
def WalletState.unspentAmounts (state : WalletState) : List UInt64 :=
  state.unspent.map fun coin => coin.amount.mojos

/-- Every read of one wallet; lists from a map or a `SELECT` without `ORDER BY` are sets. -/
structure ReadsAgree (overflowChecks : Bool) (state : WalletState) (db : SqliteWalletStore)
    (w : WalletId) : Prop where
  balance : ∃ balance, state.balance overflowChecks = some balance ∧ db.balance w = .ok balance
  coins : ∃ coins, db.readCoins w = .ok coins ∧ coins.Perm state.unspent
  cats : ∃ cats, db.readCats w = .ok cats ∧ cats.Perm (state.cats.rows.map Prod.snd)
  nfts : (db.readNfts w).Perm (state.nfts.rows.map Prod.snd)
  dids : (db.readDids w).Perm (state.dids.rows.map Prod.snd)
  history : db.history w = state.history
  coin : ∀ id, db.fetchCoin w id = .ok (state.coins.get? id)
  peakHeight : db.fetchPeak w = state.peakHeight
  syncStatus : db.syncStatus w = state.syncStatus

section Mirrored

variable {state : WalletState} {db : SqliteWalletStore} {w : WalletId}

/-- A slice with the rows a map's records make. -/
theorem slice_perm {V R : Type} {t : Table (WalletId × String) R} {t' : Table String V}
    {row : V → R} (h : ∀ id, t.get? (w, id) = (t'.get? id).map row) :
    (t.slice w).rows.Perm (t'.rows.map fun entry => (entry.1, row entry.2)) := by
  have hget : ∀ id, (t.slice w).get? id = (t'.alter fun _ => row).get? id := by
    intro id
    rw [Table.get?_slice, Table.get?_alter]
    exact h id
  exact Table.perm_of_get? hget

/-- The unspent entries, with their keys. -/
def WalletState.unspentEntries (state : WalletState) : List (String × CoinRecord) :=
  state.coins.rows.filter fun entry => entry.2.spentHeight.isNone

theorem unspent_eq : state.unspent = state.unspentEntries.map Prod.snd := by
  unfold WalletState.unspent WalletState.unspentEntries
  rw [List.filter_map]
  rfl

theorem unspentRows_perm (hrows : db.rows w = state.rows) :
    (db.unspentRows w).Perm
      (state.unspentEntries.map fun entry => (entry.1, coinRow entry.2)) := by
  have hslice := slice_perm (t := db.coins) (congrFun (congrArg WalletRows.coin hrows))
  have hfilter := hslice.filter fun row => row.2.spentHeight.isNone
  rwa [List.filter_map] at hfilter

theorem balance_eq (hrows : db.rows w = state.rows) :
    db.balance w =
      .ok ⟨⟨sumSaturating state.unspentAmounts⟩, ⟨sumSaturating state.unspentAmounts⟩⟩ := by
  have hparse : ∀ entry ∈ state.unspentEntries,
      parseAmount (coinRow entry.2).amount = .ok entry.2.amount.mojos := by
    intro entry _
    exact parseAmount_toString entry.2.amount.mojos
  obtain ⟨amounts, hamounts, hperm⟩ := mapM_of_perm_map
    (f := fun row : String × CoinRow => parseAmount row.2.amount) (unspentRows_perm hrows) hparse
  have hmap : state.unspentAmounts = state.unspentEntries.map fun entry => entry.2.amount.mojos := by
    unfold WalletState.unspentAmounts
    rw [unspent_eq, List.map_map]
    rfl
  unfold SqliteWalletStore.balance
  rw [hamounts, hmap, ← sumSaturating_perm hperm]
  rfl

theorem readCoins_eq (hrows : db.rows w = state.rows) (hkeyed : state.Keyed) :
    ∃ coins, db.readCoins w = .ok coins ∧ coins.Perm state.unspent := by
  rw [unspent_eq]
  refine mapM_of_perm_map (unspentRows_perm hrows) ?_
  intro entry hentry
  have hget := Table.mem_rows.mp (List.mem_of_mem_filter hentry)
  rw [← hkeyed.coins entry.1 entry.2 hget]
  exact rowToCoin_coinRow entry.2

theorem readCats_eq (hrows : db.rows w = state.rows) (hkeyed : state.Keyed) :
    ∃ cats, db.readCats w = .ok cats ∧ cats.Perm (state.cats.rows.map Prod.snd) := by
  have hslice := slice_perm (t := db.cats) (congrFun (congrArg WalletRows.cat hrows))
  refine mapM_of_perm_map hslice ?_
  intro entry hentry
  have hget := Table.mem_rows.mp hentry
  rw [← hkeyed.cats entry.1 entry.2 hget]
  exact rowToCat_catRow entry.2

/-- NFT and DID rows: the key and one optional text. -/
theorem readTexts_perm {V : Type} {t : Table (WalletId × String) (Option String)}
    {t' : Table String V} {text : V → Option String} {record : String × Option String → V}
    (hget : ∀ id, t.get? (w, id) = (t'.get? id).map text)
    (hrecord : ∀ id v, t'.get? id = some v → record (id, text v) = v) :
    ((t.slice w).rows.map record).Perm (t'.rows.map Prod.snd) := by
  have hslice := (slice_perm hget).map record
  rw [List.map_map] at hslice
  have hmap : t'.rows.map (record ∘ fun entry => (entry.1, text entry.2)) = t'.rows.map Prod.snd :=
    List.map_congr_left fun entry hentry => hrecord entry.1 entry.2 (Table.mem_rows.mp hentry)
  rwa [hmap] at hslice

theorem readNfts_eq (hrows : db.rows w = state.rows) (hkeyed : state.Keyed) :
    (db.readNfts w).Perm (state.nfts.rows.map Prod.snd) := by
  refine readTexts_perm (congrFun (congrArg WalletRows.nft hrows)) ?_
  intro id nft hget
  obtain rfl := hkeyed.nfts id nft hget
  rfl

theorem readDids_eq (hrows : db.rows w = state.rows) (hkeyed : state.Keyed) :
    (db.readDids w).Perm (state.dids.rows.map Prod.snd) := by
  refine readTexts_perm (congrFun (congrArg WalletRows.did hrows)) ?_
  intro id did hget
  obtain rfl := hkeyed.dids id did hget
  rfl

theorem syncStatus_eq (hrows : db.rows w = state.rows) : db.syncStatus w = state.syncStatus := by
  have hsync : (db.syncState.get? w).getD idleRow = state.rows.sync := congrArg WalletRows.sync hrows
  have hstatus : db.syncStatus w =
      ⟨((db.syncState.get? w).getD idleRow).lifecycle,
        ((db.syncState.get? w).getD idleRow).peakHeight,
        ((db.syncState.get? w).getD idleRow).targetHeight⟩ := by
    unfold SqliteWalletStore.syncStatus
    cases db.syncState.get? w <;> rfl
  rw [hstatus, hsync]
  rfl

theorem balances_agree_iff (overflowChecks : Bool) (hrows : db.rows w = state.rows) :
    (∃ balance, state.balance overflowChecks = some balance ∧ db.balance w = .ok balance) ↔
      SumsAgree overflowChecks state.unspentAmounts := by
  rw [balance_eq hrows, ← sumU64_eq_saturating]
  show (∃ balance, ((sumU64 overflowChecks state.unspentAmounts).bind fun total =>
    some (Balance.mk ⟨total⟩ ⟨total⟩)) = some balance ∧ _) ↔ _
  cases sumU64 overflowChecks state.unspentAmounts with
  | none => simp
  | some total =>
    constructor
    · rintro ⟨balance, hmem, hsql⟩
      obtain rfl := Option.some.inj hmem
      simpa using hsql.symm
    · intro h
      obtain rfl := Option.some.inj h
      exact ⟨_, rfl, rfl⟩

/-- Equal rows answer every read alike exactly when the two sums agree. -/
theorem readsAgree_iff (overflowChecks : Bool) (hrows : db.rows w = state.rows)
    (hkeyed : state.Keyed) :
    ReadsAgree overflowChecks state db w ↔ SumsAgree overflowChecks state.unspentAmounts := by
  rw [← balances_agree_iff overflowChecks hrows]
  constructor
  · exact ReadsAgree.balance
  · intro hbalance
    exact {
      balance := hbalance
      coins := readCoins_eq hrows hkeyed
      cats := readCats_eq hrows hkeyed
      nfts := readNfts_eq hrows hkeyed
      dids := readDids_eq hrows hkeyed
      history := congrArg WalletRows.history hrows
      coin := fetchCoin_eq hrows hkeyed
      peakHeight := (fetchPeak_eq db w).trans (congrArg (fun rows => rows.sync.peakHeight) hrows)
      syncStatus := syncStatus_eq hrows }

end Mirrored

/-! ## Runs -/

/-- Every call returns the same, and after it every read of every wallet agrees. -/
def Parity (overflowChecks : Bool) :
    InMemoryWalletStore → SqliteWalletStore → List StoreCall → Prop
  | _, _, [] => True
  | mem, db, call :: calls =>
    ((call.onSqlite db).2 = .ok (call.onMemory mem).2 ∧
      ∀ w, ReadsAgree overflowChecks ((call.onMemory mem).1.wallet w) (call.onSqlite db).1 w) ∧
    Parity overflowChecks (call.onMemory mem).1 (call.onSqlite db).1 calls

/-- After every call, the unspent amounts of every wallet add up to the same in both ways. -/
def TotalsAgree (overflowChecks : Bool) : InMemoryWalletStore → List StoreCall → Prop
  | _, [] => True
  | mem, call :: calls =>
    (∀ w, SumsAgree overflowChecks ((call.onMemory mem).1.wallet w).unspentAmounts) ∧
    TotalsAgree overflowChecks (call.onMemory mem).1 calls

theorem parity_iff (overflowChecks : Bool) {mem : InMemoryWalletStore} {db : SqliteWalletStore}
    (hmirrors : Mirrors mem db) (calls : List StoreCall) :
    Parity overflowChecks mem db calls ↔ TotalsAgree overflowChecks mem calls := by
  induction calls generalizing mem db with
  | nil => rfl
  | cons call calls ih =>
    have hnext := mirrors_call hmirrors call
    have hreads : ∀ w,
        ReadsAgree overflowChecks ((call.onMemory mem).1.wallet w) (call.onSqlite db).1 w ↔
          SumsAgree overflowChecks ((call.onMemory mem).1.wallet w).unspentAmounts := fun w =>
      readsAgree_iff overflowChecks (hnext w).1 (hnext w).2
    have hreturned := returned_onSqlite hmirrors call
    unfold Parity TotalsAgree
    rw [ih hnext, forall_congr' hreads, and_iff_right hreturned]

/-- The two stores are observationally equal along a run of calls exactly when, after each of
them, the unspent totals fit in a `u64` or wrap to its maximum where nothing checks. -/
theorem stores_observationally_equal_iff (overflowChecks : Bool) (calls : List StoreCall) :
    Parity overflowChecks .new .fresh calls ↔ TotalsAgree overflowChecks .new calls :=
  parity_iff overflowChecks mirrors_new calls

/-- Two unspent coins: `u64::MAX` and one mojo. -/
def overfullCalls : List StoreCall :=
  [.applyCoinState ⟨7⟩ ⟨"c1", ⟨"p"⟩, ⟨UInt64.ofNat (2 ^ 64 - 1)⟩, some 1, none⟩,
    .applyCoinState ⟨7⟩ ⟨"c2", ⟨"p"⟩, ⟨1⟩, some 2, none⟩]

theorem not_totalsAgree_overfullCalls (overflowChecks : Bool) :
    ¬ TotalsAgree overflowChecks .new overfullCalls := by
  rintro ⟨-, hsecond, -⟩
  have htotal : SumsAgree overflowChecks [UInt64.ofNat (2 ^ 64 - 1), 1] := hsecond ⟨7⟩
  have hsum : total [UInt64.ofNat (2 ^ 64 - 1), 1] = 2 ^ 64 := by decide
  unfold SumsAgree at htotal
  rw [hsum] at htotal
  omega

/-- A checked build panics on these coins and an unchecked one reports 0; SQLite says `u64::MAX`. -/
theorem balances_part_past_u64_max :
    ¬ Parity true .new .fresh overfullCalls ∧ ¬ Parity false .new .fresh overfullCalls := by
  constructor
  · intro h
    exact not_totalsAgree_overfullCalls true ((parity_iff true mirrors_new overfullCalls).mp h)
  · intro h
    exact not_totalsAgree_overfullCalls false ((parity_iff false mirrors_new overfullCalls).mp h)

end DigWallet
