import Mathlib.Data.List.Induction
import DigWallet.Engine.Interleaving
import DigWallet.Engine.Rows

/-!
# DigWallet.Engine.Reorgs — a rollback equals never having seen the orphaned blocks

On a chain each coin has one creation height and at most one spend height.  Either store, rolled back
to a fork, holds the coins it would hold had every delivered state been taken no higher than the fork
(`rollsBack_both`).
-/

namespace DigWallet

open SqliteWalletStore

/-! ## A chain -/

/-- The state of a coin at a height: none while the coin is absent. -/
def CoinLife.stateAt (life : CoinLife) (coinId : String) (height : UInt32) : Option CoinRecord :=
  if height < life.createdHeight then none
  else some ⟨coinId, life.puzzleHash, life.amount, some life.createdHeight,
    life.spentHeight.filter fun spent => spent ≤ height⟩

/-- The state of a coin, taken at a height for a wallet. -/
structure Sighting where
  walletId : WalletId
  coinId : String
  height : UInt32

def Sighting.cap (forkHeight : UInt32) (sighting : Sighting) : Sighting :=
  { sighting with height := min sighting.height forkHeight }

/-- What is delivered of a sighting. -/
def Sighting.delivery (chain : String → CoinLife) (sighting : Sighting) :
    Option (WalletId × CoinRecord) :=
  ((chain sighting.coinId).stateAt sighting.coinId sighting.height).map (Prod.mk sighting.walletId)

/-- The deliveries of a sequence, absent states skipped. -/
def deliveries (chain : String → CoinLife) (sightings : List Sighting) :
    List (WalletId × CoinRecord) := sightings.filterMap (Sighting.delivery chain)

/-! ## The two stores -/

/-- The coins of a wallet store and the calls that write them. -/
structure CoinStore where
  State : Type
  new : State
  coin : State → WalletId → String → WalletResult (Option CoinRecord)
  applyCoinState : State → WalletId → CoinRecord → State × WalletResult CoinChange
  rollbackTo : State → WalletId → UInt32 → State × WalletResult (List String)

def CoinStore.memory : CoinStore where
  State := InMemoryWalletStore
  new := .new
  coin store w id := .ok ((store.wallet w).coins.get? id)
  applyCoinState store w record :=
    let out := (store.wallet w).applyCoinState record
    (store.setWallet w out.1, .ok out.2)
  rollbackTo store w forkHeight :=
    let out := (store.wallet w).rollbackTo forkHeight
    (store.setWallet w out.1, .ok out.2)

def CoinStore.sqlite : CoinStore where
  State := SqliteWalletStore
  new := .fresh
  coin := fetchCoin
  applyCoinState db w record := (sqlApplyCoinState w record).run db
  rollbackTo db w forkHeight := (sqlRollbackTo w forkHeight).run db

/-- The new store after the deliveries. -/
def CoinStore.deliver (store : CoinStore) (delivered : List (WalletId × CoinRecord)) : store.State :=
  delivered.foldl (fun state delivery => (store.applyCoinState state delivery.1 delivery.2).1) store.new

/-- A rollback forgets the blocks above the fork and returns the coins it touched; of two rollbacks
the lower counts. -/
structure CoinStore.RollsBack (store : CoinStore) : Prop where
  orphans : ∀ chain sightings w forkHeight id,
    store.coin (store.rollbackTo (store.deliver (deliveries chain sightings)) w forkHeight).1 w id =
      store.coin (store.deliver (deliveries chain (sightings.map (Sighting.cap forkHeight)))) w id
  touched : ∀ chain sightings w forkHeight,
    let state := store.deliver (deliveries chain sightings)
    ∃ ids, (store.rollbackTo state w forkHeight).2 = .ok ids ∧ ids.Nodup ∧
      ∀ id, id ∈ ids ↔
        store.coin (store.rollbackTo state w forkHeight).1 w id ≠ store.coin state w id
  twice : ∀ state w forkHeight forkHeight' id,
    store.coin (store.rollbackTo (store.rollbackTo state w forkHeight).1 w forkHeight').1 w id =
      store.coin (store.rollbackTo state w (min forkHeight forkHeight')).1 w id

/-! ## One coin -/

section Coin

variable {forkHeight : UInt32}

theorem min_height_lt {height height' limit : UInt32} :
    min height height' < limit ↔ height < limit ∨ height' < limit := by
  show (if height ≤ height' then height else height') < limit ↔ _
  simp only [UInt32.lt_iff_toNat_lt]
  by_cases hle : height ≤ height'
  · have hnat := UInt32.le_iff_toNat_le.mp hle
    rw [if_pos hle]
    omega
  · have hnat := UInt32.le_iff_toNat_le.not.mp hle
    rw [if_neg hle]
    omega

/-- Above the lower of two heights. -/
theorem above_min (forkHeight forkHeight' : UInt32) (height : Option UInt32) :
    above (min forkHeight forkHeight') height =
      (above forkHeight height || above forkHeight' height) := by
  cases height with
  | none => rfl
  | some height =>
    show decide (_ < _) = (decide (_ < _) || decide (_ < _))
    rw [← Bool.decide_or, decide_eq_decide]
    exact min_height_lt

theorem revertWith_min {C : Type} {created spent : C → Option UInt32} {unspend : C → C}
    (hcreated : ∀ coin, created (unspend coin) = created coin)
    (hspent : ∀ coin, spent (unspend coin) = none) (forkHeight forkHeight' : UInt32) (coin : C) :
    (revertWith created spent unspend forkHeight coin).bind
        (revertWith created spent unspend forkHeight') =
      revertWith created spent unspend (min forkHeight forkHeight') coin := by
  unfold revertWith
  rw [above_min, above_min]
  cases above forkHeight (created coin) with
  | true => rfl
  | false =>
    cases above forkHeight (spent coin) with
    | true =>
      simp only [Bool.false_or, Bool.true_or, if_true, Bool.false_eq_true, if_false,
        Option.bind_some, hcreated, hspent]
      rfl
    | false => rfl

/-- A spend seen by a height and not above the fork is one seen by the lower of the two. -/
theorem spentAt_min (spentHeight : Option UInt32) (height forkHeight : UInt32) :
    (if above forkHeight (spentHeight.filter fun spent => spent ≤ height) then none
      else spentHeight.filter fun spent => spent ≤ height) =
      spentHeight.filter fun spent => spent ≤ min height forkHeight := by
  cases spentHeight with
  | none => rfl
  | some spent =>
    have hmin : spent ≤ min height forkHeight ↔ spent ≤ height ∧ ¬ forkHeight < spent := by
      rw [← UInt32.not_lt, min_height_lt, not_or, UInt32.not_lt]
    simp only [Option.filter_some, decide_eq_true_eq]
    by_cases hseen : spent ≤ height
    · rw [if_pos hseen]
      by_cases hspent : forkHeight < spent
      · rw [if_neg fun hle => (hmin.mp hle).2 hspent]
        exact if_pos (decide_eq_true hspent)
      · rw [if_pos (hmin.mpr ⟨hseen, hspent⟩)]
        exact if_neg fun habove => hspent (of_decide_eq_true habove)
    · rw [if_neg hseen, if_neg fun hle => hseen (hmin.mp hle).1]
      rfl

/-- A coin's state rolled back is its state at the lower height. -/
theorem revert_stateAt (life : CoinLife) (coinId : String) (height forkHeight : UInt32) :
    (life.stateAt coinId height).bind (revertCoin forkHeight) =
      life.stateAt coinId (min height forkHeight) := by
  unfold CoinLife.stateAt
  by_cases habsent : height < life.createdHeight
  · rw [if_pos habsent, if_pos (min_height_lt.mpr (.inl habsent))]
    rfl
  · rw [if_neg habsent, Option.bind_some]
    by_cases hfork : forkHeight < life.createdHeight
    · rw [if_pos (min_height_lt.mpr (.inr hfork))]
      exact if_pos (decide_eq_true hfork)
    · have hkept : ¬ above forkHeight (some life.createdHeight) = true :=
        fun habove => hfork (of_decide_eq_true habove)
      rw [if_neg fun hlow => (min_height_lt.mp hlow).elim habsent hfork, ← spentAt_min]
      unfold revertCoin revertWith
      rw [if_neg hkept]
      by_cases hspent : above forkHeight (life.spentHeight.filter fun spent => spent ≤ height) = true
      · rw [if_pos hspent, if_pos hspent]
      · rw [if_neg hspent, if_neg hspent]

end Coin

/-! ## The in-memory store -/

section Memory

variable {state : WalletState} {forkHeight : UInt32} {id : String}

/-- A rollback changes the coins above the fork. -/
theorem bind_revertCoin_ne_iff {coin : Option CoinRecord} :
    coin.bind (revertCoin forkHeight) ≠ coin ↔ ∃ record, coin = some record ∧
      (above forkHeight record.createdHeight = true ∨ above forkHeight record.spentHeight = true) := by
  rcases coin with _ | record
  · simp
  · rw [Option.bind_some]
    unfold revertCoin revertWith
    by_cases hcreated : above forkHeight record.createdHeight = true
    · simp [hcreated]
    · by_cases hspent : above forkHeight record.spentHeight = true
      · rw [if_neg hcreated, if_pos hspent]
        refine iff_of_true ?_ ⟨record, rfl, .inr hspent⟩
        intro heq
        rw [← Option.some.inj heq] at hspent
        cases hspent
      · simp [hcreated, hspent]

end Memory

/-! ### Deliveries -/

section Deliveries

variable {chain : String → CoinLife} {sightings : List Sighting} {w : WalletId}
  {forkHeight : UInt32} {id : String}

theorem deliver_concat (store : CoinStore) (chain : String → CoinLife) (sightings : List Sighting)
    (sighting : Sighting) :
    store.deliver (deliveries chain (sightings ++ [sighting])) =
      match sighting.delivery chain with
      | none => store.deliver (deliveries chain sightings)
      | some delivery =>
        (store.applyCoinState (store.deliver (deliveries chain sightings)) delivery.1 delivery.2).1 := by
  unfold deliveries CoinStore.deliver
  rw [List.filterMap_append, List.foldl_append]
  cases hdelivery : sighting.delivery chain with
  | none => rw [List.filterMap_cons_none hdelivery]; rfl
  | some delivery => rw [List.filterMap_cons_some hdelivery]; rfl

theorem get?_applyCoinState (store : InMemoryWalletStore) (w w' : WalletId) (record : CoinRecord)
    (id : String) :
    (InMemoryWalletStore.wallet (CoinStore.memory.applyCoinState store w record).1 w').coins.get? id =
      if w = w' ∧ record.coinId = id then some record else (store.wallet w').coins.get? id := by
  show ((store.setWallet w _).wallet w').coins.get? id = _
  rw [InMemoryWalletStore.wallet_setWallet]
  by_cases hw : w = w'
  · subst hw
    rw [if_pos rfl]
    show ((store.wallet w).coins.put _ _).get? id = _
    rw [Table.get?_put]
    simp
  · rw [if_neg hw, if_neg fun h => hw h.1]

/-- The in-memory coins after the deliveries. -/
def seenCoin (chain : String → CoinLife) (sightings : List Sighting) (w : WalletId) (id : String) :
    Option CoinRecord :=
  (InMemoryWalletStore.wallet (CoinStore.memory.deliver (deliveries chain sightings)) w).coins.get? id

theorem stateAt_eq_some {life : CoinLife} {height : UInt32} {record : CoinRecord}
    (h : life.stateAt id height = some record) :
    record.coinId = id ∧ record.createdHeight = some life.createdHeight := by
  unfold CoinLife.stateAt at h
  split_ifs at h
  obtain rfl := Option.some.inj h
  exact ⟨rfl, rfl⟩

/-- The last delivery for a coin counts; an absent state delivers nothing. -/
theorem seenCoin_concat (sighting : Sighting) :
    seenCoin chain (sightings ++ [sighting]) w id =
      if sighting.walletId = w ∧ sighting.coinId = id then
        ((chain id).stateAt id sighting.height).or (seenCoin chain sightings w id)
      else seenCoin chain sightings w id := by
  obtain ⟨walletId, coinId, height⟩ := sighting
  unfold seenCoin
  rw [deliver_concat]
  unfold Sighting.delivery
  dsimp only
  rcases hstate : (chain coinId).stateAt coinId height with _ | record
  · by_cases hsame : walletId = w ∧ coinId = id
    · rw [if_pos hsame, ← hsame.2, hstate]
      rfl
    · rw [if_neg hsame]
      rfl
  · have hid := (stateAt_eq_some hstate).1
    refine (get?_applyCoinState _ walletId w record id).trans ?_
    rw [hid]
    by_cases hsame : walletId = w ∧ coinId = id
    · rw [if_pos hsame, if_pos hsame, ← hsame.2, hstate]
      rfl
    · rw [if_neg hsame, if_neg hsame]

/-- Every stored coin has the creation height the chain gave it. -/
theorem createdHeight_seenCoin {coin : CoinRecord} (h : seenCoin chain sightings w id = some coin) :
    coin.createdHeight = some (chain id).createdHeight := by
  induction sightings using List.reverseRecOn with
  | nil => cases h
  | append_singleton sightings sighting ih =>
    rw [seenCoin_concat] at h
    by_cases hsame : sighting.walletId = w ∧ sighting.coinId = id
    · rw [if_pos hsame] at h
      rcases Option.or_eq_some_iff.mp h with hstate | ⟨-, hold⟩
      · exact (stateAt_eq_some hstate).2
      · exact ih hold
    · rw [if_neg hsame] at h
      exact ih h

/-- By induction on the deliveries, from the last: the coins of the capped sequence are the coins of
the sequence, rolled back. -/
theorem seenCoin_cap :
    seenCoin chain (sightings.map (Sighting.cap forkHeight)) w id =
      (seenCoin chain sightings w id).bind (revertCoin forkHeight) := by
  induction sightings using List.reverseRecOn with
  | nil => rfl
  | append_singleton sightings sighting ih =>
    rw [List.map_append, List.map_singleton, seenCoin_concat, seenCoin_concat, ih]
    by_cases hsame : sighting.walletId = w ∧ sighting.coinId = id
    · have hcapped : (sighting.cap forkHeight).walletId = w ∧ (sighting.cap forkHeight).coinId = id :=
        hsame
      have hstate := revert_stateAt (chain id) id sighting.height forkHeight
      rw [if_pos hcapped, if_pos hsame]
      show Option.or ((chain id).stateAt id (min sighting.height forkHeight)) _ = _
      rw [← hstate]
      rcases hseen : (chain id).stateAt id sighting.height with _ | record
      · rfl
      · show Option.or (revertCoin forkHeight record) _ = revertCoin forkHeight record
        rcases hrevert : revertCoin forkHeight record with _ | reverted
        · -- created above the fork: so was the coin stored before
          have habove : above forkHeight (some (chain id).createdHeight) = true := by
            rw [← (stateAt_eq_some hseen).2]
            unfold revertCoin revertWith at hrevert
            split_ifs at hrevert with hcreated
            exact hcreated
          rcases hstored : seenCoin chain sightings w id with _ | coin
          · rfl
          · rw [← createdHeight_seenCoin hstored] at habove
            exact if_pos habove
        · rfl
    · have hcapped : ¬ ((sighting.cap forkHeight).walletId = w ∧
          (sighting.cap forkHeight).coinId = id) := hsame
      rw [if_neg hcapped, if_neg hsame]

end Deliveries

/-! ## The SQLite store -/

section Sqlite

variable {mem : InMemoryWalletStore} {db : SqliteWalletStore} {w : WalletId} {forkHeight : UInt32}

/-- The two stores mirror each other along the deliveries. -/
theorem mirrors_deliver (delivered : List (WalletId × CoinRecord)) :
    Mirrors (CoinStore.memory.deliver delivered) (CoinStore.sqlite.deliver delivered) := by
  induction delivered using List.reverseRecOn with
  | nil => exact mirrors_new
  | append_singleton delivered delivery ih =>
    unfold CoinStore.deliver at ih ⊢
    rw [List.foldl_append, List.foldl_append]
    exact mirrors_call ih (.applyCoinState delivery.1 delivery.2)

theorem mirrors_rollbackTo (h : Mirrors mem db) (w : WalletId) (forkHeight : UInt32) :
    Mirrors (CoinStore.memory.rollbackTo mem w forkHeight).1
      (CoinStore.sqlite.rollbackTo db w forkHeight).1 :=
  mirrors_call h (.rollbackTo w forkHeight)

theorem coin_of_mirrors (h : Mirrors mem db) (w : WalletId) (id : String) :
    CoinStore.sqlite.coin db w id = CoinStore.memory.coin mem w id :=
  fetchCoin_eq (h w).1 (h w).2 id

/-- What a read of a coin depends on. -/
theorem fetchCoin_congr {db' : SqliteWalletStore} {id : String}
    (h : (db.rows w).coin id = (db'.rows w).coin id) : db.fetchCoin w id = db'.fetchCoin w id := by
  have hget : db.coins.get? (w, id) = db'.coins.get? (w, id) := h
  unfold fetchCoin
  rw [hget]

theorem bind_revertRow (row : Option CoinRow) (forkHeight forkHeight' : UInt32) :
    (row.bind (revertRow forkHeight)).bind (revertRow forkHeight') =
      row.bind (revertRow (min forkHeight forkHeight')) := by
  rw [revertRow_eq]
  cases row with
  | none => rfl
  | some row =>
    exact @revertWith_min CoinRow CoinRow.createdHeight CoinRow.spentHeight
      (fun row => { row with spentHeight := none }) (fun _ => rfl) (fun _ => rfl)
      forkHeight forkHeight' row

theorem coin_revert_revert (db : SqliteWalletStore) (w : WalletId) (forkHeight forkHeight' : UInt32)
    (id : String) :
    ((revert (revert db w forkHeight) w forkHeight').rows w).coin id =
      ((revert db w (min forkHeight forkHeight')).rows w).coin id := by
  rw [rows_revert, if_pos rfl, rows_revert, if_pos rfl, rows_revert, if_pos rfl]
  exact bind_revertRow _ forkHeight forkHeight'

theorem mem_returned (db : SqliteWalletStore) (w : WalletId) (forkHeight : UInt32) (id : String) :
    id ∈ (queryCoinIds db w (fun row => above forkHeight row.createdHeight) ++
        queryCoinIds (deleteCreatedAbove db w forkHeight) w
          (fun row => above forkHeight row.spentHeight)).dedup ↔ (db.rows w).Affected forkHeight id := by
  rw [List.mem_dedup, List.mem_append, mem_sqlRollbackTo]

end Sqlite

/-! ## Both stores -/

theorem get?_setWallet_rollbackTo (store : InMemoryWalletStore) (w : WalletId) (forkHeight : UInt32)
    (id : String) :
    ((store.setWallet w ((store.wallet w).rollbackTo forkHeight).1).wallet w).coins.get? id =
      ((store.wallet w).coins.get? id).bind (revertCoin forkHeight) := by
  rw [InMemoryWalletStore.wallet_setWallet, if_pos rfl, get?_rollbackTo_eq]

theorem coin_memory_rollbackTo (store : CoinStore.memory.State) (w : WalletId) (forkHeight : UInt32)
    (id : String) :
    CoinStore.memory.coin (CoinStore.memory.rollbackTo store w forkHeight).1 w id =
      (CoinStore.memory.coin store w id).map fun coin => coin.bind (revertCoin forkHeight) :=
  congrArg Except.ok (get?_setWallet_rollbackTo store w forkHeight id)

theorem bind_revertCoin (coin : Option CoinRecord) (forkHeight forkHeight' : UInt32) :
    (coin.bind (revertCoin forkHeight)).bind (revertCoin forkHeight') =
      coin.bind (revertCoin (min forkHeight forkHeight')) := by
  cases coin with
  | none => rfl
  | some coin =>
    exact @revertWith_min CoinRecord CoinRecord.createdHeight CoinRecord.spentHeight
      (fun coin => { coin with spentHeight := none }) (fun _ => rfl) (fun _ => rfl)
      forkHeight forkHeight' coin

theorem memory_rollsBack : CoinStore.memory.RollsBack where
  orphans chain sightings w forkHeight id := by
    rw [coin_memory_rollbackTo]
    exact congrArg Except.ok seenCoin_cap.symm
  touched chain sightings w forkHeight := by
    intro state
    refine ⟨_, rfl, WalletState.nodup_rollbackTo _ _, fun id => ?_⟩
    rw [coin_memory_rollbackTo]
    refine (WalletState.mem_rollbackTo.trans bind_revertCoin_ne_iff.symm).trans ?_
    exact not_congr (Except.ok.injEq _ _ ▸ Iff.rfl)
  twice state w forkHeight forkHeight' id := by
    rw [coin_memory_rollbackTo, coin_memory_rollbackTo, coin_memory_rollbackTo]
    exact congrArg Except.ok (bind_revertCoin _ forkHeight forkHeight')

/-- The SQLite store through the in-memory store it mirrors. -/
theorem sqlite_rollsBack : CoinStore.sqlite.RollsBack where
  orphans chain sightings w forkHeight id := by
    have hmirrors := mirrors_deliver (deliveries chain sightings)
    have hcapped := mirrors_deliver (deliveries chain (sightings.map (Sighting.cap forkHeight)))
    rw [coin_of_mirrors (mirrors_rollbackTo hmirrors w forkHeight), coin_of_mirrors hcapped]
    exact memory_rollsBack.orphans chain sightings w forkHeight id
  touched chain sightings w forkHeight := by
    intro db
    have hmirrors := mirrors_deliver (deliveries chain sightings)
    obtain ⟨ids, hids, -, hchanged⟩ := memory_rollsBack.touched chain sightings w forkHeight
    refine ⟨_, rfl, List.nodup_dedup _, fun id => ?_⟩
    rw [coin_of_mirrors (mirrors_rollbackTo hmirrors w forkHeight), coin_of_mirrors hmirrors,
      ← hchanged, ← Except.ok.inj hids]
    refine (mem_returned _ w forkHeight id).trans ?_
    rw [(hmirrors w).1]
    exact affected_rows forkHeight id
  twice db w forkHeight forkHeight' id :=
    fetchCoin_congr (coin_revert_revert db w forkHeight forkHeight' id)

/-- In either store a rollback equals never having seen the blocks above the fork. -/
theorem rollsBack_both : CoinStore.memory.RollsBack ∧ CoinStore.sqlite.RollsBack :=
  ⟨memory_rollsBack, sqlite_rollsBack⟩

end DigWallet
