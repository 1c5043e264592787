import DigWallet.Engine.Confirmed
import DigWallet.Engine.Steps
import DigWallet.Lib.Runs

/-!
# DigWallet.Engine.Following — the store follows the chain

The coins of one wallet on the chain, with the blocks that created and spent them, and the store that
is told of them.  A block is reported by records of the coins as they now are, in any order and any
number of times; a reorg drops the blocks above its fork.  `balance_follows`: after every run the
balance is the value of the unspent coins, and a built payment that confirms lowers it by the fee and
what it pays to others.
-/

namespace DigWallet

open Totals SdkSpendBuilder

/-! ## The chain -/

/-- A coin of the wallet, and the heights that created and spent it. -/
structure Held where
  coin : Coin
  created : UInt32
  spent : Option UInt32

abbrev Chain := Table String Held

/-- Which block the wallet sees, and what the peer reports of it. -/
inductive ChainAct
  | block (height : UInt32) (spent created : List Coin) (records : List CoinRecord)
  | reorg (forkHeight : UInt32)

/-- The chain beside the engine that follows it. -/
structure Followed where
  chain : Chain
  engine : SyncEngine

section Definitions

variable (sdk : Sdk)

/-- The id of a coin, as the store spells it. -/
def idText (coin : Coin) : String := hexEncode (sdk.coinId coin).bytes

/-- The record a peer sends of a coin. -/
def Held.record (held : Held) : CoinRecord :=
  ⟨idText sdk held.coin, ⟨hexEncode held.coin.puzzleHash.bytes⟩, ⟨held.coin.amount⟩,
    some held.created, held.spent⟩

namespace Chain

def create (height : UInt32) (chain : Chain) (coin : Coin) : Chain :=
  chain.put (idText sdk coin) ⟨coin, height, none⟩

/-- A block spends some coins and creates some. -/
def block (chain : Chain) (height : UInt32) (spent created : List Coin) : Chain :=
  created.foldl (create sdk height) (chain.alter fun id held =>
    if id ∈ spent.map (idText sdk) then { held with spent := some height } else held)

/-- The blocks above the fork never were. -/
def reorg (chain : Chain) (forkHeight : UInt32) : Chain :=
  (chain.keep fun _ held => !above forkHeight (some held.created)).alter fun _ held =>
    if above forkHeight held.spent then { held with spent := none } else held

/-- The coins the wallet can spend. -/
def unspent (chain : Chain) : List Coin :=
  (chain.rows.filter fun row => row.2.spent.isNone).map fun row => row.2.coin

/-- The record of the coin under an id. -/
def recordAt (chain : Chain) (id : String) : Option CoinRecord :=
  (chain.get? id).map (Held.record sdk)

end Chain

/-- The records are of coins as they now are, and every coin the block touched has one. -/
structure Reports (before after : Chain) (records : List CoinRecord) : Prop where
  truthful : ∀ record ∈ records, after.recordAt sdk record.coinId = some record
  complete : ∀ id, after.recordAt sdk id ≠ before.recordAt sdk id → id ∈ records.map CoinRecord.coinId

variable (w : WalletId)

namespace Followed

def new : Followed := ⟨Table.empty, .new⟩

def after (followed : Followed) : ChainAct → Followed
  | .block height spent created records => ⟨followed.chain.block sdk height spent created,
      (followed.engine.syncFromPeer w (.ok records)).1⟩
  | .reorg forkHeight => ⟨followed.chain.reorg forkHeight,
      (followed.engine.handleReorg w forkHeight).1⟩

/-- A block is reported; a reorg is as the engine is told. -/
def Reported (followed : Followed) : ChainAct → Prop
  | .block height spent created records =>
      Reports sdk followed.chain (followed.chain.block sdk height spent created) records
  | .reorg _ => True

/-- The wallet's balance. -/
def balance (overflowChecks : Bool) (followed : Followed) : Option Balance :=
  (followed.engine.wallet w).balance overflowChecks

/-- The store holds the record of every coin, under its id. -/
structure Follows (followed : Followed) : Prop where
  keys : ∀ {id held}, followed.chain.get? id = some held → idText sdk held.coin = id
  records : ∀ id, (followed.engine.wallet w).coins.get? id = followed.chain.recordAt sdk id

end Followed

end Definitions

section Proofs

variable {sdk : Sdk} {w : WalletId} {chain : Chain} {followed : Followed}

theorem idText_injective {coin coin' : Coin} (h : idText sdk coin = idText sdk coin') :
    sdk.coinId coin = sdk.coinId coin' := Bytes32.ext (hexEncode_injective h)

/-! ## One act -/

/-- Induction on the records: an id is right when it was, or once it is delivered. -/
theorem get?_delivered {truth : String → Option CoinRecord} {records : List CoinRecord}
    (htruth : ∀ record ∈ records, truth record.coinId = some record) {engine : SyncEngine}
    {id : String} (h : (engine.wallet w).coins.get? id = truth id ∨
      id ∈ records.map CoinRecord.coinId) :
    ((SyncStep.performAll w engine (records.map .deliver)).wallet w).coins.get? id = truth id := by
  induction records generalizing engine with
  | nil =>
    obtain h | h := h
    · exact h
    · cases h
  | cons record records ih =>
    rw [List.map_cons, SyncStep.performAll_cons]
    refine ih (fun record' hrecord' => htruth record' (List.mem_cons_of_mem _ hrecord')) ?_
    by_cases hid : record.coinId = id
    · refine .inl ?_
      rw [get?_deliver, if_pos hid, ← hid]
      exact (htruth record List.mem_cons_self).symm
    · rw [get?_deliver, if_neg hid]
      refine h.imp_right fun hmem => ?_
      rw [List.map_cons, List.mem_cons] at hmem
      exact hmem.resolve_left fun heq => hid heq.symm

/-- Beyond its records, a sync from the peer leaves the coins alone. -/
theorem coins_syncFromPeer (engine : SyncEngine) (records : List CoinRecord) :
    ((engine.syncFromPeer w (.ok records)).1.wallet w).coins =
      ((SyncStep.performAll w engine (records.map .deliver)).wallet w).coins := by
  show ((SyncEngine.markSynced _ w).wallet w).coins = _
  rw [markSynced_ingest_eq, syncedSteps, SyncStep.performAll_append]
  rw [SyncStep.performAll_cons, SyncStep.performAll_nil, wallet_progress, ingestSteps,
    SyncStep.performAll_append]
  split_ifs
  · rw [SyncStep.performAll_cons, SyncStep.performAll_nil, wallet_raisePeak]
    rfl
  · rfl

theorem get?_block_keys {height : UInt32} {spent created : List Coin}
    (hkeys : ∀ {id held}, chain.get? id = some held → idText sdk held.coin = id) {id : String}
    {held : Held} (h : (chain.block sdk height spent created).get? id = some held) :
    idText sdk held.coin = id := by
  unfold Chain.block at h
  induction created using List.reverseRecOn generalizing held with
  | nil =>
    rw [List.foldl_nil, Table.get?_alter] at h
    obtain ⟨before, hbefore, rfl⟩ := Option.map_eq_some_iff.mp h
    have hid := hkeys hbefore
    split_ifs
    · exact hid
    · exact hid
  | append_singleton created coin ih =>
    rw [List.foldl_append, List.foldl_cons, List.foldl_nil, Chain.create, Table.get?_put] at h
    split_ifs at h with hcoin
    · obtain rfl := Option.some.inj h
      exact hcoin
    · exact ih h

/-- What a reorg does to the record of a coin is what a rollback does. -/
theorem recordAt_reorg (forkHeight : UInt32) (id : String) :
    (chain.reorg forkHeight).recordAt sdk id =
      ((chain.recordAt sdk id).filter fun coin => !above forkHeight coin.createdHeight).map fun coin =>
        if above forkHeight coin.spentHeight then { coin with spentHeight := none } else coin := by
  unfold Chain.recordAt Chain.reorg
  rw [Table.get?_alter, Table.get?_keep]
  cases chain.get? id with
  | none => rfl
  | some held =>
    rw [Option.filter_some, Option.map_some, Option.filter_some]
    show Option.map _ (Option.map _ (if (!above forkHeight (some held.created)) = true then _ else _)) =
      Option.map _ (if (!above forkHeight (some held.created)) = true then _ else _)
    split_ifs
    · simp only [Option.map_some]
      congr 1
      show Held.record sdk (if above forkHeight held.spent = true then _ else held) =
        if above forkHeight held.spent = true then _ else _
      split_ifs
      · rfl
      · rfl
    · rfl

variable (sdk) in
/-- A block forgets no coin. -/
theorem isSome_block (height : UInt32) (spent created : List Coin) {id : String}
    (h : (chain.get? id).isSome) : ((chain.block sdk height spent created).get? id).isSome := by
  unfold Chain.block
  induction created using List.reverseRecOn with
  | nil =>
    rw [List.foldl_nil, Table.get?_alter, Option.isSome_map]
    exact h
  | append_singleton created coin ih =>
    rw [List.foldl_append, List.foldl_cons, List.foldl_nil, Chain.create, Table.get?_put]
    split_ifs
    · rfl
    · exact ih

/-- The records of all coins report any block. -/
theorem reports_all (hkeys : ∀ {id held}, chain.get? id = some held → idText sdk held.coin = id)
    (height : UInt32) (spent created : List Coin) :
    Reports sdk chain (chain.block sdk height spent created)
      ((chain.block sdk height spent created).rows.map fun row => row.2.record sdk) where
  truthful record hrecord := by
    obtain ⟨⟨id, held⟩, hrow, rfl⟩ := List.mem_map.mp hrecord
    have hget := Table.mem_rows.mp hrow
    have hid : idText sdk held.coin = id := get?_block_keys hkeys hget
    show Option.map _ (Table.get? _ (idText sdk held.coin)) = _
    rw [hid, hget]
    rfl
  complete id hchanged := by
    cases hget : (chain.block sdk height spent created).get? id with
    | none =>
      have hbefore : chain.get? id = none := by
        by_contra hsome
        have hkept := isSome_block sdk height spent created
          (Option.isSome_iff_ne_none.mpr hsome)
        rw [hget] at hkept
        cases hkept
      unfold Chain.recordAt at hchanged
      rw [hget, hbefore] at hchanged
      exact absurd rfl hchanged
    | some held =>
      have hid : idText sdk held.coin = id := get?_block_keys hkeys hget
      rw [List.map_map]
      exact List.mem_map.mpr ⟨(id, held), Table.mem_rows.mpr hget, hid⟩

theorem follows_new : Followed.new.Follows sdk w where
  keys h := by cases h
  records id := rfl

/-- One act keeps the store in step. -/
theorem follows_after (h : followed.Follows sdk w) {act : ChainAct} (hact : followed.Reported sdk act) :
    (followed.after sdk w act).Follows sdk w := by
  cases act with
  | block height spent created records =>
    refine ⟨get?_block_keys h.keys, fun id => ?_⟩
    show ((followed.engine.syncFromPeer w (.ok records)).1.wallet w).coins.get? id = _
    rw [coins_syncFromPeer]
    refine get?_delivered hact.truthful ?_
    by_cases hsame : (followed.chain.block sdk height spent created).recordAt sdk id =
        followed.chain.recordAt sdk id
    · exact .inl ((h.records id).trans hsame.symm)
    · exact .inr (hact.complete id hsame)
  | reorg forkHeight =>
    refine ⟨fun {id held} hheld => ?_, fun id => ?_⟩
    · have hheld' : (followed.chain.reorg forkHeight).get? id = some held := hheld
      unfold Chain.reorg at hheld'
      rw [Table.get?_alter, Table.get?_keep] at hheld'
      obtain ⟨before, hbefore, rfl⟩ := Option.map_eq_some_iff.mp hheld'
      have hid := h.keys (Option.filter_eq_some_iff.mp hbefore).1
      split_ifs
      · exact hid
      · exact hid
    · have hcoins : ((followed.engine.handleReorg w forkHeight).1.wallet w).coins =
          ((followed.engine.wallet w).rollbackTo forkHeight).1.coins := by
        rw [show (followed.engine.handleReorg w forkHeight).1 = SyncStep.performAll w followed.engine
          [.revert forkHeight, .progress .syncing forkHeight] from rfl, SyncStep.performAll_cons,
          SyncStep.performAll_cons, SyncStep.performAll_nil, wallet_progress, wallet_revert]
        rfl
      show ((followed.engine.handleReorg w forkHeight).1.wallet w).coins.get? id = _
      rw [hcoins, WalletState.get?_rollbackTo, h.records]
      exact (recordAt_reorg forkHeight id).symm

theorem follows_run {acts : List ChainAct}
    (hacts : AllAlong (Followed.after sdk w) (Followed.Reported sdk) followed acts)
    (h : followed.Follows sdk w) : (acts.foldl (Followed.after sdk w) followed).Follows sdk w :=
  hacts.invariant (fun hfollows hact => follows_after hfollows hact) h

/-! ## The balance -/

/-- The store's unspent amounts are the chain's. -/
theorem unspent_of_follows (h : followed.Follows sdk w) :
    ((followed.engine.wallet w).unspent.map fun coin => coin.amount.mojos).Perm
      (coinAmounts followed.chain.unspent) := by
  have hrows : (followed.engine.wallet w).coins.rows.Perm
      (followed.chain.alter fun _ held => held.record sdk).rows := by
    refine Table.perm_of_get? fun id => ?_
    rw [h.records, Table.get?_alter]
    rfl
  have hunspent := ((hrows.map Prod.snd).filter fun coin => coin.spentHeight.isNone).map
    fun coin => coin.amount.mojos
  have hchain : (((followed.chain.alter fun _ held => held.record sdk).rows.map Prod.snd).filter
      (fun coin => coin.spentHeight.isNone)).map (fun coin => coin.amount.mojos) =
      coinAmounts followed.chain.unspent := by
    show (((followed.chain.rows.map _).map Prod.snd).filter _).map _ = _
    rw [List.map_map, List.filter_map, List.map_map, coinAmounts, Chain.unspent, List.map_map]
    rfl
  rw [hchain] at hunspent
  exact hunspent

/-- The balance is the value of the unspent coins. -/
theorem balance_of_follows (h : followed.Follows sdk w) (overflowChecks : Bool)
    (hfits : total (coinAmounts followed.chain.unspent) < 2 ^ 64) : ∃ value : UInt64,
      followed.balance w overflowChecks = some ⟨⟨value⟩, ⟨value⟩⟩ ∧
      value.toNat = total (coinAmounts followed.chain.unspent) := by
  obtain ⟨value, hvalue, hnat⟩ := exists_sumU64 overflowChecks hfits
  refine ⟨value, ?_, hnat⟩
  unfold Followed.balance WalletState.balance
  rw [sumU64_perm overflowChecks (unspent_of_follows h), hvalue]
  rfl

/-! ## Unspent coins after a block -/

theorem mem_unspent (hkeys : ∀ {id held}, chain.get? id = some held → idText sdk held.coin = id)
    {coin : Coin} : coin ∈ chain.unspent ↔
      ∃ created, chain.get? (idText sdk coin) = some ⟨coin, created, none⟩ := by
  unfold Chain.unspent
  rw [List.mem_map]
  constructor
  · rintro ⟨⟨id, held⟩, hrow, rfl⟩
    obtain ⟨hmem, hspent⟩ := List.mem_filter.mp hrow
    have hget := Table.mem_rows.mp hmem
    obtain ⟨coin, created, spent⟩ := held
    obtain rfl : spent = none := Option.isNone_iff_eq_none.mp hspent
    exact ⟨created, (hkeys hget).symm ▸ hget⟩
  · rintro ⟨created, hget⟩
    exact ⟨_, List.mem_filter.mpr ⟨Table.mem_rows.mpr hget, rfl⟩, rfl⟩

theorem nodup_unspent (hkeys : ∀ {id held}, chain.get? id = some held → idText sdk held.coin = id) :
    (chain.unspent.map (idText sdk)).Nodup := by
  unfold Chain.unspent
  rw [List.map_map]
  have hcongr : (chain.rows.filter fun row => row.2.spent.isNone).map
      (idText sdk ∘ fun row => row.2.coin) =
      (chain.rows.filter fun row => row.2.spent.isNone).map Prod.fst := by
    refine List.map_congr_left fun row hrow => ?_
    exact hkeys (Table.mem_rows.mp (List.mem_filter.mp hrow).1)
  rw [hcongr]
  exact chain.unique.sublist (List.filter_sublist.map _)

theorem nodup_ids_of_texts {coins : List Coin} (h : (coins.map (idText sdk)).Nodup) :
    (coins.map sdk.coinId).Nodup := by
  have hcomp : coins.map (idText sdk) = (coins.map sdk.coinId).map fun id => hexEncode id.bytes := by
    rw [List.map_map]
    rfl
  rw [hcomp] at h
  exact h.of_map

theorem mem_texts {coins : List Coin} {coin : Coin} :
    idText sdk coin ∈ coins.map (idText sdk) ↔ sdk.coinId coin ∈ coins.map sdk.coinId := by
  constructor
  · intro h
    obtain ⟨coin', hcoin', heq⟩ := List.mem_map.mp h
    exact idText_injective heq ▸ List.mem_map_of_mem hcoin'
  · intro h
    obtain ⟨coin', hcoin', heq⟩ := List.mem_map.mp h
    refine List.mem_map.mpr ⟨coin', hcoin', ?_⟩
    unfold idText
    rw [heq]

variable {height : UInt32} {spent created : List Coin}

/-- Where it creates nothing, a block leaves what it makes of the coin there. -/
theorem get?_block_of_notMem {coin : Coin} (h : sdk.coinId coin ∉ created.map sdk.coinId) :
    (chain.block sdk height spent created).get? (idText sdk coin) =
      (chain.get? (idText sdk coin)).map fun held =>
        if idText sdk coin ∈ spent.map (idText sdk) then { held with spent := some height }
        else held := by
  unfold Chain.block
  induction created using List.reverseRecOn with
  | nil =>
    rw [List.foldl_nil, Table.get?_alter]
  | append_singleton created last ih =>
    rw [List.map_append, List.mem_append, not_or] at h
    have hlast : idText sdk last ≠ idText sdk coin := by
      intro heq
      exact h.2 (List.mem_singleton.mpr (idText_injective heq).symm)
    rw [List.foldl_append, List.foldl_cons, List.foldl_nil, Chain.create, Table.get?_put,
      if_neg hlast]
    exact ih h.1

variable (chain height spent) in
theorem get?_block_of_mem (hids : (created.map sdk.coinId).Nodup) {coin : Coin}
    (h : coin ∈ created) : (chain.block sdk height spent created).get? (idText sdk coin) =
      some ⟨coin, height, none⟩ := by
  unfold Chain.block
  induction created using List.reverseRecOn with
  | nil => cases h
  | append_singleton created last ih =>
    rw [List.map_append, List.map_singleton, List.nodup_append] at hids
    obtain ⟨hrest, -, hapart⟩ := hids
    rw [List.foldl_append, List.foldl_cons, List.foldl_nil, Chain.create, Table.get?_put]
    rcases List.mem_append.mp h with hmem | hmem
    · have hne : idText sdk last ≠ idText sdk coin := by
        intro heq
        exact hapart _ (List.mem_map_of_mem hmem) _ (List.mem_singleton.mpr rfl)
          (idText_injective heq).symm
      rw [if_neg hne]
      exact ih hrest hmem
    · obtain rfl := List.mem_singleton.mp hmem
      rw [if_pos rfl]

variable (height spent) in
/-- **The unspent coins after a block**: those it does not spend, and those it creates. -/
theorem unspent_block (hkeys : ∀ {id held}, chain.get? id = some held → idText sdk held.coin = id)
    (hfresh : ((chain.unspent ++ created).map sdk.coinId).Nodup) :
    (chain.block sdk height spent created).unspent.Perm
      (unspentBy sdk spent chain.unspent ++ created) := by
  have hkeys' := @get?_block_keys sdk chain height spent created hkeys
  have hleft : ((unspentBy sdk spent chain.unspent ++ created).map sdk.coinId).Nodup :=
    hfresh.sublist ((List.filter_sublist.append_right created).map sdk.coinId)
  rw [List.map_append, List.nodup_append] at hfresh
  obtain ⟨-, hcreated, hapart⟩ := hfresh
  refine (List.perm_ext_iff_of_nodup (nodup_unspent hkeys').of_map hleft.of_map).mpr fun coin => ?_
  rw [mem_unspent hkeys', List.mem_append]
  by_cases hmem : coin ∈ created
  · rw [get?_block_of_mem chain height spent hcreated hmem]
    exact iff_of_true ⟨height, rfl⟩ (.inr hmem)
  · rw [or_iff_left hmem]
    constructor
    · rintro ⟨created', hget⟩
      by_cases hid : sdk.coinId coin ∈ created.map sdk.coinId
      · obtain ⟨other, hother, heq⟩ := List.mem_map.mp hid
        have hsame : idText sdk other = idText sdk coin := congrArg (fun id : Bytes32 => hexEncode id.bytes) heq
        have hthere := get?_block_of_mem chain height spent hcreated hother
        rw [hsame, hget] at hthere
        have hcoin : coin = other := congrArg Held.coin (Option.some.inj hthere)
        exact absurd (hcoin ▸ hother) hmem
      · rw [get?_block_of_notMem hid] at hget
        obtain ⟨held, hheld, hafter⟩ := Option.map_eq_some_iff.mp hget
        split_ifs at hafter with hspent
        · cases hafter
        · subst hafter
          refine List.mem_filter.mpr ⟨(mem_unspent hkeys).mpr ⟨created', hheld⟩, ?_⟩
          exact decide_eq_true (mt mem_texts.mpr hspent)
    · intro hkept
      obtain ⟨hunspent, hspent⟩ := List.mem_filter.mp hkept
      obtain ⟨created', hget⟩ := (mem_unspent hkeys).mp hunspent
      have hid : sdk.coinId coin ∉ created.map sdk.coinId := by
        intro hid
        exact hapart _ (List.mem_map_of_mem hunspent) _ hid rfl
      refine ⟨created', ?_⟩
      rw [get?_block_of_notMem hid, hget, Option.map_some,
        if_neg (mt mem_texts.mp (of_decide_eq_true hspent))]

end Proofs

/-! ## Payments -/

/-- What a request pays to addresses that are not the wallet's. -/
def BuildRequest.paidToOthers (sdk : Sdk) (own : Bytes32 → Bool) (request : BuildRequest) : ℕ :=
  total ((request.summary.outputs.filter fun output =>
    (sdk.decodeAddress output.address.text).toOption.any fun hash => !own hash).map
      fun output => output.amount.mojos)

/-- The wallet's own coins of a bundle. -/
def ownCreated (sdk : Sdk) (own : Bytes32 → Bool) (coinSpends : List CoinSpend) : List Coin :=
  ((createdCoinObjects sdk coinSpends).toOption.getD []).filter fun coin => own coin.puzzleHash

section Payments

variable {sdk : Sdk} {own : Bytes32 → Bool}

theorem foreign_append (pairs pairs' : Pairs) :
    foreign own (pairs ++ pairs') = foreign own pairs ++ foreign own pairs' := List.filter_append ..

/-- Nothing at the wallet's own puzzle hash is paid to others. -/
theorem foreign_of_own {hash : Bytes32} (hown : own hash = true) {pairs : Pairs}
    (h : ∀ pair ∈ pairs, pair.1 = hash) : foreign own pairs = [] := by
  refine List.filter_eq_nil_iff.mpr fun pair hpair => ?_
  rw [h pair hpair, hown]
  decide

/-- Leg by leg, what a request pays to others. -/
theorem foreign_of_legs {outputs : List SpendOutput} {pairs : Pairs}
    (h : List.Forall₂ (fun (output : SpendOutput) (pair : Bytes32 × UInt64) =>
      sdk.decodeAddress output.address.text = .ok pair.1 ∧ output.amount.mojos = pair.2)
      outputs pairs) :
    pairsTotal (foreign own pairs) = total ((outputs.filter fun output =>
      (sdk.decodeAddress output.address.text).toOption.any fun hash => !own hash).map
        fun output => output.amount.mojos) := by
  induction h with
  | nil => rfl
  | @cons output pair outputs pairs hpair _ ih =>
    obtain ⟨hdecode, hamount⟩ := hpair
    unfold foreign at ih ⊢
    have hdecided : (sdk.decodeAddress output.address.text).toOption.any (fun hash => !own hash) =
        !own pair.1 := by
      rw [hdecode]
      rfl
    rw [List.filter_cons, List.filter_cons, hdecided]
    split_ifs
    · rw [List.map_cons, total_cons, hamount, ← ih, pairsTotal, List.map_cons, total_cons]
      rfl
    · exact ih

theorem foreign_of_asks {request : BuildRequest} {changePh : Bytes32} {legs : Pairs}
    {change : UInt64} (hown : own changePh = true) (h : request.Asks sdk changePh legs change) :
    pairsTotal (foreign own (legs ++ changePairs changePh change)) =
      request.paidToOthers sdk own := by
  have hchange : foreign own (changePairs changePh change) = [] := by
    refine foreign_of_own hown fun pair hpair => ?_
    unfold changePairs at hpair
    split_ifs at hpair
    · rw [List.mem_singleton.mp hpair]
    · cases hpair
  rw [foreign_append, hchange, List.append_nil]
  cases request with
  | sendCat r => exact h.elim
  | multiSendCat r => exact h.elim
  | sendXch r =>
    obtain ⟨hash, hdecode, rfl⟩ := h
    exact foreign_of_legs (.cons ⟨hdecode, rfl⟩ .nil)
  | multiSendXch r =>
    have hall : List.Forall₂ _ r.legs legs := h
    refine foreign_of_legs ?_
    show List.Forall₂ _ (r.legs.map _) legs
    rw [List.forall₂_map_left_iff]
    exact hall
  | combineXch r =>
    obtain ⟨⟨merged, rfl⟩, -⟩ := h
    rw [foreign_of_own hown fun pair hpair => congrArg Prod.fst (List.mem_singleton.mp hpair)]
    rfl
  | splitXch r =>
    rw [foreign_of_own hown h.2.1]
    rfl

variable {drivers : SpendDrivers} {wrap : CatInfo → Bytes32 → Bytes32} {overflowChecks : Bool}
  {builder : SdkSpendBuilder}

/-- What an XCH builder returned pays the request. -/
theorem paysRequest_of_built (hdrivers : drivers.Emit sdk wrap) {request : BuildRequest}
    (hxch : request.Xch) {coins : List Coin}
    (hcoins : builder.inputs.spendableXch request.identity = .ok coins)
    (hids : (coins.map sdk.coinId).Nodup) (hfits : total (coinAmounts coins) < 2 ^ 64)
    {unsigned : UnsignedSpend}
    (hbuilt : builder.build sdk drivers overflowChecks request = .ok unsigned) :
    PaysRequest sdk builder request coins unsigned := by
  obtain ⟨plan, hplanned⟩ := build_planned hdrivers hbuilt
  cases request with
  | sendCat r => exact absurd hxch id
  | multiSendCat r => exact absurd hxch id
  | combineXch r => exact paysRequest_of_combine hdrivers hcoins hids hfits hplanned rfl
  | splitXch r => exact paysRequest_of_split hdrivers hcoins hplanned rfl
  | sendXch r =>
    obtain ⟨target, destination, htarget, hdestination, hplan⟩ := sendXchPlan_eq_some hplanned.plan_eq
    obtain ⟨hsum, hpos⟩ := toNat_of_checkedTarget htarget
    refine paysRequest_of_payXch hdrivers hcoins hids hfits hplanned hplan ?_ hpos fun _ _ => ?_
    · rw [pairsTotal_single]
      exact hsum
    · exact ⟨destination, decodeAddress_eq_ok.mp hdestination, rfl⟩
  | multiSendXch r =>
    obtain ⟨destinations, payout, target, hdestinations, hpayout, htarget, hplan⟩ :=
      multiSendXchPlan_eq_some hplanned.plan_eq
    have hpos := target_pos_of_resolveLegs hdestinations hpayout htarget
    refine paysRequest_of_payXch hdrivers hcoins hids hfits hplanned hplan ?_ hpos fun _ _ => ?_
    · rw [pairsTotal_of_resolveLegs hdestinations, ← toNat_of_totalOf hpayout]
      exact toNat_of_checkedAdd htarget
    · exact (resolveLegs_eq_ok hdestinations).1.imp fun leg pair hleg => ⟨hleg.1, hleg.2.1⟩

variable {w : WalletId} {followed : Followed}

/-- A built payment that confirms lowers the value of the unspent coins by what it costs. -/
theorem value_of_payment (hdrivers : drivers.Emit sdk wrap) (h : followed.Follows sdk w)
    (hfits : total (coinAmounts followed.chain.unspent) < 2 ^ 64) {request : BuildRequest}
    (hxch : request.Xch)
    (hown : ∀ changePh, builder.inputs.changePuzzleHash request.identity = .ok changePh →
      own changePh = true) {unsigned : UnsignedSpend}
    (hbuilt : (builder.holding followed.chain.unspent).build sdk drivers overflowChecks request =
      .ok unsigned)
    (hconfirm : (confirm sdk own followed.chain.unspent unsigned.coinSpends).isSome) (height : UInt32) :
    total (coinAmounts (followed.chain.block sdk height unsigned.coins
      (ownCreated sdk own unsigned.coinSpends)).unspent) + request.paidToOthers sdk own +
        request.fee.toNat = total (coinAmounts followed.chain.unspent) := by
  have hids := nodup_ids_of_texts (nodup_unspent h.keys)
  have hpaid : PaysRequest sdk (builder.holding followed.chain.unspent) request
      followed.chain.unspent unsigned := paysRequest_of_built hdrivers hxch rfl hids hfits hbuilt
  obtain ⟨changePh, legs, change, hchangePh, hasks, hleads, hbalance⟩ := hpaid.pays
  obtain ⟨coins', hcoins'⟩ := Option.isSome_iff_exists.mp hconfirm
  have hvalue := value_of_confirm hleads hids hpaid.distinct hpaid.members hbalance hcoins'
  rw [foreign_of_asks (hown changePh hchangePh) hasks] at hvalue
  obtain ⟨created, hcreated, hfresh, rfl⟩ := confirm_eq_some hcoins'
  have hownCreated : ownCreated sdk own unsigned.coinSpends =
      created.filter fun coin => own coin.puzzleHash := by
    unfold ownCreated
    rw [hcreated]
    rfl
  have hfresh' : ((followed.chain.unspent ++ ownCreated sdk own unsigned.coinSpends).map
      sdk.coinId).Nodup := by
    rw [hownCreated]
    exact hfresh.sublist ((List.filter_sublist.append_left _).map sdk.coinId)
  have hunspent := unspent_block height unsigned.coins h.keys hfresh'
  rw [total_perm (coinAmounts_perm hunspent), hownCreated]
  exact hvalue

end Payments

/-- **The balance follows the chain**: after any blocks and reorgs it is the value of the unspent
coins, and a built payment that confirms next lowers it by the fee and what it pays to others. -/
theorem balance_follows (sdk : Sdk) (drivers : SpendDrivers) (wrap : CatInfo → Bytes32 → Bytes32)
    (hdrivers : drivers.Emit sdk wrap) (overflowChecks : Bool) (w : WalletId) (own : Bytes32 → Bool)
    (acts : List ChainAct)
    (hacts : AllAlong (Followed.after sdk w) (Followed.Reported sdk) .new acts)
    (followed : Followed) (hfollowed : acts.foldl (Followed.after sdk w) .new = followed)
    (hfits : total (coinAmounts followed.chain.unspent) < 2 ^ 64) :
    ∃ value : UInt64, followed.balance w overflowChecks = some ⟨⟨value⟩, ⟨value⟩⟩ ∧
      value.toNat = total (coinAmounts followed.chain.unspent) ∧
      ∀ (builder : SdkSpendBuilder) (request : BuildRequest) (unsigned : UnsignedSpend)
        (height : UInt32) (records : List CoinRecord), request.Xch →
        (∀ changePh, builder.inputs.changePuzzleHash request.identity = .ok changePh →
          own changePh = true) →
        (builder.holding followed.chain.unspent).build sdk drivers overflowChecks request =
          .ok unsigned →
        (confirm sdk own followed.chain.unspent unsigned.coinSpends).isSome →
        followed.Reported sdk (.block height unsigned.coins
          (ownCreated sdk own unsigned.coinSpends) records) →
        ∃ value' : UInt64,
          (followed.after sdk w (.block height unsigned.coins
            (ownCreated sdk own unsigned.coinSpends) records)).balance w overflowChecks =
              some ⟨⟨value'⟩, ⟨value'⟩⟩ ∧
          value'.toNat + request.paidToOthers sdk own + request.fee.toNat = value.toNat := by
  have h : followed.Follows sdk w := hfollowed ▸ follows_run hacts follows_new
  obtain ⟨value, hvalue, hnat⟩ := balance_of_follows h overflowChecks hfits
  refine ⟨value, hvalue, hnat, fun builder request unsigned height records hxch hown hbuilt hconfirm
    hreported => ?_⟩
  have hafter := follows_after h hreported
  have hpaid := value_of_payment hdrivers h hfits hxch hown hbuilt hconfirm height
  obtain ⟨value', hvalue', hnat'⟩ := balance_of_follows hafter overflowChecks
    (lt_of_le_of_lt (Nat.le_trans (Nat.le_add_right _ _) (Nat.le_trans (Nat.le_add_right _ _)
      hpaid.le)) hfits)
  refine ⟨value', hvalue', ?_⟩
  rw [hnat', hnat]
  exact hpaid

/-- A block whose every coin the peer reports. -/
def Sim.seen (followed : Followed) (height : UInt32) (spent created : List Coin) : ChainAct :=
  .block height spent created
    ((followed.chain.block sim height spent created).rows.map fun row => row.2.record sim)

open Sim in
/-- A coin of 100 mojos arrives, and one of 7 that a reorg takes back; 60 are sent with a fee of 5, and
35 are left. -/
theorem balance_follows_send :
    let first := Followed.after sim ⟨1⟩ .new (seen .new 1 [] [xchCoin 1 100])
    let acts := [seen .new 1 [] [xchCoin 1 100], seen first 2 [] [xchCoin 2 7], .reorg 1]
    let followed := acts.foldl (Followed.after sim ⟨1⟩) .new
    let request := BuildRequest.sendXch ⟨identity, addressOf (.rep 0x42), ⟨60⟩, ⟨5⟩⟩
    ∃ unsigned records value',
      (builder [xchCoin 1 100] []).build sim spendDrivers true request = .ok unsigned ∧
      (followed.after sim ⟨1⟩ (.block 2 unsigned.coins
        (ownCreated sim (fun hash => decide (hash = home)) unsigned.coinSpends) records)).balance ⟨1⟩
          true = some ⟨⟨value'⟩, ⟨value'⟩⟩ ∧ value'.toNat = 35 := by
  intro first acts followed request
  have hreported : Followed.Reported sim .new (seen .new 1 [] [xchCoin 1 100]) :=
    reports_all (by rintro id held ⟨⟩) 1 [] [xchCoin 1 100]
  have hfirst : first.Follows sim ⟨1⟩ := follows_after follows_new hreported
  have hacts : AllAlong (Followed.after sim ⟨1⟩) (Followed.Reported sim) .new acts :=
    ⟨hreported, reports_all hfirst.keys 2 [] [xchCoin 2 7], trivial, trivial⟩
  have hfollows : followed.Follows sim ⟨1⟩ := follows_run hacts follows_new
  have hunspent : followed.chain.unspent = [xchCoin 1 100] := by decide +kernel
  have hbuilds : ((builder followed.chain.unspent []).build sim spendDrivers true request).toOption.any
      (fun unsigned => (confirm sim (fun hash => decide (hash = home)) followed.chain.unspent
        unsigned.coinSpends).isSome) = true := by decide +kernel
  obtain ⟨unsigned, hbuilt, hconfirm⟩ := (Option.any_eq_true _ _).mp hbuilds
  obtain ⟨value, -, hvalue, hpays⟩ := balance_follows sim spendDrivers wrap spendDrivers_emit true ⟨1⟩
    (fun hash => decide (hash = home)) acts hacts followed rfl (by decide +kernel)
  obtain ⟨value', hvalue', hcost⟩ := hpays (builder [] []) request unsigned 2 _ trivial
    (fun changePh hchangePh => decide_eq_true (Except.ok.inj hchangePh).symm)
    (toOption_eq_some.mp hbuilt) hconfirm (reports_all hfollows.keys 2 _ _)
  refine ⟨unsigned, _, value', ?_, hvalue', ?_⟩
  · rw [← hunspent]
    exact toOption_eq_some.mp hbuilt
  · have hothers : request.paidToOthers sim (fun hash => decide (hash = home)) = 60 := by
      decide +kernel
    have hfee : request.fee.toNat = 5 := rfl
    have htotal : total (coinAmounts followed.chain.unspent) = 100 := by
      rw [hunspent]
      rfl
    omega

end DigWallet
