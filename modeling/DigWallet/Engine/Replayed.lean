import Mathlib.Logic.Function.Basic
import DigWallet.Engine.Steps

/-!
# DigWallet.Engine.Replayed — the coin states a subscriber rebuilds

A subscriber keeps, under every coin id, what the last `CoinStateChanged` for it carried.  After
every run of calls that is the coin state in the store, and `gone` for a coin the store lacks.
-/

namespace DigWallet

/-! ## The stream, read by coin id -/

/-- What a `CoinStateChanged` says of a coin. -/
structure CoinState where
  spent : Bool
  createdHeight : Option UInt32
  spentHeight : Option UInt32
deriving DecidableEq

/-- The state of a coin that was rolled back. -/
def CoinState.gone : CoinState := ⟨false, none, none⟩

def CoinRecord.coinState (record : CoinRecord) : CoinState :=
  ⟨record.spentHeight.isSome, record.createdHeight, record.spentHeight⟩

/-- The state an event carries for a coin. -/
def WalletEvent.stateOf (id : String) : WalletEvent → Option CoinState
  | coinStateChanged coinId spent createdHeight spentHeight =>
    if coinId = id then some ⟨spent, createdHeight, spentHeight⟩ else none
  | _ => none

/-- The state the last event for a coin carries. -/
def lastState (events : List WalletEvent) (id : String) : Option CoinState :=
  events.reverse.findSome? (WalletEvent.stateOf id)

theorem lastState_append (events events' : List WalletEvent) (id : String) :
    lastState (events ++ events') id = (lastState events' id).or (lastState events id) := by
  unfold lastState
  rw [List.reverse_append, List.findSome?_append]

/-- What a subscriber holds after one more event. -/
def follow (view : String → CoinState) : WalletEvent → String → CoinState
  | .coinStateChanged coinId spent createdHeight spentHeight =>
    Function.update view coinId ⟨spent, createdHeight, spentHeight⟩
  | _ => view

theorem follow_apply (view : String → CoinState) (event : WalletEvent) (id : String) :
    follow view event id = (event.stateOf id).getD (view id) := by
  cases event with
  | coinStateChanged coinId spent createdHeight spentHeight =>
    show Function.update view coinId _ id = Option.getD (if coinId = id then some _ else none) _
    by_cases hid : coinId = id
    · subst hid
      rw [Function.update_self, if_pos rfl, Option.getD_some]
    · rw [Function.update_of_ne (Ne.symm hid), if_neg hid, Option.getD_none]
  | _ => rfl

/-- Folding the stream is reading the last event for each id. -/
theorem foldl_follow (events : List WalletEvent) (view : String → CoinState) (id : String) :
    events.foldl follow view id = (lastState events id).getD (view id) := by
  induction events generalizing view with
  | nil => rfl
  | cons event events ih =>
    have hsplit : lastState (event :: events) id = (lastState events id).or (event.stateOf id) := by
      have hone : lastState [event] id = event.stateOf id := by
        cases hstate : event.stateOf id <;> simp [lastState, hstate]
      rw [← hone]
      exact lastState_append [event] events id
    rw [List.foldl_cons, ih, follow_apply, hsplit]
    cases lastState events id with
    | none => rfl
    | some state => rfl

/-! ## What the steps publish -/

theorem lastState_changeEvents (w : WalletId) (record : CoinRecord) (change : CoinChange)
    (id : String) :
    lastState (changeEvents w record change) id =
      if change ≠ .unchanged ∧ record.coinId = id then some record.coinState else none := by
  unfold changeEvents
  by_cases hchange : change = .unchanged
  · rw [if_pos hchange, if_neg (fun h => h.1 hchange)]
    rfl
  · have hfunds : lastState (fundsEvent w record change).toList id = none := by
      unfold fundsEvent
      cases change with
      | created => cases record.createdHeight <;> rfl
      | spent => cases record.spentHeight <;> rfl
      | updated => rfl
      | unchanged => rfl
    have hstate : lastState [coinStateChanged record] id =
        if record.coinId = id then some record.coinState else none := by
      show List.findSome? _ [coinStateChanged record] = _
      rw [List.findSome?_singleton]
      rfl
    rw [if_neg hchange, lastState_append, hfunds, hstate, Option.or_none]
    simp only [ne_eq, hchange, not_false_eq_true, true_and]

/-- What a wallet's store says of a coin, `gone` when it has no record of it. -/
def WalletState.stateAt (state : WalletState) (id : String) : CoinState :=
  ((state.coins.get? id).map CoinRecord.coinState).getD .gone

theorem stateOf_revertedEvent (state : WalletState) (coinId id : String) :
    (SyncEngine.revertedEvent state coinId).stateOf id =
      if coinId = id then some (state.stateAt id) else none := by
  show (if coinId = id then _ else none) = _
  by_cases hid : coinId = id
  · subst hid
    rw [if_pos rfl, if_pos rfl]
    unfold WalletState.stateAt
    cases state.coins.get? coinId with
    | none => rfl
    | some coin => rfl
  · rw [if_neg hid, if_neg hid]

theorem lastState_reverted (state : WalletState) (ids : List String) (id : String) :
    lastState (ids.map (SyncEngine.revertedEvent state)) id =
      if id ∈ ids then some (state.stateAt id) else none := by
  unfold lastState
  by_cases hmem : id ∈ ids
  · rw [if_pos hmem]
    have hfound : (List.findSome? (WalletEvent.stateOf id)
        (ids.map (SyncEngine.revertedEvent state)).reverse).isSome = true := by
      rw [List.findSome?_isSome_iff]
      refine ⟨SyncEngine.revertedEvent state id, ?_, ?_⟩
      · exact List.mem_reverse.mpr (List.mem_map_of_mem hmem)
      · rw [stateOf_revertedEvent, if_pos rfl]
        rfl
    obtain ⟨found, hfound⟩ := Option.isSome_iff_exists.mp hfound
    obtain ⟨event, hevent, hstate⟩ := List.exists_of_findSome?_eq_some hfound
    obtain ⟨coinId, -, rfl⟩ := List.mem_map.mp (List.mem_reverse.mp hevent)
    rw [stateOf_revertedEvent] at hstate
    obtain ⟨-, hstate⟩ := Option.ite_none_right_eq_some.mp hstate
    rw [hfound, hstate]
  · rw [if_neg hmem, List.findSome?_eq_none_iff]
    intro event hevent
    obtain ⟨coinId, hcoin, rfl⟩ := List.mem_map.mp (List.mem_reverse.mp hevent)
    rw [stateOf_revertedEvent, if_neg]
    rintro rfl
    exact hmem hcoin

/-! ## The invariant -/

section Invariant

variable {w : WalletId} {engine : SyncEngine}

/-- Every stored coin is under its own id, and the last event for it carries its state; a coin that
is no longer stored was last announced as gone. -/
structure Replayed (w : WalletId) (engine : SyncEngine) : Prop where
  keyed : ∀ id coin, (engine.wallet w).coins.get? id = some coin → coin.coinId = id
  held : ∀ id coin, (engine.wallet w).coins.get? id = some coin →
    lastState engine.published id = some coin.coinState
  gone : ∀ id, (engine.wallet w).coins.get? id = none →
    ∀ state ∈ lastState engine.published id, state = .gone

theorem replayed_new : Replayed w .new where
  keyed id coin hget := by cases hget
  held id coin hget := by cases hget
  gone id _ state hstate := by cases hstate

/-- A step that leaves the coins and the events for them alone. -/
theorem Replayed.of_same {engine' : SyncEngine} (h : Replayed w engine)
    (hcoins : (engine'.wallet w).coins = (engine.wallet w).coins)
    (hlast : ∀ id, lastState engine'.published id = lastState engine.published id) :
    Replayed w engine' where
  keyed id coin hget := h.keyed id coin (hcoins ▸ hget)
  held id coin hget := (hlast id).trans (h.held id coin (hcoins ▸ hget))
  gone id hget state hstate := h.gone id (hcoins ▸ hget) state (hlast id ▸ hstate)

theorem unchanged_iff {previous : Option CoinRecord} {record : CoinRecord} :
    classifyCoinChange previous record = .unchanged ↔ previous = some record := by
  unfold classifyCoinChange
  cases previous with
  | none => by_cases hspent : record.spentHeight.isSome = true <;> simp [hspent]
  | some prev =>
    by_cases hsame : prev = record
    · exact iff_of_true (if_pos hsame) (congrArg some hsame)
    · refine iff_of_false ?_ fun h => hsame (Option.some.inj h)
      dsimp only
      rw [if_neg hsame]
      by_cases hspent : prev.spentHeight.isNone = true ∧ record.spentHeight.isSome = true
      · rw [if_pos hspent]
        exact CoinChange.noConfusion
      · rw [if_neg hspent]
        exact CoinChange.noConfusion

theorem replayed_deliver (h : Replayed w engine) (record : CoinRecord) :
    Replayed w ((SyncStep.deliver record).perform w engine) := by
  have hlast : ∀ id, lastState ((SyncStep.deliver record).perform w engine).published id =
      if record.coinId = id then some record.coinState else lastState engine.published id := by
    intro id
    show lastState (engine.published ++ changeEvents w record _) id = _
    rw [lastState_append, lastState_changeEvents]
    by_cases hid : record.coinId = id
    · subst hid
      rw [if_pos rfl]
      by_cases hchange : (engine.wallet w).coins.get? record.coinId = some record
      · have hunchanged := unchanged_iff.mpr hchange
        rw [if_neg (fun hne => hne.1 hunchanged), Option.none_or]
        exact h.held record.coinId record hchange
      · rw [if_pos ⟨fun hunchanged => hchange (unchanged_iff.mp hunchanged), rfl⟩, Option.some_or]
    · rw [if_neg (fun hne => hid hne.2), if_neg hid, Option.none_or]
  constructor
  · intro id coin hcoin
    rw [get?_deliver] at hcoin
    by_cases hid : record.coinId = id
    · rw [if_pos hid] at hcoin
      obtain rfl := Option.some.inj hcoin
      exact hid
    · rw [if_neg hid] at hcoin
      exact h.keyed id coin hcoin
  · intro id coin hcoin
    rw [get?_deliver] at hcoin
    rw [hlast]
    by_cases hid : record.coinId = id
    · rw [if_pos hid] at hcoin ⊢
      obtain rfl := Option.some.inj hcoin
      rfl
    · rw [if_neg hid] at hcoin ⊢
      exact h.held id coin hcoin
  · intro id hnone state hstate
    rw [get?_deliver] at hnone
    rw [hlast] at hstate
    by_cases hid : record.coinId = id
    · rw [if_pos hid] at hnone
      cases hnone
    · rw [if_neg hid] at hnone hstate
      exact h.gone id hnone state hstate

/-! ### A reorg -/

theorem replayed_revert (h : Replayed w engine) (forkHeight : UInt32) :
    Replayed w ((SyncStep.revert forkHeight).perform w engine) := by
  have hlast : ∀ id, lastState ((SyncStep.revert forkHeight).perform w engine).published id =
      if id ∈ ((engine.wallet w).rollbackTo forkHeight).2 then
        some (((engine.wallet w).rollbackTo forkHeight).1.stateAt id)
      else lastState engine.published id := by
    intro id
    show lastState (engine.published ++ List.map _ _) id = _
    rw [lastState_append, lastState_reverted]
    by_cases hmem : id ∈ ((engine.wallet w).rollbackTo forkHeight).2
    · rw [if_pos hmem, if_pos hmem, Option.some_or]
    · rw [if_neg hmem, if_neg hmem, Option.none_or]
  constructor
  · intro id coin hcoin
    rw [wallet_revert] at hcoin
    obtain ⟨before, hbefore, -, ⟨-, rfl⟩ | ⟨-, rfl⟩⟩ := WalletState.rollbackTo_cases hcoin
    · exact h.keyed id before hbefore
    · exact h.keyed id coin hbefore
  · intro id coin hcoin
    rw [wallet_revert] at hcoin
    rw [hlast]
    by_cases hmem : id ∈ ((engine.wallet w).rollbackTo forkHeight).2
    · rw [if_pos hmem]
      unfold WalletState.stateAt
      rw [hcoin]
      rfl
    · rw [if_neg hmem]
      rw [WalletState.get?_rollbackTo_of_notMem hmem] at hcoin
      exact h.held id coin hcoin
  · intro id hnone state hstate
    rw [wallet_revert] at hnone
    rw [hlast] at hstate
    by_cases hmem : id ∈ ((engine.wallet w).rollbackTo forkHeight).2
    · rw [if_pos hmem] at hstate
      obtain rfl := Option.some.inj hstate
      unfold WalletState.stateAt
      rw [hnone]
      rfl
    · rw [if_neg hmem] at hstate
      rw [WalletState.get?_rollbackTo_of_notMem hmem] at hnone
      exact h.gone id hnone state hstate

/-! ### Every step -/

theorem replayed_step (step : SyncStep) (h : Replayed w engine) :
    Replayed w (step.perform w engine) := by
  cases step with
  | deliver record => exact replayed_deliver h record
  | raisePeak height =>
    refine h.of_same ?_ fun id => rfl
    rw [wallet_raisePeak]
    rfl
  | progress state peak =>
    refine h.of_same ?_ fun id => ?_
    · rw [wallet_progress]
      rfl
    · show lastState (engine.published ++ [.syncProgress w state peak peak]) id = _
      rw [lastState_append]
      exact Option.none_or
  | revert forkHeight => exact replayed_revert h forkHeight

end Invariant

/-- After every run of calls the last event for a stored coin carries its state, the last event for
a coin no longer stored says it is gone, and a subscriber holds the coin states of the store. -/
theorem coin_states_replayed (w : WalletId) (calls : List SyncCall) :
    let engine := calls.foldl (SyncCall.perform w) .new
    (∀ id coin, (engine.wallet w).coins.get? id = some coin →
      lastState engine.published id =
        some ⟨coin.spentHeight.isSome, coin.createdHeight, coin.spentHeight⟩) ∧
    (∀ id, (engine.wallet w).coins.get? id = none →
      ∀ state ∈ lastState engine.published id, state = ⟨false, none, none⟩) ∧
    ∀ id, engine.published.foldl follow (fun _ => .gone) id = (engine.wallet w).stateAt id := by
  intro engine
  have h : Replayed w engine := run_invariant w replayed_step replayed_new calls
  refine ⟨h.held, h.gone, ?_⟩
  intro id
  rw [foldl_follow]
  unfold WalletState.stateAt
  cases hget : (engine.wallet w).coins.get? id with
  | some coin =>
    rw [h.held id coin hget]
    rfl
  | none =>
    cases hlast : lastState engine.published id with
    | none => rfl
    | some state => exact h.gone id hget state hlast

end DigWallet
