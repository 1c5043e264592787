import DigWallet.Engine.Steps
import DigWallet.Lib.Runs

/-!
# DigWallet.Engine.Announced — which coins a subscriber has heard of

A spent coin is always announced.  A confirmed unspent one is announced when it enters the store
that way; the ghost list `introduced` keeps the coins that did, and a coin that becomes confirmed
and unspent later is announced only if it is among them.
-/

namespace DigWallet

/-- Confirmed value: created, not spent. -/
def CoinRecord.confirmedUnspent (record : CoinRecord) : Bool :=
  record.createdHeight.isSome && record.spentHeight.isNone

/-- Every coin of confirmed value was announced as received, every spent one as sent. -/
structure Announced (w : WalletId) (engine : SyncEngine) : Prop where
  received : ∀ id coin, (engine.wallet w).coins.get? id = some coin → coin.confirmedUnspent = true →
    ∃ height, .fundsReceived w none coin.amount id height ∈ engine.published
  sent : ∀ id coin, (engine.wallet w).coins.get? id = some coin → coin.spentHeight.isSome = true →
    ∃ amount height, .fundsSent w none amount id height ∈ engine.published

/-- The engine, and the coins delivered as confirmed and unspent while the store held no record of
them. -/
structure Watched where
  engine : SyncEngine
  introduced : List (String × Amount)

section Watching

variable (w : WalletId)

/-- The coin a step introduces. -/
def introduction (state : WalletState) : SyncStep → Option (String × Amount)
  | .deliver record =>
    if (state.coins.get? record.coinId).isNone && record.confirmedUnspent then
      some (record.coinId, record.amount)
    else none
  | _ => none

/-- A coin that becomes confirmed and unspent by a change of its record or by a reorg was
introduced, with the same amount. -/
def IntroducedFirst (watched : Watched) : SyncStep → Prop
  | .deliver record =>
    ∀ previous ∈ (watched.engine.wallet w).coins.get? record.coinId, previous ≠ record →
      record.confirmedUnspent = true → (record.coinId, record.amount) ∈ watched.introduced
  | .revert forkHeight =>
    ∀ row ∈ (watched.engine.wallet w).coins.rows, above forkHeight row.2.createdHeight = false →
      above forkHeight row.2.spentHeight = true → row.2.createdHeight.isSome = true →
        (row.1, row.2.amount) ∈ watched.introduced
  | _ => True

instance (watched : Watched) : DecidablePred (IntroducedFirst w watched)
  | .deliver _ => inferInstanceAs (Decidable (∀ previous ∈ Table.get? _ _, _))
  | .revert _ => inferInstanceAs (Decidable (∀ row ∈ Table.rows _, _))
  | .raisePeak _ => inferInstanceAs (Decidable True)
  | .progress _ _ => inferInstanceAs (Decidable True)

def Watched.after (watched : Watched) (step : SyncStep) : Watched where
  engine := step.perform w watched.engine
  introduced := watched.introduced ++ (introduction (watched.engine.wallet w) step).toList

/-- A call, with what its steps introduce. -/
def Watched.afterCall (watched : Watched) (call : SyncCall) : Option Watched :=
  some {
    engine := call.perform w watched.engine
    introduced := ((call.steps w watched.engine).foldl (Watched.after w) watched).introduced }

/-- The condition on a call: its steps meet it one after the other. -/
def CallIntroducedFirst (watched : Watched) (call : SyncCall) : Prop :=
  AllAlong (Watched.after w) (IntroducedFirst w) watched (call.steps w watched.engine)

instance (watched : Watched) (call : SyncCall) : Decidable (CallIntroducedFirst w watched call) :=
  inferInstanceAs (Decidable (AllAlong _ _ watched _))

end Watching

/-! ## The invariant -/

section Invariant

variable {w : WalletId} {watched : Watched}

/-- What keeps the coins announced: the introduced ones were, and the confirmed unspent ones in the
store are among them. -/
structure WatchInv (w : WalletId) (watched : Watched) : Prop where
  announced : ∀ coin ∈ watched.introduced,
    ∃ height, .fundsReceived w none coin.2 coin.1 height ∈ watched.engine.published
  known : ∀ id coin, (watched.engine.wallet w).coins.get? id = some coin →
    coin.confirmedUnspent = true → (id, coin.amount) ∈ watched.introduced
  sent : ∀ id coin, (watched.engine.wallet w).coins.get? id = some coin →
    coin.spentHeight.isSome = true →
      ∃ amount height, .fundsSent w none amount id height ∈ watched.engine.published

theorem WatchInv.toAnnounced (h : WatchInv w watched) : Announced w watched.engine where
  received id coin hget hcounts := h.announced _ (h.known id coin hget hcounts)
  sent := h.sent

theorem watchInv_new : WatchInv w ⟨.new, []⟩ where
  announced coin hcoin := absurd hcoin List.not_mem_nil
  known id coin hget := by cases hget
  sent id coin hget := by cases hget

theorem published_subset (engine : SyncEngine) (step : SyncStep) :
    engine.published ⊆ (step.perform w engine).published := by
  cases step with
  | raisePeak => exact List.Subset.refl _
  | deliver | progress | revert => exact List.subset_append_left _ _

theorem fundsEvent_mem_changeEvents {record : CoinRecord} {change : CoinChange}
    {event : WalletEvent} (h : fundsEvent w record change = some event) :
    event ∈ changeEvents w record change := by
  have hchange : change ≠ .unchanged := by
    rintro rfl
    cases h
  unfold changeEvents
  rw [if_neg hchange, h]
  exact List.mem_append_left _ (List.mem_singleton_self event)

/-- A spent record that replaces none, or an unspent one, is announced as sent. -/
theorem sent_of_classify {previous : Option CoinRecord} {record : CoinRecord}
    (hspent : record.spentHeight.isSome = true)
    (hprevious : ∀ prev, previous = some prev → prev.spentHeight.isSome = false) :
    ∃ height, .fundsSent w none record.amount record.coinId height ∈
      changeEvents w record (classifyCoinChange previous record) := by
  obtain ⟨height, hheight⟩ := Option.isSome_iff_exists.mp hspent
  have hclassify : classifyCoinChange previous record = .spent := by
    cases previous with
    | none => exact if_pos hspent
    | some prev =>
      have hunspent := hprevious prev rfl
      have hne : prev ≠ record := by
        rintro rfl
        rw [hunspent] at hspent
        cases hspent
      have hnone : prev.spentHeight.isNone = true := by
        rwa [← Option.not_isSome, Bool.not_eq_true']
      exact (if_neg hne).trans (if_pos ⟨hnone, hspent⟩)
  refine ⟨height, fundsEvent_mem_changeEvents ?_⟩
  rw [hclassify]
  unfold fundsEvent
  rw [hheight]
  rfl

/-- A confirmed unspent record new to the store is announced as received. -/
theorem received_of_classify {record : CoinRecord} (h : record.confirmedUnspent = true) :
    ∃ height, .fundsReceived w none record.amount record.coinId height ∈
      changeEvents w record (classifyCoinChange none record) := by
  obtain ⟨hcreated, hunspent⟩ := Bool.and_eq_true_iff.mp h
  obtain ⟨height, hheight⟩ := Option.isSome_iff_exists.mp hcreated
  have hclassify : classifyCoinChange none record = .created := by
    refine if_neg ?_
    rw [Option.isNone_iff_eq_none.mp hunspent]
    exact Bool.false_ne_true
  refine ⟨height, fundsEvent_mem_changeEvents ?_⟩
  rw [hclassify]
  unfold fundsEvent
  rw [hheight]
  rfl

/-! ### One delivery -/

theorem engine_after (step : SyncStep) :
    (watched.after w step).engine = step.perform w watched.engine := rfl

theorem announced_deliver (h : WatchInv w watched) (record : CoinRecord) :
    ∀ coin ∈ (watched.after w (.deliver record)).introduced, ∃ height,
      .fundsReceived w none coin.2 coin.1 height ∈
        (watched.after w (.deliver record)).engine.published := by
  intro coin hcoin
  rcases List.mem_append.mp hcoin with hold | hnew
  · obtain ⟨height, hevent⟩ := h.announced coin hold
    exact ⟨height, published_subset _ _ hevent⟩
  · have hintro : (if ((watched.engine.wallet w).coins.get? record.coinId).isNone &&
        record.confirmedUnspent then some (record.coinId, record.amount) else none) = some coin :=
      Option.mem_toList.mp hnew
    obtain ⟨hcond, hcoin⟩ := Option.ite_none_right_eq_some.mp hintro
    obtain rfl := Option.some.inj hcoin
    obtain ⟨hnone, hcounts⟩ := Bool.and_eq_true_iff.mp hcond
    obtain ⟨height, hevent⟩ := received_of_classify (w := w) hcounts
    refine ⟨height, List.mem_append_right _ ?_⟩
    show _ ∈ changeEvents w record (classifyCoinChange (Table.get? _ record.coinId) record)
    rwa [Option.isNone_iff_eq_none.mp hnone]

theorem known_deliver (h : WatchInv w watched) {record : CoinRecord}
    (hfirst : IntroducedFirst w watched (.deliver record)) :
    ∀ id coin, ((watched.after w (.deliver record)).engine.wallet w).coins.get? id = some coin →
      coin.confirmedUnspent = true →
        (id, coin.amount) ∈ (watched.after w (.deliver record)).introduced := by
  intro id coin hstored hcounts
  rw [engine_after, get?_deliver] at hstored
  by_cases hid : record.coinId = id
  · rw [if_pos hid] at hstored
    obtain rfl := Option.some.inj hstored
    subst hid
    cases hprevious : (watched.engine.wallet w).coins.get? record.coinId with
    | none =>
      refine List.mem_append_right _ (Option.mem_toList.mpr ?_)
      show (if ((watched.engine.wallet w).coins.get? record.coinId).isNone &&
        record.confirmedUnspent then some (record.coinId, record.amount) else none) = some _
      rw [hprevious, hcounts]
      rfl
    | some prev =>
      refine List.mem_append_left _ ?_
      by_cases hsame : prev = record
      · subst hsame
        exact h.known prev.coinId prev hprevious hcounts
      · exact hfirst prev hprevious hsame hcounts
  · rw [if_neg hid] at hstored
    exact List.mem_append_left _ (h.known id coin hstored hcounts)

theorem sent_deliver (h : WatchInv w watched) (record : CoinRecord) :
    ∀ id coin, ((watched.after w (.deliver record)).engine.wallet w).coins.get? id = some coin →
      coin.spentHeight.isSome = true → ∃ amount height, .fundsSent w none amount id height ∈
        (watched.after w (.deliver record)).engine.published := by
  have hold : ∀ id coin, (watched.engine.wallet w).coins.get? id = some coin →
      coin.spentHeight.isSome = true → ∃ amount height, .fundsSent w none amount id height ∈
        (watched.after w (.deliver record)).engine.published := by
    intro id coin hstored hspent
    obtain ⟨amount, height, hevent⟩ := h.sent id coin hstored hspent
    exact ⟨amount, height, published_subset _ _ hevent⟩
  intro id coin hstored hspent
  rw [engine_after, get?_deliver] at hstored
  by_cases hid : record.coinId = id
  · rw [if_pos hid] at hstored
    obtain rfl := Option.some.inj hstored
    subst hid
    by_cases hprevious : ∃ prev, (watched.engine.wallet w).coins.get? record.coinId = some prev ∧
        prev.spentHeight.isSome = true
    · obtain ⟨prev, hprev, hprevSpent⟩ := hprevious
      exact hold record.coinId prev hprev hprevSpent
    · have hunspent : ∀ prev, (watched.engine.wallet w).coins.get? record.coinId = some prev →
          prev.spentHeight.isSome = false := by
        intro prev hprev
        exact Bool.eq_false_iff.mpr fun hspent => hprevious ⟨prev, hprev, hspent⟩
      obtain ⟨height, hevent⟩ := sent_of_classify (w := w) hspent hunspent
      exact ⟨record.amount, height, List.mem_append_right _ hevent⟩
  · rw [if_neg hid] at hstored
    exact hold id coin hstored hspent

/-! ### The other steps -/

/-- A step that introduces nothing keeps the invariant when each of its coins is a coin of before,
unless it became confirmed and unspent and was introduced. -/
theorem watchInv_of_coins (h : WatchInv w watched) {step : SyncStep}
    (hnone : introduction (watched.engine.wallet w) step = none)
    (hcoins : ∀ id coin, ((step.perform w watched.engine).wallet w).coins.get? id = some coin →
      (watched.engine.wallet w).coins.get? id = some coin ∨
        coin.spentHeight = none ∧
          (coin.confirmedUnspent = true → (id, coin.amount) ∈ watched.introduced)) :
    WatchInv w (watched.after w step) := by
  have hintroduced : (watched.after w step).introduced = watched.introduced := by
    show watched.introduced ++ (introduction _ step).toList = _
    rw [hnone]
    exact List.append_nil _
  constructor
  · intro coin hcoin
    rw [hintroduced] at hcoin
    obtain ⟨height, hevent⟩ := h.announced coin hcoin
    exact ⟨height, published_subset _ _ hevent⟩
  · intro id coin hstored hcounts
    rw [hintroduced]
    rcases hcoins id coin hstored with hold | ⟨-, hknown⟩
    · exact h.known id coin hold hcounts
    · exact hknown hcounts
  · intro id coin hstored hspent
    rcases hcoins id coin hstored with hold | ⟨hunspent, -⟩
    · obtain ⟨amount, height, hevent⟩ := h.sent id coin hold hspent
      exact ⟨amount, height, published_subset _ _ hevent⟩
    · rw [hunspent] at hspent
      cases hspent

theorem coins_revert {forkHeight : UInt32}
    (hfirst : IntroducedFirst w watched (.revert forkHeight)) (id : String) (coin : CoinRecord)
    (hstored : (((SyncStep.revert forkHeight).perform w watched.engine).wallet w).coins.get? id =
      some coin) :
    (watched.engine.wallet w).coins.get? id = some coin ∨
      coin.spentHeight = none ∧
        (coin.confirmedUnspent = true → (id, coin.amount) ∈ watched.introduced) := by
  rw [wallet_revert] at hstored
  obtain ⟨before, hbefore, hcreated, ⟨hspent, rfl⟩ | ⟨-, rfl⟩⟩ := WalletState.rollbackTo_cases hstored
  · refine .inr ⟨rfl, ?_⟩
    intro hcounts
    have hconfirmed : before.createdHeight.isSome = true := (Bool.and_eq_true_iff.mp hcounts).1
    exact hfirst (id, before) (Table.mem_rows.mpr hbefore) hcreated hspent hconfirmed
  · exact .inl hbefore

theorem watchInv_after {watched : Watched} {step : SyncStep} (h : WatchInv w watched)
    (hfirst : IntroducedFirst w watched step) : WatchInv w (watched.after w step) := by
  cases step with
  | deliver record =>
    exact ⟨announced_deliver h record, known_deliver h hfirst, sent_deliver h record⟩
  | raisePeak height =>
    refine watchInv_of_coins h rfl fun id coin hstored => .inl ?_
    rwa [wallet_raisePeak] at hstored
  | progress state peak =>
    refine watchInv_of_coins h rfl fun id coin hstored => .inl ?_
    rwa [wallet_progress] at hstored
  | revert forkHeight => exact watchInv_of_coins h rfl (coins_revert hfirst)

/-! ### Calls and runs -/

theorem engine_afterAll (steps : List SyncStep) (watched : Watched) :
    (steps.foldl (Watched.after w) watched).engine =
      SyncStep.performAll w watched.engine steps :=
  (List.foldl_hom Watched.engine fun _ _ => rfl).symm

theorem watchInv_afterCall {call : SyncCall} {next : Watched} (h : WatchInv w watched)
    (hfirst : CallIntroducedFirst w watched call) (hcall : watched.afterCall w call = some next) :
    WatchInv w next := by
  obtain rfl := Option.some.inj hcall
  have hsteps : WatchInv w ((call.steps w watched.engine).foldl (Watched.after w) watched) :=
    hfirst.invariant watchInv_after h
  have hengine := engine_afterAll (w := w) (call.steps w watched.engine) watched
  rw [← perform_eq] at hengine
  rw [← hengine]
  exact hsteps

/-- In every run from an empty store in which a coin becomes confirmed and unspent, by a change of
its record or by a reorg, only after it was introduced with that amount, every coin was announced. -/
theorem announced_of_introduced_first {watched : Watched}
    (hrun : Run (Watched.afterCall w) (CallIntroducedFirst w) ⟨.new, []⟩ watched) :
    Announced w watched.engine := by
  have hinv : WatchInv w watched := hrun.invariant watchInv_afterCall watchInv_new
  exact hinv.toAnnounced

end Invariant

/-- A coin received, spent, and un-spent by a reorg. -/
def receivedThenReverted : List SyncCall :=
  [.ingest [⟨"c1", ⟨"p"⟩, ⟨5⟩, some 3, none⟩], .ingest [⟨"c1", ⟨"p"⟩, ⟨5⟩, some 3, some 9⟩],
    .handleReorg 7]

theorem announced_of_introduced_first_receivedThenReverted :
    ∃ watched, Run (Watched.afterCall ⟨7⟩) (CallIntroducedFirst ⟨7⟩) ⟨.new, []⟩ watched ∧
      (watched.engine.wallet ⟨7⟩).coins.get? "c1" = some ⟨"c1", ⟨"p"⟩, ⟨5⟩, some 3, none⟩ ∧
      Announced ⟨7⟩ watched.engine := by
  have hreplay : (receivedThenReverted.foldlM
      (guarded (Watched.afterCall ⟨7⟩) (CallIntroducedFirst ⟨7⟩)) ⟨.new, []⟩).any (fun watched =>
        decide ((watched.engine.wallet ⟨7⟩).coins.get? "c1" =
          some ⟨"c1", ⟨"p"⟩, ⟨5⟩, some 3, none⟩)) = true := by
    decide +kernel
  obtain ⟨watched, hwatched, hcoin⟩ := (Option.any_eq_true _ _).mp hreplay
  have hrun := Run.of_replay hwatched
  exact ⟨watched, hrun, of_decide_eq_true hcoin, announced_of_introduced_first hrun⟩

/-- A coin first seen unconfirmed, then confirmed. -/
def confirmedLater : List SyncCall :=
  [.ingest [⟨"c1", ⟨"p"⟩, ⟨5⟩, none, none⟩], .ingest [⟨"c1", ⟨"p"⟩, ⟨5⟩, some 3, none⟩]]

/-- The confirmation is an update of a known coin, and no value event is published. -/
theorem confirmed_later_not_announced :
    ¬ Announced ⟨7⟩ (confirmedLater.foldl (SyncCall.perform ⟨7⟩) .new) := by
  intro h
  have hstored : ((confirmedLater.foldl (SyncCall.perform ⟨7⟩) .new).wallet ⟨7⟩).coins.get? "c1" =
      some ⟨"c1", ⟨"p"⟩, ⟨5⟩, some 3, none⟩ := by decide +kernel
  obtain ⟨height, hevent⟩ := h.received "c1" _ hstored rfl
  have hnone : ∀ event ∈ (confirmedLater.foldl (SyncCall.perform ⟨7⟩) .new).published,
      event.kind ≠ .fundsReceived := by decide +kernel
  exact hnone _ hevent rfl

end DigWallet
