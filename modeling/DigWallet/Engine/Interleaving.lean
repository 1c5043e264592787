import DigWallet.Engine.Rows
import DigWallet.Engine.Steps
import DigWallet.Lib.Runs

/-!
# DigWallet.Engine.Interleaving — sync calls that overlap

A call runs up to an await, waits there for its source, and goes on when the answer is in; other
calls run in between.  A record is stored whole whatever the store holds by then, so an older
snapshot that arrives last replaces a newer one.
-/

namespace DigWallet

/-! ## Suspended calls -/

/-- A call at an await. -/
inductive SyncTask
  | syncFromPeer
  | syncWithFallback (coinIds : List String)
  /-- `resolve_via_fallback`, with the coins the loop of `sync_with_fallback` still has to read. -/
  | pointRead (coinId : String) (rest : List String)
deriving DecidableEq

inductive SyncAnswer
  | peer (answer : WalletResult (List CoinRecord))
  | fallback (answer : WalletResult (Option CoinRecord))

/-- The engine and the calls that wait. -/
structure SyncTasks where
  engine : SyncEngine
  waiting : List SyncTask

inductive SyncAction
  | ingest (records : List CoinRecord)
  | syncFromPeer
  | syncWithFallback (coinIds : List String)
  | resolveCoin (coinId : String)
  /-- The source of a waiting call answers. -/
  | answered (task : ℕ) (answer : SyncAnswer)

/-- The await of the next point read, if there is one. -/
def nextRead : List String → List SyncTask
  | [] => []
  | coinId :: rest => [.pointRead coinId rest]

section Tasks

variable (w : WalletId)

/-- From the answer to the next await or the end of the call. -/
def SyncTask.resume (engine : SyncEngine) : SyncTask → SyncAnswer → Option (SyncEngine × List SyncTask)
  | syncFromPeer, .peer answer => some ((engine.syncFromPeer w answer).1, [])
  | syncWithFallback _, .peer (.ok records) =>
    some ((engine.ingest w records).1.markSynced w, [])
  | syncWithFallback coinIds, .peer (.error e) =>
    some (engine, if e.code = .transport then nextRead coinIds else [])
  | pointRead _ _, .fallback (.error _) => some (engine, [])
  | pointRead _ rest, .fallback (.ok found) =>
    some ((engine.resolveViaFallback w (.ok found)).1, nextRead rest)
  | _, _ => none

def SyncTasks.step (tasks : SyncTasks) : SyncAction → Option SyncTasks
  | .ingest records => some { tasks with engine := (tasks.engine.ingest w records).1 }
  | .syncFromPeer => some { tasks with waiting := tasks.waiting ++ [.syncFromPeer] }
  | .syncWithFallback coinIds =>
    some { tasks with waiting := tasks.waiting ++ [.syncWithFallback coinIds] }
  | .resolveCoin coinId =>
    -- The local check: a coin in the store is returned at once.
    if ((tasks.engine.wallet w).coins.get? coinId).isSome then some tasks
    else some { tasks with waiting := tasks.waiting ++ [.pointRead coinId []] }
  | .answered task answer => do
    let (engine, waiting) ← (← tasks.waiting[task]?).resume w tasks.engine answer
    some ⟨engine, tasks.waiting.eraseIdx task ++ waiting⟩

def SyncTasks.init : SyncTasks := ⟨.new, []⟩

/-! ## The steps of an action -/

def SyncAnswer.steps (engine : SyncEngine) : SyncAnswer → List SyncStep
  | peer (.ok records) => syncedSteps w engine records
  | peer (.error _) => []
  | fallback answer => readSteps answer

def SyncAction.steps (tasks : SyncTasks) : SyncAction → List SyncStep
  | ingest records => ingestSteps records
  | answered _ answer => answer.steps w tasks.engine
  | _ => []

theorem engine_resume {engine engine' : SyncEngine} {task : SyncTask} {answer : SyncAnswer}
    {waiting : List SyncTask} (h : task.resume w engine answer = some (engine', waiting)) :
    engine' = SyncStep.performAll w engine (answer.steps w engine) := by
  cases task with
  | syncFromPeer =>
    cases answer with
    | fallback answer => cases h
    | peer answer =>
      obtain ⟨rfl, -⟩ := Prod.mk.inj (Option.some.inj h)
      cases answer with
      | error e => rfl
      | ok records => exact markSynced_ingest_eq w engine records
  | syncWithFallback coinIds =>
    cases answer with
    | fallback answer => cases h
    | peer answer =>
      cases answer with
      | error e =>
        obtain ⟨rfl, -⟩ := Prod.mk.inj (Option.some.inj h)
        rfl
      | ok records =>
        obtain ⟨rfl, -⟩ := Prod.mk.inj (Option.some.inj h)
        exact markSynced_ingest_eq w engine records
  | pointRead coinId rest =>
    cases answer with
    | peer answer => cases h
    | fallback answer =>
      cases answer with
      | error e =>
        obtain ⟨rfl, -⟩ := Prod.mk.inj (Option.some.inj h)
        rfl
      | ok found =>
        obtain ⟨rfl, -⟩ := Prod.mk.inj (Option.some.inj h)
        exact resolveViaFallback_eq w engine (.ok found)

/-- What an action does to the engine are its steps. -/
theorem engine_step {tasks next : SyncTasks} {action : SyncAction}
    (h : tasks.step w action = some next) :
    next.engine = SyncStep.performAll w tasks.engine (action.steps w tasks) := by
  cases action with
  | ingest records =>
    obtain rfl := Option.some.inj h
    exact ingest_eq w tasks.engine records
  | syncFromPeer | syncWithFallback coinIds =>
    obtain rfl := Option.some.inj h
    rfl
  | resolveCoin coinId =>
    have h : (if ((tasks.engine.wallet w).coins.get? coinId).isSome then some tasks
      else some { tasks with waiting := tasks.waiting ++ [.pointRead coinId []] }) = some next := h
    by_cases hlocal : ((tasks.engine.wallet w).coins.get? coinId).isSome = true
    · rw [if_pos hlocal] at h
      obtain rfl := Option.some.inj h
      rfl
    · rw [if_neg hlocal] at h
      obtain rfl := Option.some.inj h
      rfl
  | answered task answer =>
    obtain ⟨_, -, h⟩ := Option.bind_eq_some_iff.mp h
    obtain ⟨⟨engine, waiting⟩, hresume, h⟩ := Option.bind_eq_some_iff.mp h
    obtain rfl := Option.some.inj h
    exact engine_resume w hresume

end Tasks

/-! ## True states -/

/-- What the chain says of a coin: when it was created, and when it was spent, if it was. -/
structure CoinLife where
  puzzleHash : Puzzlehash
  amount : Amount
  createdHeight : UInt32
  spentHeight : Option UInt32

/-- A past or present state of the coin: unconfirmed, created, or created and spent. -/
def CoinLife.TrueState (life : CoinLife) (record : CoinRecord) : Prop :=
  record.puzzleHash = life.puzzleHash ∧ record.amount = life.amount ∧
  (record.createdHeight = none ∧ record.spentHeight = none ∨
    record.createdHeight = some life.createdHeight ∧
      (record.spentHeight = none ∨ record.spentHeight = life.spentHeight))

instance (life : CoinLife) (record : CoinRecord) : Decidable (life.TrueState record) :=
  inferInstanceAs (Decidable (_ ∧ _))

/-- How far along its life a record shows its coin. -/
def CoinRecord.stage (record : CoinRecord) : ℕ :=
  if record.spentHeight.isSome then 2 else if record.createdHeight.isSome then 1 else 0

theorem spent_iff_stage {record : CoinRecord} :
    record.spentHeight.isSome = true ↔ 2 ≤ record.stage := by
  unfold CoinRecord.stage
  split <;> simp_all
  split <;> omega

theorem created_iff_stage {life : CoinLife} {record : CoinRecord} (h : life.TrueState record) :
    record.createdHeight.isSome = true ↔ 1 ≤ record.stage := by
  obtain ⟨-, -, ⟨hcreated, hspent⟩ | ⟨hcreated, -⟩⟩ := h
  · simp [CoinRecord.stage, hcreated, hspent]
  · unfold CoinRecord.stage
    rw [hcreated]
    split <;> simp

section Truth

variable (chain : String → CoinLife) (w : WalletId)

/-- The record delivered is a state its coin has been in; no reorg. -/
def DeliversTruth (_engine : SyncEngine) : SyncStep → Prop
  | .deliver record => (chain record.coinId).TrueState record
  | .revert _ => False
  | _ => True

/-- The record delivered is no earlier state of its coin than the stored one. -/
def NotBehind (engine : SyncEngine) : SyncStep → Prop
  | .deliver record =>
    ∀ previous ∈ (engine.wallet w).coins.get? record.coinId, previous.stage ≤ record.stage
  | _ => True

instance (engine : SyncEngine) : DecidablePred (DeliversTruth chain engine)
  | .deliver _ => inferInstanceAs (Decidable (CoinLife.TrueState _ _))
  | .revert _ => inferInstanceAs (Decidable False)
  | .raisePeak _ => inferInstanceAs (Decidable True)
  | .progress _ _ => inferInstanceAs (Decidable True)

instance (engine : SyncEngine) : DecidablePred (NotBehind w engine)
  | .deliver _ => inferInstanceAs (Decidable (∀ previous ∈ Table.get? _ _, _))
  | .revert _ => inferInstanceAs (Decidable True)
  | .raisePeak _ => inferInstanceAs (Decidable True)
  | .progress _ _ => inferInstanceAs (Decidable True)

/-- Every record an action delivers is a true state of its coin. -/
def ActionTrue (tasks : SyncTasks) (action : SyncAction) : Prop :=
  AllAlong (SyncStep.perform w) (DeliversTruth chain) tasks.engine (action.steps w tasks)

/-- And none is behind what the store holds when it is applied. -/
def ActionCurrent (tasks : SyncTasks) (action : SyncAction) : Prop :=
  AllAlong (SyncStep.perform w) (fun engine step => DeliversTruth chain engine step ∧ NotBehind w engine step)
    tasks.engine (action.steps w tasks)

instance (tasks : SyncTasks) (action : SyncAction) : Decidable (ActionTrue chain w tasks action) :=
  inferInstanceAs (Decidable (AllAlong _ _ _ _))

instance (tasks : SyncTasks) (action : SyncAction) :
    Decidable (ActionCurrent chain w tasks action) :=
  inferInstanceAs (Decidable (AllAlong _ _ _ _))

end Truth

/-! ## Nothing is lost -/

/-- No height of `before` is missing from `after`, and no coin spent in `before` counts. -/
structure NothingLost (before after : WalletState) : Prop where
  created : ∀ id previous, before.coins.get? id = some previous →
    previous.createdHeight.isSome = true →
      ∃ now, after.coins.get? id = some now ∧ now.createdHeight.isSome = true
  spent : ∀ id previous, before.coins.get? id = some previous →
    previous.spentHeight.isSome = true →
      ∃ now, after.coins.get? id = some now ∧ now.spentHeight.isSome = true
  balance : ∀ coin ∈ after.unspent, ∀ previous, before.coins.get? coin.coinId = some previous →
    previous.spentHeight = none

/-- Every stored record is a true state of the coin it is stored under. -/
def Truthful (chain : String → CoinLife) (state : WalletState) : Prop :=
  ∀ id record, state.coins.get? id = some record →
    record.coinId = id ∧ (chain id).TrueState record

/-- Coins stay, and move forward only. -/
def Forward (before after : WalletState) : Prop :=
  ∀ id previous, before.coins.get? id = some previous →
    ∃ now, after.coins.get? id = some now ∧ previous.stage ≤ now.stage

section Invariant

variable {chain : String → CoinLife} {w : WalletId} {before after : WalletState}

theorem Forward.refl (state : WalletState) : Forward state state := by
  intro id previous hget
  exact ⟨previous, hget, le_refl _⟩

theorem Forward.trans {middle : WalletState} (h : Forward before middle) (h' : Forward middle after) :
    Forward before after := by
  intro id previous hget
  obtain ⟨record, hrecord, hle⟩ := h id previous hget
  obtain ⟨now, hnow, hle'⟩ := h' id record hrecord
  exact ⟨now, hnow, hle.trans hle'⟩

theorem nothingLost_of_forward (hforward : Forward before after) (hbefore : Truthful chain before)
    (hafter : Truthful chain after) : NothingLost before after where
  created id previous hget hcreated := by
    obtain ⟨now, hnow, hle⟩ := hforward id previous hget
    have hstage := (created_iff_stage (hbefore id previous hget).2).mp hcreated
    exact ⟨now, hnow, (created_iff_stage (hafter id now hnow).2).mpr (hstage.trans hle)⟩
  spent id previous hget hspent := by
    obtain ⟨now, hnow, hle⟩ := hforward id previous hget
    exact ⟨now, hnow, spent_iff_stage.mpr ((spent_iff_stage.mp hspent).trans hle)⟩
  balance coin hcoin previous hget := by
    obtain ⟨hmem, hunspent⟩ := List.mem_filter.mp hcoin
    obtain ⟨⟨id, _⟩, hrow, rfl⟩ := List.mem_map.mp hmem
    have hstored := Table.mem_rows.mp hrow
    have hid := (hafter id _ hstored).1
    rw [hid] at hget
    obtain ⟨now, hnow, hle⟩ := hforward id previous hget
    obtain rfl := Option.some.inj (hstored.symm.trans hnow)
    by_contra hspent
    have hspent := spent_iff_stage.mp (Option.isSome_iff_ne_none.mpr hspent)
    have hnow := spent_iff_stage.mpr (hspent.trans hle)
    rw [Option.isNone_iff_eq_none.mp hunspent] at hnow
    cases hnow

/-- One allowed step keeps the stored records true and moves every coin forward. -/
theorem forward_perform {engine : SyncEngine} {step : SyncStep}
    (htruthful : Truthful chain (engine.wallet w))
    (hallowed : DeliversTruth chain engine step ∧ NotBehind w engine step) :
    Truthful chain ((step.perform w engine).wallet w) ∧
      Forward (engine.wallet w) ((step.perform w engine).wallet w) := by
  cases step with
  | deliver record =>
    obtain ⟨htrue, hstage⟩ := hallowed
    constructor
    · intro id stored hstored
      rw [get?_deliver] at hstored
      by_cases hid : record.coinId = id
      · rw [if_pos hid] at hstored
        obtain rfl := Option.some.inj hstored
        subst hid
        exact ⟨rfl, htrue⟩
      · rw [if_neg hid] at hstored
        exact htruthful id stored hstored
    · intro id previous hprevious
      rw [get?_deliver]
      by_cases hid : record.coinId = id
      · subst hid
        rw [if_pos rfl]
        exact ⟨record, rfl, hstage previous hprevious⟩
      · rw [if_neg hid]
        exact ⟨previous, hprevious, le_refl _⟩
  | raisePeak height =>
    rw [wallet_raisePeak]
    exact ⟨htruthful, Forward.refl _⟩
  | progress state peak =>
    rw [wallet_progress]
    exact ⟨htruthful, Forward.refl _⟩
  | revert forkHeight => exact hallowed.1.elim

theorem forward_action (start : WalletState) {tasks next : SyncTasks} {action : SyncAction}
    (hinv : Truthful chain (tasks.engine.wallet w) ∧ Forward start (tasks.engine.wallet w))
    (hallowed : ActionCurrent chain w tasks action) (hstep : tasks.step w action = some next) :
    Truthful chain (next.engine.wallet w) ∧ Forward start (next.engine.wallet w) := by
  have hkeeps : ∀ {engine : SyncEngine} {step : SyncStep},
      Truthful chain (engine.wallet w) ∧ Forward start (engine.wallet w) →
      DeliversTruth chain engine step ∧ NotBehind w engine step →
      Truthful chain ((step.perform w engine).wallet w) ∧
        Forward start ((step.perform w engine).wallet w) := by
    rintro engine step ⟨htruthful, hforward⟩ hstep
    obtain ⟨htruthful', hforward'⟩ := forward_perform htruthful hstep
    exact ⟨htruthful', hforward.trans hforward'⟩
  have hrun := @AllAlong.invariant SyncEngine SyncStep _ (SyncStep.perform w) (fun engine =>
    Truthful chain (engine.wallet w) ∧ Forward start (engine.wallet w)) hkeeps _ _ hallowed hinv
  rw [engine_step w hstep]
  exact hrun

theorem truthful_init : Truthful chain (SyncTasks.init.engine.wallet w) := by
  intro id record hget
  cases hget

/-- In every interleaving whose records are each, when applied, no earlier state of their coin than
the stored one, no later state loses a height an earlier one had. -/
theorem nothing_lost_of_current {s t : SyncTasks}
    (hs : Run (SyncTasks.step w) (ActionCurrent chain w) .init s)
    (ht : Run (SyncTasks.step w) (ActionCurrent chain w) s t) :
    NothingLost (s.engine.wallet w) (t.engine.wallet w) := by
  have hbefore := hs.invariant (forward_action (SyncTasks.init.engine.wallet w))
    ⟨truthful_init, Forward.refl _⟩
  have hafter := ht.invariant (forward_action (s.engine.wallet w))
    ⟨hbefore.1, Forward.refl _⟩
  exact nothingLost_of_forward hafter.2 hbefore.1 hafter.1

end Invariant

/-- Every coin of this chain is created at height 3 and spent at height 9. -/
def spentAtNine (_coinId : String) : CoinLife := ⟨⟨"p"⟩, ⟨5⟩, 3, some 9⟩

/-- A fallback read that is answered before the spend is delivered. -/
def readFirst : List SyncAction :=
  [.resolveCoin "c1", .answered 0 (.fallback (.ok (some ⟨"c1", ⟨"p"⟩, ⟨5⟩, some 3, none⟩)))]

def spendLast : List SyncAction := [.ingest [⟨"c1", ⟨"p"⟩, ⟨5⟩, some 3, some 9⟩]]

theorem nothing_lost_of_current_spendLast :
    ∃ s t : SyncTasks, (s.engine.wallet ⟨7⟩).unspent.length = 1 ∧
      (t.engine.wallet ⟨7⟩).unspent = [] ∧
      NothingLost (s.engine.wallet ⟨7⟩) (t.engine.wallet ⟨7⟩) := by
  have hfirst : (readFirst.foldlM (guarded (SyncTasks.step ⟨7⟩) (ActionCurrent spentAtNine ⟨7⟩))
      .init).any (fun s => decide ((s.engine.wallet ⟨7⟩).unspent.length = 1) &&
        (spendLast.foldlM (guarded (SyncTasks.step ⟨7⟩) (ActionCurrent spentAtNine ⟨7⟩)) s).any
          fun t => decide ((t.engine.wallet ⟨7⟩).unspent = [])) = true := by
    decide +kernel
  obtain ⟨s, hs, hboth⟩ := (Option.any_eq_true _ _).mp hfirst
  obtain ⟨hone, hlast⟩ := Bool.and_eq_true_iff.mp hboth
  obtain ⟨t, ht, hnone⟩ := (Option.any_eq_true _ _).mp hlast
  exact ⟨s, t, of_decide_eq_true hone, of_decide_eq_true hnone,
    nothing_lost_of_current (Run.of_replay hs) (Run.of_replay ht)⟩

/-- The same read, asked before the spend is delivered and answered after it. -/
def readOvertaken : List SyncAction :=
  [.resolveCoin "c1", .ingest [⟨"c1", ⟨"p"⟩, ⟨5⟩, some 3, some 9⟩]]

def staleAnswer : List SyncAction :=
  [.answered 0 (.fallback (.ok (some ⟨"c1", ⟨"p"⟩, ⟨5⟩, some 3, none⟩)))]

/-- The answer, a true past state, brings the spent coin back into the balance. -/
theorem stale_answer_unspends : ¬ ∀ chain w (s t : SyncTasks),
    Run (SyncTasks.step w) (ActionTrue chain w) .init s →
    Run (SyncTasks.step w) (ActionTrue chain w) s t →
      NothingLost (s.engine.wallet w) (t.engine.wallet w) := by
  intro hall
  have hfirst : (readOvertaken.foldlM (guarded (SyncTasks.step ⟨7⟩) (ActionTrue spentAtNine ⟨7⟩))
      .init).any (fun s => decide ((s.engine.wallet ⟨7⟩).coins.get? "c1" =
          some ⟨"c1", ⟨"p"⟩, ⟨5⟩, some 3, some 9⟩) &&
        (staleAnswer.foldlM (guarded (SyncTasks.step ⟨7⟩) (ActionTrue spentAtNine ⟨7⟩)) s).any
          fun t => decide ((t.engine.wallet ⟨7⟩).unspent = [⟨"c1", ⟨"p"⟩, ⟨5⟩, some 3, none⟩])) =
        true := by
    decide +kernel
  obtain ⟨s, hs, hboth⟩ := (Option.any_eq_true _ _).mp hfirst
  obtain ⟨hspent, hlast⟩ := Bool.and_eq_true_iff.mp hboth
  obtain ⟨t, ht, hcounts⟩ := (Option.any_eq_true _ _).mp hlast
  have hlost := hall spentAtNine ⟨7⟩ s t (Run.of_replay hs) (Run.of_replay ht)
  have hmem : (⟨"c1", ⟨"p"⟩, ⟨5⟩, some 3, none⟩ : CoinRecord) ∈ (t.engine.wallet ⟨7⟩).unspent := by
    rw [of_decide_eq_true hcounts]
    exact List.mem_singleton_self _
  have hnever := hlost.balance _ hmem _ (of_decide_eq_true hspent)
  cases hnever

end DigWallet
