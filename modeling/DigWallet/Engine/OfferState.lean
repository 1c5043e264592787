import Mathlib.Data.List.Infix
import DigWallet.Lib.Expiry
import DigWallet.Lib.Text

/-!
# DigWallet.Engine.OfferState — parked offer builds

`PendingOffers`: what the first call of an offer flow parks for the second.  An insert draws its id
before it takes the lock; every other call is one critical section.  A run interleaves these steps
of any number of calls with the clock (`singleUse_run`).
-/

namespace DigWallet

/-- The SDK types a parked build carries. -/
structure OfferTypes where
  SpendContext : Type
  RequestedPayments : Type
  AssetInfo : Type
  Offer : Type

structure OfferBuildId where
  text : String
deriving DecidableEq

/-- `PENDING_TTL`, in nanoseconds. -/
def pendingTtl : ℕ := 300 * 10 ^ 9

/-! ## The map -/

section Types

variable (T : OfferTypes)

structure MakeState where
  requestedPayments : T.RequestedPayments
  requestedAssetInfo : T.AssetInfo

inductive PendingKind
  | make (state : MakeState T)
  | take (offer : T.Offer)

structure PendingOffer where
  ctx : T.SpendContext
  kind : PendingKind T
  createdAt : ℕ

structure MakeIntermediate where
  ctx : T.SpendContext
  requestedPayments : T.RequestedPayments
  requestedAssetInfo : T.AssetInfo

structure TakeIntermediate where
  offer : T.Offer

structure PendingOffers where
  entries : Table OfferBuildId (PendingOffer T)
  counter : UInt64

end Types

/-- `format!("offer-build-…")`. -/
def OfferBuildId.ofCounter (counter : UInt64) : OfferBuildId :=
  ⟨"offer-build-" ++ toString counter.toNat⟩

variable {T : OfferTypes}

namespace PendingOffer

def makeIntermediate : PendingOffer T → Option (MakeIntermediate T)
  | ⟨ctx, .make state, _⟩ => some ⟨ctx, state.requestedPayments, state.requestedAssetInfo⟩
  | ⟨_, .take _, _⟩ => none

def takeIntermediate : PendingOffer T → Option (TakeIntermediate T)
  | ⟨_, .take offer, _⟩ => some ⟨offer⟩
  | ⟨_, .make _, _⟩ => none

end PendingOffer

namespace PendingOffers

def new : PendingOffers T := ⟨.empty, 0⟩

variable (pending : PendingOffers T)

/-- `counter.fetch_add(1)` and the id it makes. -/
def mint : PendingOffers T × OfferBuildId :=
  ({ pending with counter := pending.counter + 1 }, .ofCounter pending.counter)

/-- `sweep_expired`. -/
def sweepExpired (now : ℕ) : Table OfferBuildId (PendingOffer T) :=
  pending.entries.sweep PendingOffer.createdAt pendingTtl now

/-- `insert` under its lock: the clock is read for the sweep and again for the entry. -/
def park (sweptAt createdAt : ℕ) (id : OfferBuildId) (ctx : T.SpendContext) (kind : PendingKind T) :
    PendingOffers T :=
  { pending with entries := (pending.sweepExpired sweptAt).put id ⟨ctx, kind, createdAt⟩ }

def remove (now : ℕ) (id : OfferBuildId) : PendingOffers T × Option (PendingOffer T) :=
  let entries := pending.sweepExpired now
  ({ pending with entries := entries.erase id }, entries.get? id)

/-- An entry of the other kind is removed all the same. -/
def takeMake (now : ℕ) (id : OfferBuildId) : PendingOffers T × Option (MakeIntermediate T) :=
  let out := pending.remove now id
  (out.1, out.2.bind PendingOffer.makeIntermediate)

def takeTake (now : ℕ) (id : OfferBuildId) : PendingOffers T × Option (TakeIntermediate T) :=
  let out := pending.remove now id
  (out.1, out.2.bind PendingOffer.takeIntermediate)

def len (now : ℕ) : PendingOffers T × ℕ :=
  let entries := pending.sweepExpired now
  ({ pending with entries := entries }, entries.rows.length)

end PendingOffers

/-! ## Runs -/

section Steps

variable (T)

/-- An insert that has its id and waits for the lock. -/
structure ParkCall where
  id : OfferBuildId
  ctx : T.SpendContext
  kind : PendingKind T

inductive OfferStep
  | tick (elapsed : ℕ)
  | insertMake (ctx : T.SpendContext) (requestedPayments : T.RequestedPayments)
      (requestedAssetInfo : T.AssetInfo)
  | insertTake (ctx : T.SpendContext) (offer : T.Offer)
  /-- A waiting insert takes the lock, `elapsed` between its two readings of the clock. -/
  | park (call : ℕ) (elapsed : ℕ)
  | takeMake (id : OfferBuildId)
  | takeTake (id : OfferBuildId)
  | len

/-- An access and what it returned. -/
inductive OfferEvent
  | parked (id : OfferBuildId) (offer : PendingOffer T)
  | tookMake (id : OfferBuildId) (now : ℕ) (answer : Option (MakeIntermediate T))
  | tookTake (id : OfferBuildId) (now : ℕ) (answer : Option (TakeIntermediate T))
  | counted (now : ℕ) (n : ℕ)

/-- The map, the clock, the inserts that wait, and every access so far, in order. -/
structure OfferRun where
  pending : PendingOffers T
  clock : ℕ
  waiting : List (ParkCall T)
  log : List (OfferEvent T)

end Steps

def OfferStep.isInsert : OfferStep T → Bool
  | insertMake .. | insertTake .. => true
  | _ => false

namespace OfferRun

def new : OfferRun T := ⟨.new, 0, [], []⟩

variable (run : OfferRun T)

/-- `insert` up to its lock. -/
def insert (ctx : T.SpendContext) (kind : PendingKind T) : OfferRun T :=
  { run with
    pending := run.pending.mint.1
    waiting := run.waiting ++ [⟨run.pending.mint.2, ctx, kind⟩] }

def perform : OfferStep T → OfferRun T
  | .tick elapsed => { run with clock := run.clock + elapsed }
  | .insertMake ctx requestedPayments requestedAssetInfo =>
    run.insert ctx (.make ⟨requestedPayments, requestedAssetInfo⟩)
  | .insertTake ctx offer => run.insert ctx (.take offer)
  | .park i elapsed =>
    match run.waiting[i]? with
    | none => run
    | some call =>
      let createdAt := run.clock + elapsed
      { pending := run.pending.park run.clock createdAt call.id call.ctx call.kind
        clock := createdAt
        waiting := run.waiting.eraseIdx i
        log := run.log ++ [.parked call.id ⟨call.ctx, call.kind, createdAt⟩] }
  | .takeMake id =>
    let out := run.pending.takeMake run.clock id
    { run with pending := out.1, log := run.log ++ [.tookMake id run.clock out.2] }
  | .takeTake id =>
    let out := run.pending.takeTake run.clock id
    { run with pending := out.1, log := run.log ++ [.tookTake id run.clock out.2] }
  | .len =>
    let out := run.pending.len run.clock
    { run with pending := out.1, log := run.log ++ [.counted run.clock out.2] }

/-- The run of a list of steps. -/
def after (steps : List (OfferStep T)) : OfferRun T := steps.foldl perform new

end OfferRun

/-! ## What the events say -/

namespace OfferEvent

def access : OfferEvent T → Option (Access OfferBuildId (PendingOffer T))
  | parked id offer => some (.put id offer)
  | tookMake id _ _ | tookTake id _ _ => some (.remove id)
  | counted _ _ => none

/-- The id an insert returned. -/
def returnedId : OfferEvent T → Option OfferBuildId
  | parked id _ => some id
  | _ => none

/-- The id under which a call got the parked state. -/
def reclaimedId : OfferEvent T → Option OfferBuildId
  | tookMake id _ (some _) | tookTake id _ (some _) => some id
  | _ => none

/-- A `take_make` or `take_take` on the id. -/
def Takes (id : OfferBuildId) : OfferEvent T → Prop
  | tookMake id' _ _ | tookTake id' _ _ => id' = id
  | parked _ _ | counted _ _ => False

end OfferEvent

/-- `offer` was parked under the id less than `PENDING_TTL` before `now`, and no call on the id has
come between. -/
def ParkedFresh (before : List (OfferEvent T)) (id : OfferBuildId) (offer : PendingOffer T) (now : ℕ) :
    Prop :=
  (∃ earlier later, before = earlier ++ .parked id offer :: later ∧
    ∀ event ∈ later, ¬ event.Takes id) ∧
  offer.createdAt ≤ now ∧ now < offer.createdAt + pendingTtl

/-- A parked build is single-use, typed and expires. -/
structure SingleUse (steps : List (OfferStep T)) : Prop where
  /-- Every returned id is new. -/
  ids : ((OfferRun.after steps).log.filterMap OfferEvent.returnedId).Nodup
  make : ∀ before id now out,
    before ++ [.tookMake id now (some out)] <+: (OfferRun.after steps).log →
      ∃ createdAt, ParkedFresh before id
        ⟨out.ctx, .make ⟨out.requestedPayments, out.requestedAssetInfo⟩, createdAt⟩ now
  take : ∀ before id now out,
    before ++ [.tookTake id now (some out)] <+: (OfferRun.after steps).log →
      ∃ ctx createdAt, ParkedFresh before id ⟨ctx, .take out.offer, createdAt⟩ now
  /-- No parked state is returned twice. -/
  once : ((OfferRun.after steps).log.filterMap OfferEvent.reclaimedId).Nodup
  /-- A step that accesses the map leaves no entry that was too old at its sweep. -/
  swept : ∀ earlier step, earlier ++ [step] <+: steps →
    (OfferRun.after (earlier ++ [step])).log ≠ (OfferRun.after earlier).log →
      ∀ row ∈ (OfferRun.after (earlier ++ [step])).pending.entries.rows,
        (OfferRun.after earlier).clock - row.2.createdAt < pendingTtl

/-! ## The ids -/

section Proofs

variable {run : OfferRun T} {log : List (OfferEvent T)}

theorem ofCounter_injective {m n : ℕ} (hm : m < 2 ^ 64) (hn : n < 2 ^ 64)
    (h : OfferBuildId.ofCounter (UInt64.ofNat m) = .ofCounter (UInt64.ofNat n)) : m = n := by
  have htext := congrArg (fun id => id.text.toList) h
  simp only [OfferBuildId.ofCounter, String.toList_append] at htext
  have hdigits := List.append_cancel_left htext
  rw [Nat.toString_eq_repr, Nat.toString_eq_repr, Nat.toList_repr, Nat.toList_repr,
    UInt64.toNat_ofNat_of_lt' hm, UInt64.toNat_ofNat_of_lt' hn] at hdigits
  exact Text.toDigits_injective hdigits

/-- Every id drawn so far: those of the waiting inserts, then those returned. -/
def OfferRun.issued (run : OfferRun T) : List OfferBuildId :=
  run.waiting.map ParkCall.id ++ run.log.filterMap OfferEvent.returnedId

structure Issued (run : OfferRun T) (minted : ℕ) : Prop where
  counter : run.pending.counter = UInt64.ofNat minted
  below : ∀ id ∈ run.issued, ∃ n < minted, id = .ofCounter (UInt64.ofNat n)
  nodup : run.issued.Nodup

theorem Issued.of_perm {run' : OfferRun T} {minted : ℕ} (h : Issued run minted)
    (hcounter : run'.pending.counter = run.pending.counter) (hperm : run'.issued.Perm run.issued) :
    Issued run' minted where
  counter := hcounter.trans h.counter
  below id hid := h.below id (hperm.mem_iff.mp hid)
  nodup := hperm.nodup_iff.mpr h.nodup

theorem issued_insert {minted : ℕ} (h : Issued run minted) (hroom : minted < 2 ^ 64)
    (ctx : T.SpendContext) (kind : PendingKind T) : Issued (run.insert ctx kind) (minted + 1) := by
  have hperm : (run.insert ctx kind).issued.Perm (run.pending.mint.2 :: run.issued) := by
    unfold OfferRun.issued OfferRun.insert
    rw [List.map_append, List.append_assoc]
    exact List.perm_middle
  have hnew : run.pending.mint.2 = .ofCounter (UInt64.ofNat minted) :=
    congrArg OfferBuildId.ofCounter h.counter
  constructor
  · show run.pending.counter + 1 = _
    rw [h.counter, UInt64.ofNat_add]
    rfl
  · intro id hid
    rcases List.mem_cons.mp (hperm.mem_iff.mp hid) with rfl | hold
    · exact ⟨minted, by omega, hnew⟩
    · obtain ⟨n, hn, hid⟩ := h.below id hold
      exact ⟨n, by omega, hid⟩
  · rw [hperm.nodup_iff, List.nodup_cons]
    refine ⟨?_, h.nodup⟩
    intro hold
    obtain ⟨n, hn, hid⟩ := h.below _ hold
    have heq := ofCounter_injective hroom (by omega) (hnew.symm.trans hid)
    omega

/-- Waiting inserts and returned ids change places. -/
theorem issued_park {minted i : ℕ} (h : Issued run minted) (elapsed : ℕ) :
    Issued (run.perform (.park i elapsed)) minted := by
  show Issued (match run.waiting[i]? with | none => run | some call => _) minted
  rcases hcall : run.waiting[i]? with _ | call
  · exact h
  · obtain ⟨hi, rfl⟩ := List.getElem?_eq_some_iff.mp hcall
    refine h.of_perm rfl ?_
    have hwaiting := (List.getElem_cons_eraseIdx_perm hi).map ParkCall.id
    show ((run.waiting.eraseIdx i).map _ ++ List.filterMap _ (run.log ++ [_])).Perm _
    rw [List.filterMap_append, ← List.append_assoc]
    refine List.perm_append_comm.trans ?_
    exact hwaiting.append_right (run.log.filterMap OfferEvent.returnedId)

theorem filterMap_concat_none {A : Type} (read : OfferEvent T → Option A) {event : OfferEvent T}
    (h : read event = none) : (log ++ [event]).filterMap read = log.filterMap read := by
  rw [List.filterMap_append, List.filterMap_cons_none h, List.filterMap_nil, List.append_nil]

theorem filterMap_concat_some {A : Type} (read : OfferEvent T → Option A) {event : OfferEvent T}
    {a : A} (h : read event = some a) :
    (log ++ [event]).filterMap read = log.filterMap read ++ [a] := by
  rw [List.filterMap_append, List.filterMap_cons_some h, List.filterMap_nil]

/-- An access that returns no id. -/
theorem Issued.of_access {run' : OfferRun T} {minted : ℕ} (h : Issued run minted)
    (hcounter : run'.pending.counter = run.pending.counter) (hwaiting : run'.waiting = run.waiting)
    {event : OfferEvent T} (hlog : run'.log = run.log ++ [event]) (hevent : event.returnedId = none) :
    Issued run' minted := by
  refine h.of_perm hcounter ?_
  unfold OfferRun.issued
  rw [hwaiting, hlog, filterMap_concat_none _ hevent]

theorem issued_perform {minted : ℕ} (h : Issued run minted) (hroom : minted < 2 ^ 64)
    (step : OfferStep T) :
    Issued (run.perform step) (minted + if step.isInsert then 1 else 0) := by
  cases step with
  | insertMake ctx requestedPayments requestedAssetInfo => exact issued_insert h hroom ctx _
  | insertTake ctx offer => exact issued_insert h hroom ctx _
  | park i elapsed => exact issued_park h elapsed
  | tick elapsed => exact h.of_perm rfl (.refl _)
  | takeMake id => exact h.of_access rfl rfl rfl rfl
  | takeTake id => exact h.of_access rfl rfl rfl rfl
  | len => exact h.of_access rfl rfl rfl rfl

/-! ## The table and the log -/

/-- What the events before it make a call answer. -/
def OfferEvent.Answers (before : List (OfferEvent T)) : OfferEvent T → Prop
  | tookMake id now answer =>
    (∀ id offer, .parked id offer ∈ before → offer.createdAt ≤ now) ∧
      answer = ((held (before.filterMap access) id).filter
        (isFresh PendingOffer.createdAt pendingTtl now)).bind PendingOffer.makeIntermediate
  | tookTake id now answer =>
    (∀ id offer, .parked id offer ∈ before → offer.createdAt ≤ now) ∧
      answer = ((held (before.filterMap access) id).filter
        (isFresh PendingOffer.createdAt pendingTtl now)).bind PendingOffer.takeIntermediate
  | parked _ _ | counted _ _ => True

/-- Every call answered so. -/
def Answered (log : List (OfferEvent T)) : Prop :=
  ∀ before event, before ++ [event] <+: log → event.Answers before

theorem answered_concat {event : OfferEvent T} :
    Answered (log ++ [event]) ↔ Answered log ∧ event.Answers log := by
  constructor
  · intro h
    refine ⟨fun before other hother => h before other ?_, h log event (List.prefix_refl _)⟩
    exact hother.trans (List.prefix_append _ _)
  · rintro ⟨hlog, hevent⟩ before other hother
    rcases List.prefix_concat_iff.mp hother with heq | hbefore
    · obtain ⟨rfl, hlast⟩ := List.append_inj' heq rfl
      obtain rfl := List.singleton_inj.mp hlast
      exact hevent
    · exact hlog before other hbefore

structure Tracks (run : OfferRun T) : Prop where
  follows : Follows PendingOffer.createdAt pendingTtl run.pending.entries
    (run.log.filterMap OfferEvent.access) run.clock
  created : ∀ id offer, .parked id offer ∈ run.log → offer.createdAt ≤ run.clock
  answered : Answered run.log

theorem tracks_new : Tracks (.new : OfferRun T) where
  follows := follows_empty
  created id offer hmem := absurd hmem List.not_mem_nil
  answered before event hevent := by
    have hnil := List.prefix_nil.mp hevent
    exact absurd hnil (by simp)

theorem tracks_tick (h : Tracks run) (elapsed : ℕ) : Tracks (run.perform (.tick elapsed)) where
  follows := h.follows.later (Nat.le_add_right _ _)
  created id offer hmem := Nat.le_trans (h.created id offer hmem) (Nat.le_add_right _ _)
  answered := h.answered

theorem tracks_insert (h : Tracks run) (ctx : T.SpendContext) (kind : PendingKind T) :
    Tracks (run.insert ctx kind) := ⟨h.follows, h.created, h.answered⟩

theorem tracks_park (h : Tracks run) (i elapsed : ℕ) : Tracks (run.perform (.park i elapsed)) := by
  show Tracks (match run.waiting[i]? with | none => run | some call => _)
  rcases run.waiting[i]? with _ | call
  · exact h
  · constructor
    · have hput := h.follows.put call.id ⟨call.ctx, call.kind, run.clock + elapsed⟩
      show Follows _ _ _ (List.filterMap _ (run.log ++ [_])) _
      rw [filterMap_concat_some OfferEvent.access rfl]
      exact hput.later (Nat.le_add_right _ _)
    · intro id offer hmem
      show offer.createdAt ≤ run.clock + elapsed
      rcases List.mem_append.mp hmem with hold | hnew
      · have hle := h.created id offer hold
        omega
      · obtain ⟨-, rfl⟩ := OfferEvent.parked.inj (List.mem_singleton.mp hnew)
        exact Nat.le_refl _
    · exact answered_concat.mpr ⟨h.answered, trivial⟩

/-- A call that removes the id, answered from what it removed. -/
theorem tracks_remove {run' : OfferRun T} (h : Tracks run) {id : OfferBuildId} {event : OfferEvent T}
    (hentries : run'.pending.entries = (run.pending.remove run.clock id).1.entries)
    (hclock : run'.clock = run.clock) (hlog : run'.log = run.log ++ [event])
    (haccess : event.access = some (.remove id)) (hreturned : event.returnedId = none)
    (hanswer : event.Answers run.log) : Tracks run' := by
  constructor
  · rw [hentries, hclock, hlog, filterMap_concat_some _ haccess]
    exact h.follows.remove id
  · intro id' offer hmem
    rw [hclock]
    rw [hlog] at hmem
    rcases List.mem_append.mp hmem with hold | hnew
    · exact h.created id' offer hold
    · rw [← List.mem_singleton.mp hnew] at hreturned
      cases hreturned
  · rw [hlog]
    exact answered_concat.mpr ⟨h.answered, hanswer⟩

theorem removed_eq (h : Tracks run) (id : OfferBuildId) :
    (run.pending.remove run.clock id).2 = (held (run.log.filterMap OfferEvent.access) id).filter
      (isFresh PendingOffer.createdAt pendingTtl run.clock) :=
  h.follows run.clock (Nat.le_refl _) id

theorem tracks_len (h : Tracks run) : Tracks (run.perform .len) where
  follows := by
    have hswept := h.follows.sweep
    show Follows _ _ _ (List.filterMap _ (run.log ++ [_])) _
    rw [filterMap_concat_none OfferEvent.access rfl]
    exact hswept
  created id offer hmem := by
    rcases List.mem_append.mp hmem with hold | hnew
    · exact h.created id offer hold
    · cases List.mem_singleton.mp hnew
  answered := answered_concat.mpr ⟨h.answered, trivial⟩

theorem tracks_perform (h : Tracks run) (step : OfferStep T) : Tracks (run.perform step) := by
  cases step with
  | tick elapsed => exact tracks_tick h elapsed
  | insertMake ctx requestedPayments requestedAssetInfo => exact tracks_insert h ctx _
  | insertTake ctx offer => exact tracks_insert h ctx _
  | park i elapsed => exact tracks_park h i elapsed
  | takeMake id =>
    refine tracks_remove h rfl rfl rfl rfl rfl ⟨h.created, ?_⟩
    rw [← removed_eq h id]
    rfl
  | takeTake id =>
    refine tracks_remove h rfl rfl rfl rfl rfl ⟨h.created, ?_⟩
    rw [← removed_eq h id]
    rfl
  | len => exact tracks_len h

/-! ## Single use -/

/-- The parked state under an id is returned once, and the id is empty from then on. -/
structure Spent (log : List (OfferEvent T)) : Prop where
  once : (log.filterMap OfferEvent.reclaimedId).Nodup
  gone : ∀ id ∈ log.filterMap OfferEvent.reclaimedId, id ∈ log.filterMap OfferEvent.returnedId ∧
    held (log.filterMap OfferEvent.access) id = none

theorem parked_of_held {id : OfferBuildId} {offer : PendingOffer T}
    (h : held (log.filterMap OfferEvent.access) id = some offer) :
    ∃ earlier later, log = earlier ++ .parked id offer :: later ∧
      ∀ event ∈ later, ¬ event.Takes id := by
  obtain ⟨accesses, accesses', hsplit, hlater⟩ := held_eq_some.mp h
  obtain ⟨earlier, rest, rfl, -, hrest⟩ := List.filterMap_eq_append_iff.mp hsplit
  obtain ⟨skipped, event, later, rfl, -, hevent, rfl⟩ := List.filterMap_eq_cons_iff.mp hrest
  have hparked : event = .parked id offer := by
    cases event with
    | parked id' offer' =>
      obtain ⟨rfl, rfl⟩ := Access.put.inj (Option.some.inj hevent)
      rfl
    | tookMake | tookTake | counted => cases hevent
  subst hparked
  refine ⟨earlier ++ skipped, later, (List.append_assoc _ _ _).symm, ?_⟩
  intro other hother htakes
  cases other with
  | tookMake id' now answer =>
    exact hlater (.remove id') (List.mem_filterMap.mpr ⟨_, hother, rfl⟩) htakes
  | tookTake id' now answer =>
    exact hlater (.remove id') (List.mem_filterMap.mpr ⟨_, hother, rfl⟩) htakes
  | parked | counted => exact htakes

theorem spent_park (h : Spent log) {id : OfferBuildId} (offer : PendingOffer T)
    (hnew : id ∉ log.filterMap OfferEvent.returnedId) : Spent (log ++ [.parked id offer]) := by
  have hreclaimed : (log ++ [OfferEvent.parked id offer]).filterMap OfferEvent.reclaimedId =
      log.filterMap OfferEvent.reclaimedId := filterMap_concat_none _ rfl
  constructor
  · rw [hreclaimed]
    exact h.once
  · intro id' hid'
    rw [hreclaimed] at hid'
    obtain ⟨hreturned, hgone⟩ := h.gone id' hid'
    have hne : id ≠ id' := by
      rintro rfl
      exact hnew hreturned
    have hleave : ∀ kept, (Access.put id offer).leave id' kept = kept := leave_of_ne hne
    rw [filterMap_concat_some OfferEvent.access rfl, held_concat, hleave, List.filterMap_append]
    exact ⟨List.mem_append_left _ hreturned, hgone⟩

/-- A call on the id: what it returns was held, and nothing is held after it. -/
theorem spent_remove (h : Spent log) {id : OfferBuildId} {event : OfferEvent T}
    (haccess : event.access = some (.remove id)) (hreturned : event.returnedId = none)
    (hreclaimed : event.reclaimedId = none ∨ event.reclaimedId = some id ∧
      ∃ offer, held (log.filterMap OfferEvent.access) id = some offer) : Spent (log ++ [event]) := by
  have hids : (log ++ [event]).filterMap OfferEvent.returnedId =
      log.filterMap OfferEvent.returnedId := filterMap_concat_none _ hreturned
  have hkept : ∀ id' ∈ log.filterMap OfferEvent.reclaimedId,
      id' ∈ (log ++ [event]).filterMap OfferEvent.returnedId ∧
        held ((log ++ [event]).filterMap OfferEvent.access) id' = none := by
    intro id' hid'
    obtain ⟨hmem, hgone⟩ := h.gone id' hid'
    rw [hids, filterMap_concat_some _ haccess, held_concat, hgone]
    exact ⟨hmem, ite_self _⟩
  rcases hreclaimed with hnone | ⟨hsome, offer, hheld⟩
  · have hsame : (log ++ [event]).filterMap OfferEvent.reclaimedId =
        log.filterMap OfferEvent.reclaimedId := filterMap_concat_none _ hnone
    rw [← hsame] at hkept
    exact ⟨hsame ▸ h.once, hkept⟩
  · have hone : (log ++ [event]).filterMap OfferEvent.reclaimedId =
        log.filterMap OfferEvent.reclaimedId ++ [id] := filterMap_concat_some _ hsome
    have hfirst : id ∉ log.filterMap OfferEvent.reclaimedId := by
      intro hmem
      have hgone := (h.gone id hmem).2
      rw [hheld] at hgone
      cases hgone
    constructor
    · rw [hone]
      exact List.nodup_append.mpr ⟨h.once, List.nodup_singleton id, fun id' hid' _ hlast heq =>
        hfirst (List.mem_singleton.mp hlast ▸ heq ▸ hid')⟩
    · intro id' hid'
      rw [hone] at hid'
      rcases List.mem_append.mp hid' with hold | hlast
      · exact hkept id' hold
      · obtain rfl := List.mem_singleton.mp hlast
        obtain ⟨earlier, later, hsplit, -⟩ := parked_of_held hheld
        rw [hids, filterMap_concat_some _ haccess, held_concat]
        refine ⟨List.mem_filterMap.mpr ⟨.parked id' offer, ?_, rfl⟩, if_pos rfl⟩
        rw [hsplit]
        exact List.mem_append_right _ List.mem_cons_self

/-- A call answered from what is held under its id. -/
theorem spent_answer (h : Spent log) {A : Type} {read : PendingOffer T → Option A} {answer : Option A}
    {id : OfferBuildId} {now : ℕ} {event : OfferEvent T}
    (haccess : event.access = some (.remove id)) (hreturned : event.returnedId = none)
    (hreclaimed : event.reclaimedId = answer.map fun _ => id)
    (hanswer : answer = ((held (log.filterMap OfferEvent.access) id).filter
      (isFresh PendingOffer.createdAt pendingTtl now)).bind read) : Spent (log ++ [event]) := by
  refine spent_remove h haccess hreturned ?_
  cases answer with
  | none => exact .inl hreclaimed
  | some out =>
    obtain ⟨offer, hoffer, -⟩ := Option.bind_eq_some_iff.mp hanswer.symm
    exact .inr ⟨hreclaimed, offer, (Option.filter_eq_some_iff.mp hoffer).1⟩

/-- By induction on the log, from its end. -/
theorem spent_of_answered (hanswered : Answered log)
    (hids : (log.filterMap OfferEvent.returnedId).Nodup) : Spent log := by
  induction log using List.reverseRecOn with
  | nil => exact ⟨List.nodup_nil, fun id hid => absurd hid List.not_mem_nil⟩
  | append_singleton log event ih =>
    obtain ⟨hbefore, hevent⟩ := answered_concat.mp hanswered
    rw [List.filterMap_append] at hids
    obtain ⟨hold, -, hdisjoint⟩ := List.nodup_append.mp hids
    have hspent := ih hbefore hold
    cases event with
    | parked id offer =>
      refine spent_park hspent offer fun hmem => ?_
      exact hdisjoint id hmem id List.mem_cons_self rfl
    | tookMake id now answer =>
      refine spent_answer hspent rfl rfl ?_ hevent.2
      cases answer <;> rfl
    | tookTake id now answer =>
      refine spent_answer hspent rfl rfl ?_ hevent.2
      cases answer <;> rfl
    | counted now n =>
      constructor
      · rw [filterMap_concat_none OfferEvent.reclaimedId rfl]
        exact hspent.once
      · rw [filterMap_concat_none OfferEvent.reclaimedId rfl,
          filterMap_concat_none OfferEvent.returnedId rfl,
          filterMap_concat_none OfferEvent.access rfl]
        exact hspent.gone

/-- What a call returns was parked and is fresh. -/
theorem parkedFresh_of_answer {A : Type} {read : PendingOffer T → Option A} {out : A}
    {id : OfferBuildId} {now : ℕ}
    (hcreated : ∀ id offer, .parked id offer ∈ log → offer.createdAt ≤ now)
    (hanswer : some out = ((held (log.filterMap OfferEvent.access) id).filter
      (isFresh PendingOffer.createdAt pendingTtl now)).bind read) :
    ∃ offer, read offer = some out ∧ ParkedFresh log id offer now := by
  obtain ⟨offer, hoffer, hout⟩ := Option.bind_eq_some_iff.mp hanswer.symm
  obtain ⟨hheld, hfresh⟩ := Option.filter_eq_some_iff.mp hoffer
  obtain ⟨earlier, later, hsplit, hlater⟩ := parked_of_held hheld
  have hle := hcreated id offer (by rw [hsplit]; exact List.mem_append_right _ List.mem_cons_self)
  have hage : now - offer.createdAt < pendingTtl := of_decide_eq_true hfresh
  refine ⟨offer, hout, ⟨earlier, later, hsplit, hlater⟩, hle, ?_⟩
  omega

/-- An access leaves nothing too old at its sweep. -/
theorem swept_perform {step : OfferStep T} (haccess : (run.perform step).log ≠ run.log) :
    ∀ row ∈ (run.perform step).pending.entries.rows,
      run.clock - row.2.createdAt < pendingTtl := by
  have hswept : ∀ row ∈ (run.pending.sweepExpired run.clock).rows,
      run.clock - row.2.createdAt < pendingTtl := fun row hrow => Table.isFresh_of_mem_sweep hrow
  cases step with
  | tick | insertMake | insertTake => exact absurd rfl haccess
  | park i elapsed =>
    revert haccess
    show (match run.waiting[i]? with | none => run | some call => _ : OfferRun T).log ≠ _ →
      ∀ row ∈ (match run.waiting[i]? with | none => run | some call => _ :
        OfferRun T).pending.entries.rows, _
    rcases run.waiting[i]? with _ | call
    · exact fun haccess => absurd rfl haccess
    · rintro - ⟨id, offer⟩ hrow
      have hget := Table.mem_rows.mp hrow
      rw [show PendingOffers.entries _ = (run.pending.sweepExpired run.clock).put call.id _ from rfl,
        Table.get?_put] at hget
      by_cases hid : call.id = id
      · rw [if_pos hid] at hget
        obtain rfl := Option.some.inj hget
        show run.clock - (run.clock + elapsed) < 300 * 10 ^ 9
        omega
      · rw [if_neg hid] at hget
        exact hswept (id, offer) (Table.mem_rows.mpr hget)
  | takeMake id => exact fun row hrow => hswept row (List.mem_filter.mp hrow).1
  | takeTake id => exact fun row hrow => hswept row (List.mem_filter.mp hrow).1
  | len => exact hswept

theorem after_concat (steps : List (OfferStep T)) (step : OfferStep T) :
    OfferRun.after (steps ++ [step]) = (OfferRun.after steps).perform step := by
  unfold OfferRun.after
  rw [List.foldl_append]
  rfl

/-- By induction on the steps, from the last. -/
theorem issued_after (steps : List (OfferStep T)) (h : steps.countP OfferStep.isInsert < 2 ^ 64) :
    Issued (OfferRun.after steps) (steps.countP OfferStep.isInsert) ∧
      Tracks (OfferRun.after steps) := by
  induction steps using List.reverseRecOn with
  | nil => exact ⟨⟨rfl, fun id hid => absurd hid List.not_mem_nil, List.nodup_nil⟩, tracks_new⟩
  | append_singleton steps step ih =>
    rw [List.countP_append, List.countP_singleton] at h ⊢
    obtain ⟨hissued, htracks⟩ := ih (by omega)
    rw [after_concat]
    exact ⟨issued_perform hissued (by omega) step, tracks_perform htracks step⟩

end Proofs

/-- With fewer than `2 ^ 64` inserts every run of the steps of any number of calls keeps the promise
of a parked build. -/
theorem singleUse_run (steps : List (OfferStep T))
    (hinserts : steps.countP OfferStep.isInsert < 2 ^ 64) : SingleUse steps := by
  obtain ⟨hissued, htracks⟩ := issued_after steps hinserts
  have hids : ((OfferRun.after steps).log.filterMap OfferEvent.returnedId).Nodup :=
    (List.nodup_append.mp hissued.nodup).2.1
  constructor
  · exact hids
  · intro before id now out hbefore
    obtain ⟨hcreated, hanswer⟩ := htracks.answered before _ hbefore
    obtain ⟨⟨ctx, kind, createdAt⟩, hout, hparked⟩ := parkedFresh_of_answer hcreated hanswer
    cases kind with
    | make state =>
      obtain rfl := Option.some.inj hout
      exact ⟨createdAt, hparked⟩
    | take offer => cases hout
  · intro before id now out hbefore
    obtain ⟨hcreated, hanswer⟩ := htracks.answered before _ hbefore
    obtain ⟨⟨ctx, kind, createdAt⟩, hout, hparked⟩ := parkedFresh_of_answer hcreated hanswer
    cases kind with
    | make state => cases hout
    | take offer =>
      obtain rfl := Option.some.inj hout
      exact ⟨ctx, createdAt, hparked⟩
  · exact (spent_of_answered htracks.answered hids).once
  · intro earlier step _ haccess
    rw [after_concat] at haccess ⊢
    exact swept_perform haccess

/-- Two inserts whose ids are drawn before either parks; the first is taken as the wrong kind. -/
theorem singleUse_run_twoInserts :
    SingleUse (@List.cons (OfferStep ⟨ℕ, ℕ, ℕ, String⟩) (.insertMake 1 2 3)
      [.insertTake 4 "offer", .tick 5, .park 1 6, .park 0 7, .takeTake (.ofCounter 0),
        .takeMake (.ofCounter 0), .takeTake (.ofCounter 1), .tick pendingTtl, .len]) :=
  singleUse_run _ (by decide)

/-- Right after an access no entry is `PENDING_TTL` old. -/
def LeavesNoneExpired (steps : List (OfferStep T)) : Prop :=
  ∀ earlier step, earlier ++ [step] <+: steps →
    (OfferRun.after (earlier ++ [step])).log ≠ (OfferRun.after earlier).log →
      ∀ row ∈ (OfferRun.after (earlier ++ [step])).pending.entries.rows,
        (OfferRun.after (earlier ++ [step])).clock - row.2.createdAt < pendingTtl

/-- The first entry is a nanosecond short of its age when the second insert sweeps, and has it when
that insert reads the clock again for its own entry. -/
def lateInsert : List (OfferStep ⟨ℕ, ℕ, ℕ, String⟩) :=
  [.insertMake 1 2 3, .park 0 0, .insertMake 4 5 6, .tick (pendingTtl - 1)]

theorem insert_leaves_expired : ¬ ∀ (T : OfferTypes) (steps : List (OfferStep T)),
    steps.countP OfferStep.isInsert < 2 ^ 64 → SingleUse steps ∧ LeavesNoneExpired steps := by
  intro hall
  obtain ⟨-, hnone⟩ := hall ⟨ℕ, ℕ, ℕ, String⟩ (lateInsert ++ [.park 0 1]) (by decide)
  have hexpired : ∃ row ∈ (OfferRun.after (lateInsert ++ [.park 0 1])).pending.entries.rows,
      ¬ (OfferRun.after (lateInsert ++ [.park 0 1])).clock - row.2.createdAt < pendingTtl := by
    decide +kernel
  obtain ⟨row, hrow, hage⟩ := hexpired
  have haccess : (OfferRun.after (lateInsert ++ [.park 0 1])).log ≠
      (OfferRun.after lateInsert).log := by
    intro heq
    cases congrArg List.length heq
  exact hage (hnone lateInsert (.park 0 1) (List.prefix_refl _) haccess row hrow)

end DigWallet
