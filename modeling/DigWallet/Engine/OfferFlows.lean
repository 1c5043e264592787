import DigWallet.Engine.BuildOffer
import DigWallet.Lib.Runs

/-!
# DigWallet.Engine.OfferFlows — two-call offer flows, interleaved

Any number of makes and takes on one `OfferBuilder`.  A build works out its spend, draws an id and
parks under a lock; a second call takes the parked build and finishes from it alone.  The log orders
the builds by their parking and the second calls by their take.
-/

namespace DigWallet

open Faults OfferBuilder

/-! ## The calls -/

inductive OfferRequest
  | make (request : MakeOfferRequest)
  | take (request : TakeOfferRequest)

inductive FlowStep
  | tick (elapsed : ℕ)
  /-- A build up to the lock of its insert; `inputs` is what its reads return. -/
  | build (inputs : SpendInputs) (request : OfferRequest)
  /-- A waiting build takes the lock, `elapsed` between its two readings of the clock. -/
  | park (call : ℕ) (elapsed : ℕ)
  | assembleMake (request : AssembleOfferRequest)
  | finalizeTake (request : FinalizeTakeRequest)

def FlowStep.isBuild : FlowStep → Bool
  | build .. => true
  | _ => false

section Types

variable (T : OfferTypes)

structure BuildCall where
  inputs : SpendInputs
  request : OfferRequest
  id : OfferBuildId
  built : BuiltOffer T

inductive FlowEvent
  | refused (request : OfferRequest) (fault : Fault WalletError)
  /-- The build has returned its id and its unsigned spend. -/
  | built (call : BuildCall T) (createdAt : ℕ)
  | assembled (request : AssembleOfferRequest) (now : ℕ) (answer : WalletResult OfferString)
  | finalized (request : FinalizeTakeRequest) (now : ℕ) (answer : WalletResult SignedBundle)

/-- The parked builds, the builds that wait for the lock, and what the calls returned. -/
structure OfferFlows where
  run : OfferRun T
  calls : List (BuildCall T)
  log : List (FlowEvent T)

end Types

variable {T : OfferTypes}

namespace BuildCall

variable (call : BuildCall T)

def parkCall : ParkCall T := ⟨call.id, call.built.ctx, call.built.kind⟩

def parkedAt (createdAt : ℕ) : PendingOffer T := ⟨call.built.ctx, call.built.kind, createdAt⟩

end BuildCall

section Runs

variable (libs : OfferLibs T) (builder : SdkSpendBuilder)

def buildOffer (inputs : SpendInputs) : OfferRequest → Call WalletError (BuiltOffer T)
  | .make request => ofResult (buildMake libs { builder with inputs } request)
  | .take request => buildTake libs { builder with inputs } request

namespace OfferFlows

def new : OfferFlows T := ⟨.new, [], []⟩

variable (flows : OfferFlows T)

def perform : FlowStep → OfferFlows T
  | .tick elapsed => { flows with run := flows.run.perform (.tick elapsed) }
  | .build inputs request =>
    match buildOffer libs builder inputs request with
    | .error fault => { flows with log := flows.log ++ [.refused request fault] }
    | .ok built =>
      { flows with
        run := flows.run.insert built.ctx built.kind
        calls := flows.calls ++ [⟨inputs, request, flows.run.pending.mint.2, built⟩] }
  | .park i elapsed =>
    match flows.calls[i]? with
    | none => flows
    | some call =>
      { run := flows.run.perform (.park i elapsed)
        calls := flows.calls.eraseIdx i
        log := flows.log ++ [.built call (flows.run.clock + elapsed)] }
  | .assembleMake request =>
    let taken := flows.run.pending.takeMake flows.run.clock request.buildId
    { flows with
      run := flows.run.perform (.takeMake request.buildId)
      log := flows.log ++
        [.assembled request flows.run.clock (assembleMake libs taken.2 request.signed)] }
  | .finalizeTake request =>
    let taken := flows.run.pending.takeTake flows.run.clock request.buildId
    { flows with
      run := flows.run.perform (.takeTake request.buildId)
      log := flows.log ++
        [.finalized request flows.run.clock (finalizeTake libs taken.2 request.signed)] }

def after (steps : List FlowStep) : OfferFlows T := steps.foldl (perform libs builder) new

end OfferFlows

end Runs

/-! ## What links a second call to its build -/

namespace FlowEvent

/-- The id a build returned or a second call asked for. -/
def buildId : FlowEvent T → Option OfferBuildId
  | refused .. => none
  | built call _ => some call.id
  | assembled request .. => some request.buildId
  | finalized request .. => some request.buildId

def returnedId : FlowEvent T → Option OfferBuildId
  | built call _ => some call.id
  | _ => none

def access : FlowEvent T → Option (Access OfferBuildId (PendingOffer T))
  | refused .. => none
  | built call createdAt => some (.put call.id (call.parkedAt createdAt))
  | assembled request .. => some (.remove request.buildId)
  | finalized request .. => some (.remove request.buildId)

end FlowEvent

/-- The last event on the id is the build, less than `PENDING_TTL` old. -/
structure Awaits (before : List (FlowEvent T)) (id : OfferBuildId) (call : BuildCall T)
    (createdAt now : ℕ) : Prop where
  id_eq : call.id = id
  last : ∃ earlier later, before = earlier ++ .built call createdAt :: later ∧
    ∀ event ∈ later, event.buildId ≠ some id
  since : createdAt ≤ now
  fresh : now < createdAt + pendingTtl

section Promise

variable (libs : OfferLibs T) (builder : SdkSpendBuilder)

/-- `dig_offers` made the two sides the request resolves to, the client reviews that make, and it is
what is parked. -/
structure MakesOffer (inputs : SpendInputs) (request : MakeOfferRequest) (built : BuiltOffer T)
    (make : UnsignedMake T) : Prop where
  made : ∃ offered requested,
    resolveOfferedSide libs.hexDecode inputs request.identity request.offered request.fee.mojos =
      .ok offered ∧
    resolveRequestedSide libs.sdk libs.hexDecode request.requested = .ok requested ∧
    libs.offers.makeBuild offered requested request.fee.mojos = .ok make
  coinSpends : built.unsigned.coinSpends = make.coinSpends
  signed : built.unsigned.requiredSignatures ≠ []
  summary : built.unsigned.summary =
    makeSummary request.offered request.requested request.fee.mojos
  ctx : built.ctx = make.ctx
  kind : built.kind = .make ⟨make.requestedPayments, make.requestedAssetInfo⟩

/-- `dig_offers` took the offer with the funds of what it asks for, the client reviews who is paid,
and the offer taken is what is parked. -/
structure TakesOffer (inputs : SpendInputs) (request : TakeOfferRequest) (built : BuiltOffer T)
    (take : UnsignedTake T) : Prop where
  taken : ∃ sides funds, libs.offers.summarize request.offer = .ok sides ∧
    resolveTakerFunds libs.sdk libs.overflowChecks inputs builder.coinCap request.identity
      sides.arbitrage request.fee.mojos = .ok funds ∧
    libs.offers.takeBuild request.offer funds request.fee.mojos = .ok take
  coinSpends : built.unsigned.coinSpends = take.coinSpends
  signed : built.unsigned.requiredSignatures ≠ []
  summary : takerSummary libs.sdk (libs.offers.requestedPayments take.offer) request.fee.mojos =
    .ok built.unsigned.summary
  kind : built.kind = .take take.offer

/-- Every second call is answered from the build that awaits it, of its own kind, and as unknown when
there is none. -/
structure FlowsLinked (log : List (FlowEvent T)) : Prop where
  ids : (log.filterMap FlowEvent.returnedId).Nodup
  assembled : ∀ before request now answer, before ++ [.assembled request now answer] <+: log →
    (∃ call createdAt made make, Awaits before request.buildId call createdAt now ∧
      call.request = .make made ∧ MakesOffer libs call.inputs made call.built make ∧
      answer = (do
        let offer ← orOfferError (libs.offers.makeAssemble make.ctx request.signed
          make.requestedPayments make.requestedAssetInfo)
        finishOfferString libs offer)) ∨
    (∀ call createdAt made, Awaits before request.buildId call createdAt now →
        call.request ≠ .make made) ∧
      answer = .error unknownBuild
  finalized : ∀ before request now answer, before ++ [.finalized request now answer] <+: log →
    (∃ call createdAt taken take, Awaits before request.buildId call createdAt now ∧
      call.request = .take taken ∧ TakesOffer libs builder call.inputs taken call.built take ∧
      answer = .ok (libs.offers.takeCombine take.offer request.signed)) ∨
    (∀ call createdAt taken, Awaits before request.buildId call createdAt now →
        call.request ≠ .take taken) ∧
      answer = .error unknownBuild

end Promise

/-! ## The builds -/

section Proofs

variable {libs : OfferLibs T} {builder : SdkSpendBuilder} {inputs : SpendInputs}

theorem makesOffer_of_ok {request : MakeOfferRequest} {built : BuiltOffer T}
    (h : buildOffer libs builder inputs (.make request) = .ok built) :
    ∃ make, MakesOffer libs inputs request built make := by
  have hmake := ofResult_eq_ok.mp h
  unfold buildMake at hmake
  obtain ⟨offered, hoffered, hmake⟩ := bind_eq_ok.mp hmake
  obtain ⟨requested, hrequested, hmake⟩ := bind_eq_ok.mp hmake
  obtain ⟨make, hbuild, hmake⟩ := bind_eq_ok.mp hmake
  obtain ⟨unsigned, hunsigned, hmake⟩ := bind_eq_ok.mp hmake
  obtain rfl := Except.ok.inj hmake
  obtain ⟨hspends, hsummary, -⟩ := finish_eq_ok hunsigned
  exact ⟨make, ⟨offered, requested, hoffered, hrequested, orOfferError_eq_ok.mp hbuild⟩, hspends,
    signed_of_finish hunsigned, hsummary, rfl, rfl⟩

theorem takesOffer_of_ok {request : TakeOfferRequest} {built : BuiltOffer T}
    (h : buildOffer libs builder inputs (.take request) = .ok built) :
    ∃ take, TakesOffer libs builder inputs request built take := by
  have htake : buildTake libs { builder with inputs } request = .ok built := h
  unfold buildTake at htake
  obtain ⟨sides, hsides, htake⟩ := bind_eq_ok.mp htake
  obtain ⟨funds, hfunds, htake⟩ := bind_eq_ok.mp htake
  obtain ⟨take, hbuild, htake⟩ := bind_eq_ok.mp htake
  obtain ⟨summary, hsummary, htake⟩ := bind_eq_ok.mp htake
  obtain ⟨unsigned, hunsigned, htake⟩ := bind_eq_ok.mp htake
  obtain rfl := Except.ok.inj htake
  obtain ⟨hspends, hreviewed, -⟩ := finish_eq_ok (ofResult_eq_ok.mp hunsigned)
  have hsigned := signed_of_finish (ofResult_eq_ok.mp hunsigned)
  refine ⟨take, ⟨sides, funds, ?_, hfunds, ?_⟩, hspends, hsigned, ?_, rfl⟩
  · exact orOfferError_eq_ok.mp (ofResult_eq_ok.mp hsides)
  · exact orOfferError_eq_ok.mp (ofResult_eq_ok.mp hbuild)
  · rw [hreviewed]
    exact ofResult_eq_ok.mp hsummary

/-! ## The flows refine the parked builds -/

variable {flows : OfferFlows T} {log : List (FlowEvent T)}

theorem buildId_eq (event : FlowEvent T) : event.buildId = event.access.map Access.key := by
  cases event <;> rfl

/-- What is held under an id is the last build on it. -/
theorem held_eq_built {id : OfferBuildId} {offer : PendingOffer T} :
    held (log.filterMap FlowEvent.access) id = some offer ↔
      ∃ call createdAt earlier later, log = earlier ++ .built call createdAt :: later ∧
        (∀ event ∈ later, event.buildId ≠ some id) ∧ call.id = id ∧
        offer = call.parkedAt createdAt := by
  rw [held_eq_some]
  constructor
  · rintro ⟨accesses, accesses', hsplit, hlater⟩
    obtain ⟨earlier, rest, rfl, -, hrest⟩ := List.filterMap_eq_append_iff.mp hsplit
    obtain ⟨skipped, event, later, rfl, -, hevent, rfl⟩ := List.filterMap_eq_cons_iff.mp hrest
    cases event with
    | built call createdAt =>
      obtain ⟨rfl, rfl⟩ := Access.put.inj (Option.some.inj hevent)
      refine ⟨call, createdAt, earlier ++ skipped, later, (List.append_assoc _ _ _).symm, ?_, rfl, rfl⟩
      intro other hother hid
      rw [buildId_eq, Option.map_eq_some_iff] at hid
      obtain ⟨access, haccess, hkey⟩ := hid
      exact hlater access (List.mem_filterMap.mpr ⟨other, hother, haccess⟩) hkey
    | refused | assembled | finalized => cases hevent
  · rintro ⟨call, createdAt, earlier, later, rfl, hlater, rfl, rfl⟩
    refine ⟨earlier.filterMap FlowEvent.access, later.filterMap FlowEvent.access, ?_, ?_⟩
    · exact List.filterMap_append
    · intro access haccess hkey
      obtain ⟨other, hother, hother'⟩ := List.mem_filterMap.mp haccess
      refine hlater other hother ?_
      rw [buildId_eq, hother', Option.map_some, hkey]

/-- What is held under an id and fresh is the build that awaits its second call. -/
theorem held_eq_awaits {id : OfferBuildId} {now : ℕ} {offer : PendingOffer T}
    (hcreated : ∀ call createdAt, .built call createdAt ∈ log → createdAt ≤ now) :
    (held (log.filterMap FlowEvent.access) id).filter
        (isFresh PendingOffer.createdAt pendingTtl now) = some offer ↔
      ∃ call createdAt, Awaits log id call createdAt now ∧ offer = call.parkedAt createdAt := by
  rw [Option.filter_eq_some_iff, held_eq_built]
  constructor
  · rintro ⟨⟨call, createdAt, earlier, later, hsplit, hlater, hid, rfl⟩, hfresh⟩
    have hle : createdAt ≤ now := by
      refine hcreated call createdAt ?_
      rw [hsplit]
      exact List.mem_append_right _ List.mem_cons_self
    have hage : now - createdAt < pendingTtl := of_decide_eq_true hfresh
    exact ⟨call, createdAt, ⟨hid, ⟨earlier, later, hsplit, hlater⟩, hle, by omega⟩, rfl⟩
  · rintro ⟨call, createdAt, ⟨hid, ⟨earlier, later, hsplit, hlater⟩, hle, hfresh⟩, rfl⟩
    refine ⟨⟨call, createdAt, earlier, later, hsplit, hlater, hid, rfl⟩, decide_eq_true ?_⟩
    show now - createdAt < pendingTtl
    omega

/-! ## The answers -/

/-- What the events before it make a second call answer. -/
def FlowEvent.Answers (libs : OfferLibs T) (before : List (FlowEvent T)) : FlowEvent T → Prop
  | assembled request now answer =>
    (∀ call createdAt, .built call createdAt ∈ before → createdAt ≤ now) ∧
      answer = assembleMake libs (((held (before.filterMap access) request.buildId).filter
        (isFresh PendingOffer.createdAt pendingTtl now)).bind PendingOffer.makeIntermediate)
        request.signed
  | finalized request now answer =>
    (∀ call createdAt, .built call createdAt ∈ before → createdAt ≤ now) ∧
      answer = finalizeTake libs (((held (before.filterMap access) request.buildId).filter
        (isFresh PendingOffer.createdAt pendingTtl now)).bind PendingOffer.takeIntermediate)
        request.signed
  | refused .. | built .. => True

/-- The flows are the parked builds of a run of `PendingOffers`, with what the calls made of them. -/
structure FlowsTrack (libs : OfferLibs T) (builder : SdkSpendBuilder) (flows : OfferFlows T)
    (minted : ℕ) : Prop where
  issued : Issued flows.run minted
  tracks : Tracks flows.run
  waiting : flows.calls.map BuildCall.parkCall = flows.run.waiting
  accesses : flows.log.filterMap FlowEvent.access = flows.run.log.filterMap OfferEvent.access
  returned : flows.log.filterMap FlowEvent.returnedId = flows.run.log.filterMap OfferEvent.returnedId
  calls : ∀ call ∈ flows.calls, buildOffer libs builder call.inputs call.request = .ok call.built
  built : ∀ call createdAt, .built call createdAt ∈ flows.log → createdAt ≤ flows.run.clock ∧
    buildOffer libs builder call.inputs call.request = .ok call.built
  answered : ∀ before event, before ++ [event] <+: flows.log → event.Answers libs before

theorem flowsTrack_new : FlowsTrack libs builder (.new : OfferFlows T) 0 where
  issued := ⟨rfl, fun id hid => absurd hid List.not_mem_nil, List.nodup_nil⟩
  tracks := tracks_new
  waiting := rfl
  accesses := rfl
  returned := rfl
  calls call hcall := absurd hcall List.not_mem_nil
  built call createdAt hcall := absurd hcall List.not_mem_nil
  answered before event hevent := by
    have hnil := List.prefix_nil.mp hevent
    exact absurd hnil (by simp)

section Steps

variable {minted : ℕ} (h : FlowsTrack libs builder flows minted)

include h

theorem flowsTrack_tick (elapsed : ℕ) :
    FlowsTrack libs builder (flows.perform libs builder (.tick elapsed)) minted where
  issued := h.issued.of_perm rfl (.refl _)
  tracks := tracks_tick h.tracks elapsed
  waiting := h.waiting
  accesses := h.accesses
  returned := h.returned
  calls := h.calls
  built call createdAt hcall :=
    ⟨Nat.le_trans (h.built call createdAt hcall).1 (Nat.le_add_right _ _), (h.built call createdAt hcall).2⟩
  answered := h.answered

theorem flowsTrack_refused (request : OfferRequest) (fault : Fault WalletError) :
    FlowsTrack libs builder { flows with log := flows.log ++ [.refused request fault] } minted where
  issued := h.issued
  tracks := h.tracks
  waiting := h.waiting
  accesses := by
    rw [← h.accesses]
    exact List.filterMap_append.trans (List.append_nil _)
  returned := by
    rw [← h.returned]
    exact List.filterMap_append.trans (List.append_nil _)
  calls := h.calls
  built call createdAt hcall := by
    rcases List.mem_append.mp hcall with hold | hnew
    · exact h.built call createdAt hold
    · cases List.mem_singleton.mp hnew
  answered := forall_prefix_concat.mpr ⟨h.answered, trivial⟩

theorem flowsTrack_insert (hroom : minted < 2 ^ 64) {inputs : SpendInputs} {request : OfferRequest}
    {built : BuiltOffer T} (hbuilt : buildOffer libs builder inputs request = .ok built) :
    FlowsTrack libs builder
      { flows with
        run := flows.run.insert built.ctx built.kind
        calls := flows.calls ++ [⟨inputs, request, flows.run.pending.mint.2, built⟩] }
      (minted + 1) where
  issued := issued_insert h.issued hroom _ _
  tracks := tracks_insert h.tracks _ _
  waiting := by
    rw [List.map_append, h.waiting]
    rfl
  accesses := h.accesses
  returned := h.returned
  calls call hcall := by
    rcases List.mem_append.mp hcall with hold | hnew
    · exact h.calls call hold
    · rw [List.mem_singleton.mp hnew]
      exact hbuilt
  built := h.built
  answered := h.answered

theorem flowsTrack_park (i elapsed : ℕ) :
    FlowsTrack libs builder (flows.perform libs builder (.park i elapsed)) minted := by
  show FlowsTrack libs builder (match flows.calls[i]? with | none => flows | some call => _) minted
  rcases hcall : flows.calls[i]? with _ | call
  · exact h
  · have hwaiting : flows.run.waiting[i]? = some call.parkCall := by
      rw [← h.waiting, List.getElem?_map, hcall]
      rfl
    have hrun : flows.run.perform (.park i elapsed) =
        { pending := flows.run.pending.park flows.run.clock (flows.run.clock + elapsed) call.id
            call.built.ctx call.built.kind
          clock := flows.run.clock + elapsed
          waiting := flows.run.waiting.eraseIdx i
          log := flows.run.log ++
            [.parked call.id (call.parkedAt (flows.run.clock + elapsed))] } := by
      unfold OfferRun.perform
      dsimp only
      rw [hwaiting]
      rfl
    have hmem := List.mem_of_getElem? hcall
    have hissued := issued_park h.issued (i := i) elapsed
    have htracks := tracks_park h.tracks i elapsed
    rw [hrun] at hissued htracks ⊢
    refine ⟨hissued, htracks, ?_, ?_, ?_, ?_, ?_, ?_⟩
    · show (flows.calls.eraseIdx i).map BuildCall.parkCall = flows.run.waiting.eraseIdx i
      rw [← h.waiting, List.eraseIdx_map]
    · show (flows.log ++ [_]).filterMap FlowEvent.access =
        (flows.run.log ++ [_]).filterMap OfferEvent.access
      rw [List.filterMap_append, List.filterMap_append, h.accesses]
      rfl
    · show (flows.log ++ [_]).filterMap FlowEvent.returnedId =
        (flows.run.log ++ [_]).filterMap OfferEvent.returnedId
      rw [List.filterMap_append, List.filterMap_append, h.returned]
      rfl
    · exact fun other hother => h.calls other (List.mem_of_mem_eraseIdx hother)
    · intro other createdAt hother
      rcases List.mem_append.mp hother with hold | hnew
      · obtain ⟨hle, hbuilt⟩ := h.built other createdAt hold
        exact ⟨Nat.le_trans hle (Nat.le_add_right _ _), hbuilt⟩
      · obtain ⟨rfl, rfl⟩ := FlowEvent.built.inj (List.mem_singleton.mp hnew)
        exact ⟨Nat.le_refl _, h.calls other hmem⟩
    · exact forall_prefix_concat.mpr ⟨h.answered, trivial⟩

/-- A second call: what the run of the parked builds removed is what its event is answered from. -/
theorem flowsTrack_second {run : OfferRun T} {event : FlowEvent T} {id : OfferBuildId}
    (taken : OfferEvent T) (hissued : Issued run minted) (htracks : Tracks run)
    (hwaiting : run.waiting = flows.run.waiting) (hclock : run.clock = flows.run.clock)
    (hlog : run.log = flows.run.log ++ [taken]) (htaken : taken.access = some (.remove id))
    (hreturned : taken.returnedId = none) (hevent : event.access = some (.remove id))
    (hanswer : event.Answers libs flows.log) :
    FlowsTrack libs builder { flows with run := run, log := flows.log ++ [event] } minted := by
  have hnew : event.returnedId = none ∧ ∀ call createdAt, event ≠ .built call createdAt := by
    cases event with
    | built => cases hevent
    | refused | assembled | finalized => exact ⟨rfl, fun _ _ heq => nomatch heq⟩
  refine ⟨hissued, htracks, h.waiting.trans hwaiting.symm, ?_, ?_, h.calls, ?_, ?_⟩
  · rw [hlog, List.filterMap_append, filterMap_concat_some _ htaken, h.accesses,
      List.filterMap_cons_some hevent]
    rfl
  · rw [hlog, List.filterMap_append, filterMap_concat_none _ hreturned, h.returned,
      List.filterMap_cons_none hnew.1]
    exact List.append_nil _
  · intro call createdAt hcall
    rw [hclock]
    rcases List.mem_append.mp hcall with hold | hlast
    · exact h.built call createdAt hold
    · exact absurd (List.mem_singleton.mp hlast).symm (hnew.2 call createdAt)
  · exact forall_prefix_concat.mpr ⟨h.answered, hanswer⟩

theorem removed_eq_held (id : OfferBuildId) :
    (flows.run.pending.remove flows.run.clock id).2 =
      (held (flows.log.filterMap FlowEvent.access) id).filter
        (isFresh PendingOffer.createdAt pendingTtl flows.run.clock) := by
  rw [h.accesses]
  exact removed_eq h.tracks id

theorem flowsTrack_perform (hroom : minted < 2 ^ 64) (step : FlowStep) :
    ∃ minted' ≤ minted + (if step.isBuild then 1 else 0),
      FlowsTrack libs builder (flows.perform libs builder step) minted' := by
  cases step with
  | tick elapsed => exact ⟨minted, Nat.le_add_right _ _, flowsTrack_tick h elapsed⟩
  | build inputs request =>
    show ∃ minted' ≤ minted + 1, FlowsTrack libs builder
      (match buildOffer libs builder inputs request with | .error fault => _ | .ok built => _) minted'
    rcases hbuilt : buildOffer libs builder inputs request with fault | built
    · exact ⟨minted, Nat.le_succ _, flowsTrack_refused h request fault⟩
    · exact ⟨minted + 1, Nat.le_refl _, flowsTrack_insert h hroom hbuilt⟩
  | park i elapsed => exact ⟨minted, Nat.le_add_right _ _, flowsTrack_park h i elapsed⟩
  | assembleMake request =>
    refine ⟨minted, Nat.le_add_right _ _, ?_⟩
    refine flowsTrack_second h (.tookMake request.buildId flows.run.clock _)
      (h.issued.of_access rfl rfl rfl rfl) (tracks_perform h.tracks (.takeMake request.buildId))
      rfl rfl rfl rfl rfl rfl ⟨fun call createdAt hcall => (h.built call createdAt hcall).1, ?_⟩
    rw [← removed_eq_held h request.buildId]
    rfl
  | finalizeTake request =>
    refine ⟨minted, Nat.le_add_right _ _, ?_⟩
    refine flowsTrack_second h (.tookTake request.buildId flows.run.clock _)
      (h.issued.of_access rfl rfl rfl rfl) (tracks_perform h.tracks (.takeTake request.buildId))
      rfl rfl rfl rfl rfl rfl ⟨fun call createdAt hcall => (h.built call createdAt hcall).1, ?_⟩
    rw [← removed_eq_held h request.buildId]
    rfl

end Steps

variable (libs builder) in
/-- By induction on the steps, from the last. -/
theorem flowsTrack_after (steps : List FlowStep) (h : steps.countP FlowStep.isBuild < 2 ^ 64) :
    ∃ minted ≤ steps.countP FlowStep.isBuild,
      FlowsTrack libs builder (OfferFlows.after libs builder steps) minted := by
  induction steps using List.reverseRecOn with
  | nil => exact ⟨0, Nat.le_refl _, flowsTrack_new⟩
  | append_singleton steps step ih =>
    rw [List.countP_append, List.countP_singleton] at h ⊢
    obtain ⟨minted, hminted, htrack⟩ := ih (by omega)
    obtain ⟨minted', hminted', htrack'⟩ := flowsTrack_perform htrack (by omega) step
    refine ⟨minted', by omega, ?_⟩
    unfold OfferFlows.after at htrack' ⊢
    rw [List.foldl_append]
    exact htrack'

/-- What the take of a make finds of a build. -/
theorem makeIntermediate_eq_some {call : BuildCall T} (createdAt : ℕ) {out : MakeIntermediate T}
    (hbuilt : buildOffer libs builder call.inputs call.request = .ok call.built) :
    (call.parkedAt createdAt).makeIntermediate = some out ↔
      ∃ made make, call.request = .make made ∧ MakesOffer libs call.inputs made call.built make ∧
        out = ⟨make.ctx, make.requestedPayments, make.requestedAssetInfo⟩ := by
  unfold BuildCall.parkedAt
  constructor
  · intro hout
    cases hrequest : call.request with
    | make made =>
      rw [hrequest] at hbuilt
      obtain ⟨make, hmake⟩ := makesOffer_of_ok hbuilt
      rw [hmake.kind, hmake.ctx] at hout
      exact ⟨made, make, rfl, hmake, (Option.some.inj hout).symm⟩
    | take taken =>
      rw [hrequest] at hbuilt
      obtain ⟨take, htake⟩ := takesOffer_of_ok hbuilt
      rw [htake.kind] at hout
      cases hout
  · rintro ⟨made, make, -, hmake, rfl⟩
    rw [hmake.kind, hmake.ctx]
    rfl

theorem takeIntermediate_eq_some {call : BuildCall T} (createdAt : ℕ) {out : TakeIntermediate T}
    (hbuilt : buildOffer libs builder call.inputs call.request = .ok call.built) :
    (call.parkedAt createdAt).takeIntermediate = some out ↔
      ∃ taken take, call.request = .take taken ∧
        TakesOffer libs builder call.inputs taken call.built take ∧ out = ⟨take.offer⟩ := by
  unfold BuildCall.parkedAt
  constructor
  · intro hout
    cases hrequest : call.request with
    | make made =>
      rw [hrequest] at hbuilt
      obtain ⟨make, hmake⟩ := makesOffer_of_ok hbuilt
      rw [hmake.kind] at hout
      cases hout
    | take taken =>
      rw [hrequest] at hbuilt
      obtain ⟨take, htake⟩ := takesOffer_of_ok hbuilt
      rw [htake.kind] at hout
      exact ⟨taken, take, rfl, htake, (Option.some.inj hout).symm⟩
  · rintro ⟨taken, take, -, htake, rfl⟩
    rw [htake.kind]
    rfl

/-- A call that reads what is held under its id reads the build that awaits it, or nothing. -/
theorem read_eq_awaits {A : Type} (read : PendingOffer T → Option A) (id : OfferBuildId) {now : ℕ}
    (hcreated : ∀ call createdAt, .built call createdAt ∈ log → createdAt ≤ now) :
    (∃ call createdAt out, Awaits log id call createdAt now ∧
      read (call.parkedAt createdAt) = some out ∧
      ((held (log.filterMap FlowEvent.access) id).filter
        (isFresh PendingOffer.createdAt pendingTtl now)).bind read = some out) ∨
    (∀ call createdAt, Awaits log id call createdAt now → read (call.parkedAt createdAt) = none) ∧
      ((held (log.filterMap FlowEvent.access) id).filter
        (isFresh PendingOffer.createdAt pendingTtl now)).bind read = none := by
  rcases hread : ((held (log.filterMap FlowEvent.access) id).filter
      (isFresh PendingOffer.createdAt pendingTtl now)).bind read with _ | out
  · refine .inr ⟨fun call createdAt hawaits => ?_, rfl⟩
    rw [(held_eq_awaits hcreated).mpr ⟨call, createdAt, hawaits, rfl⟩] at hread
    exact hread
  · obtain ⟨offer, hoffer, hout⟩ := Option.bind_eq_some_iff.mp hread
    obtain ⟨call, createdAt, hawaits, rfl⟩ := (held_eq_awaits hcreated).mp hoffer
    exact .inl ⟨call, createdAt, out, hawaits, hout, rfl⟩

theorem FlowsTrack.built_of_awaits {minted : ℕ} (h : FlowsTrack libs builder flows minted)
    {before : List (FlowEvent T)} {event : FlowEvent T} (hbefore : before ++ [event] <+: flows.log)
    {id : OfferBuildId} {call : BuildCall T} {createdAt now : ℕ}
    (hawaits : Awaits before id call createdAt now) :
    buildOffer libs builder call.inputs call.request = .ok call.built := by
  obtain ⟨earlier, later, hsplit, -⟩ := hawaits.last
  refine (h.built call createdAt (hbefore.subset (List.mem_append_left _ ?_))).2
  rw [hsplit]
  exact List.mem_append_right _ List.mem_cons_self

end Proofs

/-- With fewer than `2 ^ 64` builds, in every interleaving of the steps of any number of flows each
second call is answered from the one build that awaits it, or as unknown when none does. -/
theorem flowsLinked_run {T : OfferTypes} (libs : OfferLibs T) (builder : SdkSpendBuilder)
    (steps : List FlowStep) (hbuilds : steps.countP FlowStep.isBuild < 2 ^ 64) :
    FlowsLinked libs builder (OfferFlows.after libs builder steps).log := by
  obtain ⟨minted, -, htrack⟩ := flowsTrack_after libs builder steps hbuilds
  constructor
  · rw [htrack.returned]
    exact (List.nodup_append.mp htrack.issued.nodup).2.1
  · intro before request now answer hbefore
    obtain ⟨hcreated, rfl⟩ := htrack.answered before _ hbefore
    rcases read_eq_awaits PendingOffer.makeIntermediate request.buildId hcreated with
      ⟨call, createdAt, out, hawaits, hout, hread⟩ | ⟨hnone, hread⟩
    · have hbuilt := htrack.built_of_awaits hbefore hawaits
      obtain ⟨made, make, hrequest, hmake, rfl⟩ := (makeIntermediate_eq_some createdAt hbuilt).mp hout
      rw [hread]
      exact .inl ⟨call, createdAt, made, make, hawaits, hrequest, hmake, rfl⟩
    · rw [hread]
      refine .inr ⟨fun call createdAt made hawaits hrequest => ?_, rfl⟩
      have hbuilt := htrack.built_of_awaits hbefore hawaits
      obtain ⟨make, hmake⟩ := makesOffer_of_ok (hrequest ▸ hbuilt)
      have hout := (makeIntermediate_eq_some createdAt hbuilt).mpr
        ⟨made, make, hrequest, hmake, rfl⟩
      exact nomatch (hnone call createdAt hawaits).symm.trans hout
  · intro before request now answer hbefore
    obtain ⟨hcreated, rfl⟩ := htrack.answered before _ hbefore
    rcases read_eq_awaits PendingOffer.takeIntermediate request.buildId hcreated with
      ⟨call, createdAt, out, hawaits, hout, hread⟩ | ⟨hnone, hread⟩
    · have hbuilt := htrack.built_of_awaits hbefore hawaits
      obtain ⟨taken, take, hrequest, htake, rfl⟩ := (takeIntermediate_eq_some createdAt hbuilt).mp hout
      rw [hread]
      exact .inl ⟨call, createdAt, taken, take, hawaits, hrequest, htake, rfl⟩
    · rw [hread]
      refine .inr ⟨fun call createdAt taken hawaits hrequest => ?_, rfl⟩
      have hbuilt := htrack.built_of_awaits hbefore hawaits
      obtain ⟨take, htake⟩ := takesOffer_of_ok (hrequest ▸ hbuilt)
      have hout := (takeIntermediate_eq_some createdAt hbuilt).mpr
        ⟨taken, take, hrequest, htake, rfl⟩
      exact nomatch (hnone call createdAt hawaits).symm.trans hout

/-! ## A make and a take -/

section Sample

namespace Sim

def offerTypes : OfferTypes := ⟨Unit, OfferPayments, Unit, OfferPayments⟩

/-- Pays `amount` of the first coin to `destination`, and returns the rest. -/
def payFirst (coins : List Coin) (ownerKeys : Table Bytes32 PublicKey) (changePuzzleHash : Bytes32)
    (destination : Bytes32) (amount fee : UInt64) : Except OfferError (List CoinSpend) :=
  match coins with
  | [] => .error (.invalidInput "Insufficient XCH")
  | coin :: _ =>
    match ownerKeys.get? coin.puzzleHash with
    | none => .error (.driver "missing key")
    | some key =>
      match standardSpend key coin (.createCoin ⟨destination, amount, none⟩ ::
          changeCondition changePuzzleHash (coin.amount - amount - fee)) with
      | .error e => .error (.driver e)
      | .ok spend => .ok [spend]

/-- Offers of XCH for 40 mojos at the wallet's address. -/
def offerDrivers : OfferDrivers offerTypes where
  makeBuild offered requested fee := do
    let spends ← payFirst offered.xchCoins offered.ownerKeys offered.changePuzzleHash
      sim.settlementPaymentHash offered.offerXch fee
    .ok ⟨(), spends, ⟨[[⟨requested.payeePuzzleHash, requested.xch⟩]], []⟩, ()⟩
  makeAssemble _ _ _ _ := .ok "offer1"
  takeBuild _ funds fee := do
    let spends ← payFirst funds.xchCoins funds.ownerKeys funds.changePuzzleHash home 40 fee
    .ok ⟨(), spends, ⟨[[⟨home, 40⟩]], []⟩⟩
  takeCombine _ signed := signed
  cancelBuild _ _ _ _ := .ok []
  combine _ := .ok "offer1"
  summarize _ := .ok ⟨[], [.xch 40], ⟨40, []⟩, []⟩
  decode _ := .ok []
  offerId _ := .ok (.rep 7)
  requestedPayments payments := payments

def offerLibs : OfferLibs offerTypes :=
  ⟨sim, spendDrivers, offerDrivers, fun _ => .error "Invalid character", true⟩

end Sim

def sampleMake : OfferRequest :=
  .make ⟨Sim.identity, ⟨⟨60⟩, []⟩, ⟨⟨40⟩, [], Sim.addressOf Sim.home⟩, ⟨1⟩⟩

def sampleTake : OfferRequest := .take ⟨Sim.identity, "offer1", ⟨1⟩⟩

def sampleSigned : SignedBundle := ⟨[], ⟨[]⟩⟩

/-- Both draw their ids before either parks; the make is assembled and asked for again. -/
def sampleFlows : List FlowStep :=
  [.build Sim.oneCoin.inputs sampleMake, .build Sim.oneCoin.inputs sampleTake, .park 1 6, .tick 5,
    .park 0 7, .assembleMake ⟨.ofCounter 0, sampleSigned⟩, .assembleMake ⟨.ofCounter 0, sampleSigned⟩,
    .finalizeTake ⟨.ofCounter 1, sampleSigned⟩]

/-- Whether a second call returned a result. -/
def FlowEvent.succeeded {T : OfferTypes} : FlowEvent T → Bool
  | assembled _ _ (.ok _) | finalized _ _ (.ok _) => true
  | _ => false

theorem flowsLinked_sample :
    (OfferFlows.after Sim.offerLibs Sim.oneCoin sampleFlows).log.map FlowEvent.succeeded =
        [false, false, true, false, true] ∧
      FlowsLinked Sim.offerLibs Sim.oneCoin
        (OfferFlows.after Sim.offerLibs Sim.oneCoin sampleFlows).log :=
  ⟨by decide +kernel, flowsLinked_run Sim.offerLibs Sim.oneCoin sampleFlows (by decide)⟩

end Sample

end DigWallet
