import DigWallet.Engine.Publishers
import DigWallet.Engine.Replayed

/-!
# DigWallet.Engine.Mirrored — the store as a subscriber sees it

The sync loop publishes its events one after the other while a subscriber polls, lags, reconnects and
catches up.  What the subscriber has received is at every moment the matching part of a beginning of
the stream, so the coin states it rebuilds are those of the stream so far, and those of the store once
it has read everything.
-/

namespace DigWallet

/-! ## The loop and its subscriber -/

/-- The engine, the events its loop has yet to publish, and the bus. -/
structure Feed where
  engine : SyncEngine
  outbox : List WalletEvent
  bus : Bus

/-- The calls that only announce. -/
inductive Notice
  | observeTip (height : UInt32) (headerHash : String)
  | confirmTransaction (txId : String) (height : UInt32)
  | failTransaction (txId error : String)

def Notice.event : Notice → WalletEvent
  | observeTip height headerHash => .newTip height headerHash
  | confirmTransaction txId height => .confirmation txId height
  | failTransaction txId error => .transactionFailed txId error

inductive FeedAction
  | sync (step : SyncStep)
  | notice (notice : Notice)
  /-- The loop calls `publish` with its next event, the publish before it being over. -/
  | publish
  /-- A later step of that publish, or a step of the subscriber. -/
  | bus (action : BusAction)

def Feed.init (sink : EventSink) : Feed := ⟨.new, [], .init sink⟩

section Steps

variable (w : WalletId) (filter : Finset EventKind)

def feedStep (feed : Feed) : FeedAction → Option Feed
  | .sync step =>
    let engine := step.perform w feed.engine
    some { feed with
      engine
      outbox := feed.outbox ++ engine.published.drop feed.engine.published.length }
  | .notice notice =>
    some { feed with
      engine := feed.engine.publish [notice.event]
      outbox := feed.outbox ++ [notice.event] }
  | .publish =>
    match feed.outbox with
    | [] => none
    | event :: outbox =>
      if ∀ publish ∈ feed.bus.publishes, publish.stage = .sent then do
        let bus ← busStep filter feed.bus (.fetchAdd event)
        some { feed with outbox, bus }
      else none
  | .bus (.fetchAdd _) => none
  | .bus action => (busStep filter feed.bus action).map fun bus => { feed with bus }

/-- What a `catch_up` asks for is still in the ring. -/
def FeedGap (feed : Feed) : FeedAction → Prop
  | .bus action => GapInRing filter feed.bus action
  | .sync _ | .notice _ | .publish => True

instance (feed : Feed) : ∀ action, Decidable (FeedGap filter feed action)
  | .bus action => inferInstanceAs (Decidable (GapInRing filter feed.bus action))
  | .sync _ | .notice _ | .publish => isTrue trivial

end Steps

/-- What the subscriber has made of the events it received. -/
def Subscriber.view (subscriber : Subscriber) : String → CoinState :=
  (subscriber.received.map EmittedEvent.event).foldl follow fun _ => .gone

/-- The subscriber's coins are those of the stream up to some event, and those of the store when
nothing is under way. -/
structure MirrorsStore (w : WalletId) (filter : Finset EventKind) (feed : Feed) : Prop where
  inOrder : ∃ n ≤ feed.engine.published.length,
    feed.bus.subscriber.received.map EmittedEvent.event =
        (feed.engine.published.take n).filter (fun event => event.isMatch filter) ∧
      ∀ id, feed.bus.subscriber.view id =
        (feed.engine.published.take n).foldl follow (fun _ => .gone) id
  current : feed.outbox = [] → feed.bus.Settled →
    ∀ id, feed.bus.subscriber.view id = (feed.engine.wallet w).stateAt id

/-! ## One publish at a time -/

section Proofs

variable {w : WalletId} {filter : Finset EventKind} {feed feed' : Feed} {bus bus' : Bus}

/-- The publishes carry the cursors 1, 2, …, and all but the last are over. -/
structure OneByOne (bus : Bus) : Prop where
  cursors : ∀ {i publish}, bus.publishes[i]? = some publish →
    publish.emitted.cursor = UInt64.ofNat (i + 1)
  next : bus.sink.nextCursor = UInt64.ofNat (bus.publishes.length + 1)
  done : ∀ {i publish}, bus.publishes[i]? = some publish → i + 1 < bus.publishes.length →
    publish.stage = .sent

theorem ofNat_lt_ofNat {m n : ℕ} (hn : n < 2 ^ 64) (h : m < n) : UInt64.ofNat m < UInt64.ofNat n := by
  have hm : m < 2 ^ 64 := by omega
  rw [UInt64.lt_iff_toNat_lt, UInt64.toNat_ofNat_of_lt' hm, UInt64.toNat_ofNat_of_lt' hn]
  exact h

namespace OneByOne

variable (h : OneByOne bus) (hroom : bus.publishes.length + 1 < 2 ^ 64)

include h in
/-- An unfinished publish is the last one. -/
theorem lt_of_unfinished {i j : ℕ} {publish other : Publish} (hi : bus.publishes[i]? = some publish)
    (hstage : publish.stage ≠ .sent) (hj : bus.publishes[j]? = some other) (hne : j ≠ i) : j < i := by
  obtain ⟨hlength, -⟩ := List.getElem?_eq_some_iff.mp hj
  have hlast : ¬ i + 1 < bus.publishes.length := fun hlt => hstage (h.done hi hlt)
  omega

include h hroom in
theorem cursor_lt {i j : ℕ} {publish other : Publish} (hi : bus.publishes[i]? = some publish)
    (hj : bus.publishes[j]? = some other) (hlt : j < i) :
    other.emitted.cursor < publish.emitted.cursor := by
  obtain ⟨hlength, -⟩ := List.getElem?_eq_some_iff.mp hi
  rw [h.cursors hi, h.cursors hj]
  exact ofNat_lt_ofNat (by omega) (by omega)

include h hroom in
/-- Another event that has come as far as `read` tells is below an unfinished one that has not. -/
theorem earlier_lt {read : Publish → Option EmittedEvent}
    (hread : ∀ publish emitted, read publish = some emitted → publish.emitted = emitted) {i : ℕ}
    {publish : Publish} (hi : bus.publishes[i]? = some publish) (hstage : publish.stage ≠ .sent)
    (hnone : read publish = none) {earlier : EmittedEvent}
    (hearlier : earlier ∈ bus.publishes.filterMap read) : earlier.cursor < publish.emitted.cursor := by
  obtain ⟨other, hother, hsome⟩ := List.mem_filterMap.mp hearlier
  obtain ⟨j, hj⟩ := List.mem_iff_getElem?.mp hother
  have hne : j ≠ i := by
    rintro rfl
    rw [hi] at hj
    obtain rfl := Option.some.inj hj
    rw [hnone] at hsome
    cases hsome
  rw [← hread other earlier hsome]
  exact h.cursor_lt hroom hi hj (h.lt_of_unfinished hi hstage hj hne)

theorem emitted_of_recordedOf (publish : Publish) (emitted : EmittedEvent)
    (hsome : recordedOf publish = some emitted) : publish.emitted = emitted := by
  unfold recordedOf at hsome
  cases hstage : publish.stage with
  | stamped | appended =>
    rw [hstage] at hsome
    cases hsome
  | pushed | sent =>
    rw [hstage] at hsome
    exact Option.some.inj hsome

include h hroom in
/-- So no publish overtakes another. -/
theorem inCursorOrder (hinv : BusInv filter bus) (action : BusAction) : InCursorOrder bus action := by
  cases action with
  | push i =>
    intro emitted hemitted
    have hi := eventAt_eq_some.mp hemitted
    have hcursor : emitted.cursor = UInt64.ofNat (i + 1) := h.cursors hi
    obtain ⟨hlength, -⟩ := List.getElem?_eq_some_iff.mp hi
    refine ⟨?_, fun earlier hearlier => ?_⟩
    · rw [hcursor]
      exact ofNat_lt_ofNat (by omega) (Nat.succ_pos i)
    · exact h.earlier_lt hroom emitted_of_recordedOf hi PublishStage.noConfusion rfl
        (hinv.recorded_perm.subset hearlier)
  | send i =>
    intro emitted hemitted earlier hearlier
    have hi := eventAt_eq_some.mp hemitted
    refine h.earlier_lt hroom ?_ hi PublishStage.noConfusion rfl (hinv.sent_perm.subset hearlier)
    exact fun publish emitted hsome => emitted_of_recordedOf publish emitted (recordedOf_of_sentOf hsome)
  | fetchAdd | append | poll | catchUp | reconnect => trivial

/-- What a later step of a publish, or a step of the subscriber, does to the publishes. -/
theorem publishes_of_step {action : BusAction} (hstep : busStep filter bus action = some bus')
    (hnew : ∀ event, action ≠ .fetchAdd event) :
    bus'.sink.nextCursor = bus.sink.nextCursor ∧ (bus'.publishes = bus.publishes ∨
      ∃ i emitted stage stage', bus.publishes[i]? = some ⟨emitted, stage⟩ ∧ stage ≠ .sent ∧
        bus'.publishes = bus.publishes.set i ⟨emitted, stage'⟩) := by
  cases action with
  | fetchAdd event => exact absurd rfl (hnew event)
  | append i =>
    obtain ⟨emitted, hi, hstep⟩ := Option.bind_eq_some_iff.mp hstep
    obtain rfl := Option.some.inj hstep
    exact ⟨rfl, .inr ⟨i, emitted, _, _, eventAt_eq_some.mp hi, PublishStage.noConfusion, rfl⟩⟩
  | push i =>
    obtain ⟨emitted, hi, hstep⟩ := Option.bind_eq_some_iff.mp hstep
    obtain rfl := Option.some.inj hstep
    exact ⟨rfl, .inr ⟨i, emitted, _, _, eventAt_eq_some.mp hi, PublishStage.noConfusion, rfl⟩⟩
  | send i =>
    obtain ⟨emitted, hi, hstep⟩ := Option.bind_eq_some_iff.mp hstep
    obtain rfl := Option.some.inj hstep
    exact ⟨rfl, .inr ⟨i, emitted, _, _, eventAt_eq_some.mp hi, PublishStage.noConfusion, rfl⟩⟩
  | poll =>
    by_cases hlagged : bus.subscriber.lagged = true
    · simp only [busStep, if_pos hlagged] at hstep
      cases hstep
    · simp only [busStep, if_neg hlagged] at hstep
      obtain ⟨subscriber, -, hstep⟩ := Option.bind_eq_some_iff.mp hstep
      obtain rfl := Option.some.inj hstep
      exact ⟨rfl, .inl rfl⟩
  | catchUp =>
    by_cases hlagged : bus.subscriber.lagged = true
    · simp only [busStep, if_pos hlagged] at hstep
      obtain rfl := Option.some.inj hstep
      exact ⟨rfl, .inl rfl⟩
    · simp only [busStep, if_neg hlagged] at hstep
      cases hstep
  | reconnect =>
    obtain rfl := Option.some.inj hstep
    exact ⟨rfl, .inl rfl⟩

include h in
theorem fetchAdd (hsent : ∀ publish ∈ bus.publishes, publish.stage = .sent) (event : WalletEvent) :
    OneByOne { bus with
      sink := bus.sink.fetchAdd
      publishes := bus.publishes ++ [⟨bus.sink.stamp event, .stamped⟩] } where
  cursors := by
    intro i publish hi
    rw [List.getElem?_append] at hi
    split_ifs at hi with hlt
    · exact h.cursors hi
    · obtain ⟨hlast, -⟩ := List.getElem?_eq_some_iff.mp hi
      rw [List.length_singleton] at hlast
      obtain rfl : i = bus.publishes.length := by omega
      rw [List.mem_singleton.mp (List.mem_of_getElem? hi)]
      exact h.next
  next := by
    show bus.sink.nextCursor + 1 = UInt64.ofNat ((bus.publishes ++ [_]).length + 1)
    rw [h.next, List.length_append, List.length_singleton, UInt64.ofNat_add (_ + 1)]
    rfl
  done := by
    intro i publish hi hlt
    rw [List.length_append, List.length_singleton] at hlt
    rw [List.getElem?_append, if_pos (by omega)] at hi
    exact hsent publish (List.mem_of_getElem? hi)

include h in
theorem step {action : BusAction} (hstep : busStep filter bus action = some bus')
    (hnew : ∀ event, action ≠ .fetchAdd event) :
    OneByOne bus' ∧ bus'.published = bus.published := by
  obtain ⟨hnext, hsame | ⟨i, emitted, stage, stage', hi, hstage, hset⟩⟩ := publishes_of_step hstep hnew
  · refine ⟨⟨?_, ?_, ?_⟩, ?_⟩
    · intro i publish hi
      exact h.cursors (hsame ▸ hi)
    · rw [hnext, hsame]
      exact h.next
    · intro i publish hi hlt
      rw [hsame] at hi hlt
      exact h.done hi hlt
    · unfold Bus.published
      rw [hsame]
  · obtain ⟨hlength, hget⟩ := List.getElem?_eq_some_iff.mp hi
    refine ⟨⟨?_, ?_, ?_⟩, ?_⟩
    · intro j publish hj
      rw [hset, List.getElem?_set] at hj
      split_ifs at hj with hij
      · subst hij
        obtain rfl := Option.some.inj hj
        have hcursor := h.cursors hi
        exact hcursor
      · exact h.cursors hj
    · rw [hnext, hset, List.length_set]
      exact h.next
    · intro j publish hj hlt
      rw [hset, List.length_set] at hlt
      rw [hset, List.getElem?_set] at hj
      split_ifs at hj with hij
      · subst hij
        exact absurd (h.done hi hlt) hstage
      · exact h.done hj hlt
    · have hmap : (bus.publishes.map Publish.emitted)[i]? = some emitted := by
        rw [List.getElem?_map, hi]
        rfl
      obtain ⟨hlt, hget⟩ := List.getElem?_eq_some_iff.mp hmap
      unfold Bus.published
      rw [hset, List.map_set]
      show (bus.publishes.map Publish.emitted).set i emitted = _
      rw [← hget]
      exact List.set_getElem_self hlt

/-- The published events are in cursor order. -/
theorem published_sorted (h : OneByOne bus) (hroom : bus.publishes.length + 1 < 2 ^ 64) :
    bus.published.Pairwise fun a b => a.cursor < b.cursor := by
  unfold Bus.published
  rw [List.pairwise_map, List.pairwise_iff_getElem]
  intro j i hj hi hlt
  exact h.cursor_lt hroom (List.getElem?_eq_getElem hi) (List.getElem?_eq_getElem hj) hlt

end OneByOne

/-! ## What is received is a beginning of the stream -/

section Received

variable (hinv : BusInv filter bus) (h : OneByOne bus) (hroom : bus.publishes.length + 1 < 2 ^ 64)

include hinv h in
/-- The subscriber's cursor is that of some publish, and those up to it have reached the ring. -/
theorem lastSeen_eq : ∃ n ≤ bus.publishes.length, bus.subscriber.lastSeen = UInt64.ofNat n ∧
    ∀ {i : ℕ} {publish : Publish}, bus.publishes[i]? = some publish → i < n →
      publish.emitted ∈ bus.recorded := by
  rcases List.mem_cons.mp hinv.lastSeen with hzero | hmem
  · exact ⟨0, Nat.zero_le _, hzero, fun _ hlt => absurd hlt (Nat.not_lt_zero _)⟩
  · obtain ⟨emitted, hemitted, hlast⟩ := List.mem_map.mp hmem
    obtain ⟨other, hother, hrecorded⟩ :=
      List.mem_filterMap.mp (hinv.recorded_perm.subset hemitted)
    obtain ⟨j, hj⟩ := List.mem_iff_getElem?.mp hother
    obtain ⟨hlength, -⟩ := List.getElem?_eq_some_iff.mp hj
    obtain rfl := OneByOne.emitted_of_recordedOf other emitted hrecorded
    refine ⟨j + 1, hlength, hlast.symm.trans (h.cursors hj), fun {i publish} hi hlt => ?_⟩
    rcases Nat.lt_succ_iff_lt_or_eq.mp hlt with hbefore | rfl
    · have hsent := h.done hi (by omega)
      refine hinv.recorded_perm.symm.subset (List.mem_filterMap.mpr ⟨publish, ?_, ?_⟩)
      · exact List.mem_of_getElem? hi
      · unfold recordedOf
        rw [hsent]
    · obtain rfl := Option.some.inj (hi.symm.trans hj)
      exact hemitted

include hinv h hroom in
/-- Nothing in the ring up to the subscriber's cursor is still on its way into the channel. -/
theorem not_overtaken (emitted : EmittedEvent) : ¬ Overtaken bus emitted := by
  rintro ⟨hpushed, later, hlater, hlt⟩
  obtain ⟨i, hi⟩ := List.mem_iff_getElem?.mp hpushed
  have hbelow := h.earlier_lt hroom (fun publish emitted hsome =>
    OneByOne.emitted_of_recordedOf publish emitted (recordedOf_of_sentOf hsome)) hi
    PublishStage.noConfusion rfl (hinv.sent_perm.subset hlater)
  exact lt_asymm hlt hbelow

include hinv h hroom in
/-- What the subscriber has is the matching part of the events up to its cursor. -/
theorem received_eq : ∃ n ≤ bus.published.length, bus.subscriber.received =
    (bus.published.take n).filter fun emitted => emitted.event.isMatch filter := by
  obtain ⟨n, hn, hlast, hreached⟩ := lastSeen_eq hinv h
  have hsorted : ((bus.published.take n).filter fun emitted =>
      emitted.event.isMatch filter).Pairwise fun a b => a.cursor < b.cursor :=
    ((h.published_sorted hroom).sublist (List.take_sublist n _)).filter _
  have htaken : ∀ {emitted : EmittedEvent}, emitted ∈ bus.published.take n ↔
      ∃ i publish, bus.publishes[i]? = some publish ∧ i < n ∧ publish.emitted = emitted := by
    intro emitted
    unfold Bus.published
    rw [← List.map_take, List.mem_map]
    constructor
    · rintro ⟨publish, hpublish, rfl⟩
      obtain ⟨i, hi⟩ := List.mem_iff_getElem?.mp hpublish
      rw [List.getElem?_take] at hi
      split_ifs at hi with hlt
      exact ⟨i, publish, hi, hlt, rfl⟩
    · rintro ⟨i, publish, hi, hlt, rfl⟩
      refine ⟨publish, List.mem_iff_getElem?.mpr ⟨i, ?_⟩, rfl⟩
      rw [List.getElem?_take, if_pos hlt, hi]
  have hle : ∀ {i publish}, bus.publishes[i]? = some publish →
      (publish.emitted.cursor ≤ bus.subscriber.lastSeen ↔ i < n) := by
    intro i publish hi
    obtain ⟨hlength, -⟩ := List.getElem?_eq_some_iff.mp hi
    have hcursor : (publish.emitted.cursor).toNat = i + 1 := by
      rw [h.cursors hi, UInt64.toNat_ofNat_of_lt' (show i + 1 < 2 ^ 64 by omega)]
    have hseen : bus.subscriber.lastSeen.toNat = n := by
      rw [hlast, UInt64.toNat_ofNat_of_lt' (show n < 2 ^ 64 by omega)]
    rw [UInt64.le_iff_toNat_le, hcursor, hseen]
    exact Nat.succ_le_iff
  refine ⟨n, ?_, ?_⟩
  · unfold Bus.published
    rwa [List.length_map]
  · have hperm : bus.subscriber.received.Perm ((bus.published.take n).filter fun emitted =>
        emitted.event.isMatch filter) := by
      refine (List.perm_ext_iff_of_nodup (BusInv.nodup_of_sorted hinv.received_sorted)
        (BusInv.nodup_of_sorted hsorted)).mpr fun emitted => ?_
      rw [List.mem_filter, htaken]
      constructor
      · intro hmem
        obtain ⟨hrecorded, hmatch⟩ := hinv.received_recorded emitted hmem
        obtain ⟨publish, hpublish, hread⟩ :=
          List.mem_filterMap.mp (hinv.recorded_perm.subset hrecorded)
        obtain ⟨i, hi⟩ := List.mem_iff_getElem?.mp hpublish
        obtain rfl := OneByOne.emitted_of_recordedOf publish emitted hread
        exact ⟨⟨i, publish, hi, (hle hi).mp (hinv.received_le _ hmem), rfl⟩, hmatch⟩
      · rintro ⟨⟨i, publish, hi, hlt, rfl⟩, hmatch⟩
        rcases hinv.seen publish.emitted (hreached hi hlt) hmatch ((hle hi).mpr hlt) with
          hreceived | hovertaken
        · exact hreceived
        · exact absurd hovertaken (not_overtaken hinv h hroom _)
    refine hperm.eq_of_pairwise ?_ hinv.received_sorted hsorted
    exact fun a b _ _ hab hba => absurd hba (lt_asymm hab)

end Received

/-! ## Every run -/

theorem published_only_grows (engine : SyncEngine) (step : SyncStep) :
    engine.published <+: (step.perform w engine).published := by
  cases step with
  | raisePeak height => exact List.prefix_refl _
  | deliver | progress | revert => exact List.prefix_append _ _

theorem replayed_notice {engine : SyncEngine} (h : Replayed w engine) (notice : Notice) :
    Replayed w (engine.publish [notice.event]) := by
  refine h.of_same rfl fun id => ?_
  show lastState (engine.published ++ [notice.event]) id = _
  rw [lastState_append]
  cases notice <;> exact Option.none_or

structure FeedTracks (w : WalletId) (filter : Finset EventKind) (feed : Feed) : Prop where
  replayed : Replayed w feed.engine
  stream : feed.bus.published.map EmittedEvent.event ++ feed.outbox = feed.engine.published
  oneByOne : OneByOne feed.bus
  bus : feed.bus.publishes.length + 1 < 2 ^ 64 → BusInv filter feed.bus

theorem feedTracks_init (capacity : ℕ+) (historyCapacity : ℕ) (persistent : Option SqliteDeltaLog) :
    FeedTracks w filter (.init (.build capacity historyCapacity persistent)) where
  replayed := replayed_new
  stream := rfl
  oneByOne := { cursors := (nomatch ·), next := rfl, done := (nomatch ·) }
  bus _ := .init _ rfl rfl

theorem FeedTracks.publish (h : FeedTracks w filter feed) {event : WalletEvent}
    {outbox : List WalletEvent} (houtbox : feed.outbox = event :: outbox)
    (hsent : ∀ publish ∈ feed.bus.publishes, publish.stage = .sent) :
    FeedTracks w filter { feed with
      outbox
      bus := { feed.bus with
        sink := feed.bus.sink.fetchAdd
        publishes := feed.bus.publishes ++ [⟨feed.bus.sink.stamp event, .stamped⟩] } } where
  replayed := h.replayed
  stream := by
    rw [← h.stream, houtbox]
    show ((feed.bus.publishes ++ [_]).map Publish.emitted).map EmittedEvent.event ++ outbox = _
    rw [List.map_append, List.map_append, List.append_assoc]
    rfl
  oneByOne := h.oneByOne.fetchAdd hsent event
  bus hroom := by
    refine (h.bus ?_).fetchAdd event
    have hlength : (feed.bus.publishes ++ [_]).length + 1 < 2 ^ 64 := hroom
    rw [List.length_append] at hlength
    omega

theorem FeedTracks.bus_step (h : FeedTracks w filter feed) {action : BusAction}
    (hnew : ∀ event, action ≠ .fetchAdd event) (hgap : GapInRing filter feed.bus action)
    (hstep : busStep filter feed.bus action = some bus') :
    FeedTracks w filter { feed with bus := bus' } := by
  obtain ⟨hone, hpublished⟩ := h.oneByOne.step hstep hnew
  have hlength : bus'.publishes.length = feed.bus.publishes.length := by
    have heq := congrArg List.length hpublished
    unfold Bus.published at heq
    rwa [List.length_map, List.length_map] at heq
  refine ⟨h.replayed, ?_, hone, fun hroom => ?_⟩
  · show bus'.published.map EmittedEvent.event ++ feed.outbox = _
    rw [hpublished]
    exact h.stream
  · have hroom : feed.bus.publishes.length + 1 < 2 ^ 64 := hlength ▸ hroom
    exact (h.bus hroom).step hgap (h.oneByOne.inCursorOrder hroom (h.bus hroom) action) hstep

theorem feedTracks_step {action : FeedAction} (h : FeedTracks w filter feed)
    (hgap : FeedGap filter feed action) (hstep : feedStep w filter feed action = some feed') :
    FeedTracks w filter feed' := by
  cases action with
  | sync step =>
    obtain rfl := Option.some.inj hstep
    refine ⟨replayed_step step h.replayed, ?_, h.oneByOne, h.bus⟩
    show feed.bus.published.map EmittedEvent.event ++ (feed.outbox ++ _) = _
    rw [← List.append_assoc, h.stream]
    exact List.prefix_iff_eq_append.mp (published_only_grows feed.engine step)
  | notice notice =>
    obtain rfl := Option.some.inj hstep
    refine ⟨replayed_notice h.replayed notice, ?_, h.oneByOne, h.bus⟩
    show feed.bus.published.map EmittedEvent.event ++ (feed.outbox ++ _) = feed.engine.published ++ _
    rw [← List.append_assoc, h.stream]
  | publish =>
    cases houtbox : feed.outbox with
    | nil =>
      simp only [feedStep, houtbox] at hstep
      cases hstep
    | cons event outbox =>
      simp only [feedStep, houtbox] at hstep
      by_cases hsent : ∀ publish ∈ feed.bus.publishes, publish.stage = .sent
      · rw [if_pos hsent] at hstep
        obtain rfl := Option.some.inj hstep
        exact h.publish houtbox hsent
      · rw [if_neg hsent] at hstep
        cases hstep
  | bus action =>
    have hnew : ∀ event, action ≠ .fetchAdd event := by
      rintro event rfl
      cases hstep
    have hmap : feedStep w filter feed (.bus action) =
        (busStep filter feed.bus action).map fun bus => { feed with bus } := by
      cases action with
      | fetchAdd event => exact absurd rfl (hnew event)
      | append | push | send | poll | catchUp | reconnect => rfl
    rw [hmap, Option.map_eq_some_iff] at hstep
    obtain ⟨bus', hbus, rfl⟩ := hstep
    exact h.bus_step hnew hgap hbus

/-- The kinds that are filtered out say nothing of a coin's state. -/
theorem foldl_follow_filter (hfilter : .coinStateChanged ∈ filter) (events : List WalletEvent)
    (view : String → CoinState) :
    (events.filter fun event => event.isMatch filter).foldl follow view = events.foldl follow view := by
  induction events generalizing view with
  | nil => rfl
  | cons event events ih =>
    rw [List.filter_cons, List.foldl_cons]
    by_cases hmatch : event.isMatch filter = true
    · rw [if_pos hmatch, List.foldl_cons, ih]
    · rw [if_neg hmatch, ih]
      cases event with
      | coinStateChanged => exact absurd (decide_eq_true hfilter) hmatch
      | _ => rfl

/-- After every step the whole stream rebuilds the store. -/
theorem Replayed.view_eq {engine : SyncEngine} (h : Replayed w engine) (id : String) :
    engine.published.foldl follow (fun _ => .gone) id = (engine.wallet w).stateAt id := by
  rw [foldl_follow]
  unfold WalletState.stateAt
  cases hget : (engine.wallet w).coins.get? id with
  | some coin =>
    rw [h.held id coin hget]
    rfl
  | none =>
    cases hlast : lastState engine.published id with
    | none => rfl
    | some state => exact h.gone id hget state hlast

end Proofs

/-- In every run of one sync loop and one subscriber whose catch-ups find their gap in the ring, and
with fewer than `2 ^ 64 - 1` events, the subscriber mirrors the store. -/
theorem subscriber_mirrors_store (w : WalletId) (filter : Finset EventKind)
    (capacity : ℕ+) (historyCapacity : ℕ) (persistent : Option SqliteDeltaLog) (feed : Feed)
    (hfilter : .coinStateChanged ∈ filter)
    (hrun : Run (feedStep w filter) (FeedGap filter)
      (.init (.build capacity historyCapacity persistent)) feed)
    (hroom : feed.engine.published.length + 1 < 2 ^ 64) : MirrorsStore w filter feed := by
  have htracks : FeedTracks w filter feed :=
    hrun.invariant (fun h hgap hstep => feedTracks_step h hgap hstep) (feedTracks_init _ _ _)
  have hstream := htracks.stream
  have hlength : feed.bus.published.length = feed.bus.publishes.length := List.length_map _
  have hle : feed.bus.publishes.length ≤ feed.engine.published.length := by
    rw [← hstream, List.length_append, List.length_map, hlength]
    omega
  have hpublishes : feed.bus.publishes.length + 1 < 2 ^ 64 := by omega
  have hinv := htracks.bus hpublishes
  have hfold : ∀ events : List EmittedEvent,
      ((events.filter fun emitted => emitted.event.isMatch filter).map EmittedEvent.event) =
        (events.map EmittedEvent.event).filter fun event => event.isMatch filter := by
    intro events
    rw [List.filter_map]
    rfl
  constructor
  · obtain ⟨n, hn, hreceived⟩ := received_eq hinv htracks.oneByOne hpublishes
    have htake : feed.engine.published.take n =
        (feed.bus.published.take n).map EmittedEvent.event := by
      rw [← hstream, List.take_append_of_le_length (by rwa [List.length_map]), List.map_take]
    refine ⟨n, by omega, ?_, fun id => ?_⟩
    · rw [hreceived, hfold, htake]
    · unfold Subscriber.view
      rw [hreceived, hfold, foldl_follow_filter hfilter, htake]
  · intro houtbox hsettled id
    have hperm := hinv.nothingMissed.exactlyOnce hsettled
    have hreceived := hperm.eq_of_pairwise (fun a b _ _ hab hba => absurd hba (lt_asymm hab))
      hinv.received_sorted ((htracks.oneByOne.published_sorted hpublishes).filter _)
    rw [houtbox, List.append_nil] at hstream
    unfold Subscriber.view
    rw [hreceived, hfold, foldl_follow_filter hfilter, hstream]
    exact htracks.replayed.view_eq id

/-- The steps of publish `i`. -/
def publishRun (i : ℕ) : List FeedAction := [.publish, .bus (.append i), .bus (.push i), .bus (.send i)]

/-- A coin arrives and a reorg takes it away again; the subscriber lags behind both of its events. -/
def mirrorActions : List FeedAction :=
  [.sync (.deliver ⟨"c", ⟨"p"⟩, ⟨7⟩, some 5, none⟩), .notice (.observeTip 6 "")] ++ publishRun 0 ++
    [.sync (.revert 3)] ++ publishRun 1 ++ [.bus .poll, .bus .catchUp, .bus .poll] ++ publishRun 2 ++
    publishRun 3 ++ [.bus .poll, .bus .catchUp, .bus .poll]

theorem subscriber_mirrors_store_reorg : ∃ feed,
    feed.outbox = [] ∧ feed.bus.subscriber.position = feed.bus.sink.sent.length ∧
      feed.bus.subscriber.received.length = 4 ∧ MirrorsStore ⟨1⟩ Finset.univ feed := by
  have hreplay : (mirrorActions.foldlM (guarded (feedStep ⟨1⟩ Finset.univ) (FeedGap Finset.univ))
      (.init (.build 1 4 none))).any fun feed =>
        feed.outbox = [] ∧ feed.bus.subscriber.position = feed.bus.sink.sent.length ∧
          feed.bus.subscriber.received.length = 4 ∧ feed.engine.published.length = 4 := by
    decide +kernel
  obtain ⟨feed, hfeed, hend⟩ := (Option.any_eq_true _ _).mp hreplay
  obtain ⟨houtbox, hposition, hreceived, hlength⟩ := of_decide_eq_true hend
  refine ⟨feed, houtbox, hposition, hreceived, ?_⟩
  exact subscriber_mirrors_store ⟨1⟩ Finset.univ 1 4 none feed (Finset.mem_univ _)
    (Run.of_replay hfeed) (by rw [hlength]; decide)

end DigWallet
