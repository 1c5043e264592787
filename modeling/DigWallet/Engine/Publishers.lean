import DigWallet.Engine.Events
import DigWallet.Lib.Runs

/-!
# DigWallet.Engine.Publishers — concurrent publishers and one subscriber

The clones of a sink publish in any interleaving of the four steps of `publish`, and a subscriber
polls the channel and catches up on a lag.  Nothing is missed in every run in which no publish
overtakes another on its way into the ring or into the channel.
-/

namespace DigWallet

/-! ## The bus -/

/-- The last atomic step a publish has taken. -/
inductive PublishStage
  | stamped
  | appended
  | pushed
  | sent
deriving DecidableEq

/-- One call of `publish`, on any clone. -/
structure Publish where
  emitted : EmittedEvent
  stage : PublishStage
deriving DecidableEq

structure Subscriber where
  /-- The index in the channel of the next event to read. -/
  position : ℕ
  lastSeen : UInt64
  /-- A `LagSignal` or a reconnect that `catch_up` has not answered yet. -/
  lagged : Bool
  received : List EmittedEvent
deriving DecidableEq

structure Bus where
  sink : EventSink
  publishes : List Publish
  subscriber : Subscriber
  /-- All that was ever pushed into the ring, in order; the ring is its end. -/
  recorded : List EmittedEvent
deriving DecidableEq

/-- A subscriber that has seen nothing, on a new sink. -/
def Bus.init (sink : EventSink) : Bus := ⟨sink, [], ⟨0, 0, false, []⟩, []⟩

inductive BusAction
  | fetchAdd (event : WalletEvent)
  | append (i : ℕ)
  | push (i : ℕ)
  | send (i : ℕ)
  | poll
  | catchUp
  | reconnect
deriving DecidableEq

namespace Bus

/-- The event of publish `i`, when its last step was `stage`. -/
def eventAt (bus : Bus) (stage : PublishStage) (i : ℕ) : Option EmittedEvent :=
  match bus.publishes[i]? with
  | some publish => if publish.stage = stage then some publish.emitted else none
  | none => none

def move (bus : Bus) (i : ℕ) (emitted : EmittedEvent) (stage : PublishStage) : List Publish :=
  bus.publishes.set i ⟨emitted, stage⟩

end Bus

namespace Subscriber

/-- One `recv` inside `Subscription::next`; `none` is a receiver that waits. -/
def poll (filter : Finset EventKind) (sink : EventSink) (subscriber : Subscriber) :
    Option Subscriber :=
  if sink.capacity < sink.sent.length - subscriber.position then
    -- `Lagged`: the receiver moves to the oldest event the channel holds
    some { subscriber with position := sink.sent.length - sink.capacity, lagged := true }
  else
    match sink.sent[subscriber.position]? with
    | none => none
    | some emitted =>
      if emitted.event.isMatch filter = true ∧ subscriber.lastSeen < emitted.cursor then
        some { subscriber with
          position := subscriber.position + 1
          lastSeen := emitted.cursor
          received := subscriber.received ++ [emitted] }
      else some { subscriber with position := subscriber.position + 1 }

/-- `catch_up(last)` after a lag. -/
def catchUp (filter : Finset EventKind) (sink : EventSink) (subscriber : Subscriber) : Subscriber :=
  let missed := sink.catchUp subscriber.lastSeen filter
  { subscriber with
    lastSeen := missed.foldl (fun last emitted => max last emitted.cursor) subscriber.lastSeen
    lagged := false
    received := subscriber.received ++ missed }

end Subscriber

/-- One atomic step of a publisher or of the subscriber. -/
def busStep (filter : Finset EventKind) (bus : Bus) : BusAction → Option Bus
  | .fetchAdd event =>
    some { bus with
      sink := bus.sink.fetchAdd
      publishes := bus.publishes ++ [⟨bus.sink.stamp event, .stamped⟩] }
  | .append i => do
    let emitted ← bus.eventAt .stamped i
    some { bus with
      sink := bus.sink.appendDurable emitted
      publishes := bus.move i emitted .appended }
  | .push i => do
    let emitted ← bus.eventAt .appended i
    some { bus with
      sink := bus.sink.pushRing emitted
      publishes := bus.move i emitted .pushed
      recorded := bus.recorded ++ [emitted] }
  | .send i => do
    let emitted ← bus.eventAt .pushed i
    some { bus with
      sink := bus.sink.send emitted
      publishes := bus.move i emitted .sent }
  | .poll =>
    if bus.subscriber.lagged then none
    else do
      let subscriber ← bus.subscriber.poll filter bus.sink
      some { bus with subscriber }
  | .catchUp =>
    if bus.subscriber.lagged then
      some { bus with subscriber := bus.subscriber.catchUp filter bus.sink }
    else none
  | .reconnect =>
    some { bus with
      subscriber := { bus.subscriber with position := bus.sink.sent.length, lagged := true } }

/-! ## The guarantee -/

def Bus.published (bus : Bus) : List EmittedEvent := bus.publishes.map Publish.emitted

/-- No publish is under way and the subscriber has read the channel. -/
structure Bus.Settled (bus : Bus) : Prop where
  sent : ∀ publish ∈ bus.publishes, publish.stage = .sent
  caughtUp : bus.subscriber.lagged = false
  drained : bus.subscriber.position = bus.sink.sent.length

structure NothingMissed (filter : Finset EventKind) (bus : Bus) : Prop where
  ordered : ∀ since kinds, (bus.sink.catchUp since kinds).Pairwise fun a b => a.cursor < b.cursor
  exactlyOnce : bus.Settled → bus.subscriber.received.Perm
    (bus.published.filter fun emitted => emitted.event.isMatch filter)

/-- What a `catch_up` asks for is still in the ring. -/
def GapInRing (filter : Finset EventKind) (bus : Bus) : BusAction → Prop
  | .catchUp => ∀ emitted ∈ bus.recorded, emitted.event.isMatch filter = true →
      bus.subscriber.lastSeen < emitted.cursor → emitted ∈ bus.sink.history
  | _ => True

/-- No publish overtakes another: the ring and the channel get each event above all they got
before, and above the cursor 0 of a subscriber that has seen nothing. -/
def InCursorOrder (bus : Bus) : BusAction → Prop
  | .push i => ∀ emitted ∈ bus.eventAt .appended i, 0 < emitted.cursor ∧
      ∀ earlier ∈ bus.recorded, earlier.cursor < emitted.cursor
  | .send i => ∀ emitted ∈ bus.eventAt .pushed i,
      ∀ earlier ∈ bus.sink.sent, earlier.cursor < emitted.cursor
  | _ => True

/-! ## What a step changes -/

section Step

variable {filter : Finset EventKind} {bus bus' : Bus}

theorem eventAt_eq_some {stage : PublishStage} {i : ℕ} {emitted : EmittedEvent} :
    bus.eventAt stage i = some emitted ↔ bus.publishes[i]? = some ⟨emitted, stage⟩ := by
  unfold Bus.eventAt
  cases hi : bus.publishes[i]? with
  | none => simp
  | some publish =>
    obtain ⟨emitted', stage'⟩ := publish
    by_cases hstage : stage' = stage
    · simp [hstage]
    · simp [hstage]

/-- The event of a publish that has reached the ring. -/
def recordedOf (publish : Publish) : Option EmittedEvent :=
  match publish.stage with
  | .stamped | .appended => none
  | .pushed | .sent => some publish.emitted

/-- The event of a publish that is complete. -/
def sentOf (publish : Publish) : Option EmittedEvent :=
  match publish.stage with
  | .stamped | .appended | .pushed => none
  | .sent => some publish.emitted

/-- What is sent was recorded. -/
theorem recordedOf_of_sentOf {publish : Publish} {emitted : EmittedEvent}
    (h : sentOf publish = some emitted) : recordedOf publish = some emitted := by
  unfold sentOf at h
  unfold recordedOf
  cases hstage : publish.stage with
  | sent =>
    rw [hstage] at h
    exact h
  | _ =>
    rw [hstage] at h
    cases h

theorem filterMap_set {α β : Type} {f : α → Option β} {l : List α} {i : ℕ} {x y : α}
    (hx : l[i]? = some x) (h : f y = f x) : (l.set i y).filterMap f = l.filterMap f := by
  induction l generalizing i with
  | nil => rfl
  | cons a l ih =>
    cases i with
    | zero =>
      obtain rfl : a = x := by simpa using hx
      rw [List.set_cons_zero, List.filterMap_cons, List.filterMap_cons, h]
    | succ i =>
      rw [List.set_cons_succ, List.filterMap_cons, List.filterMap_cons, ih (by simpa using hx)]

theorem filterMap_set_perm {α β : Type} {f : α → Option β} {l : List α} {i : ℕ} {x y : α} {b : β}
    (hx : l[i]? = some x) (hfx : f x = none) (hfy : f y = some b) :
    ((l.set i y).filterMap f).Perm (l.filterMap f ++ [b]) := by
  induction l generalizing i with
  | nil => simp at hx
  | cons a l ih =>
    cases i with
    | zero =>
      obtain rfl : a = x := by simpa using hx
      rw [List.set_cons_zero, List.filterMap_cons_some hfy, List.filterMap_cons_none hfx]
      exact (List.perm_append_singleton b _).symm
    | succ i =>
      have hperm := ih (i := i) (by simpa using hx)
      rw [List.set_cons_succ]
      cases ha : f a with
      | none => rwa [List.filterMap_cons_none ha, List.filterMap_cons_none ha]
      | some c =>
        rw [List.filterMap_cons_some ha, List.filterMap_cons_some ha, List.cons_append]
        exact hperm.cons c

theorem eq_of_nodup_filterMap {α β : Type} {f : α → Option β} {l : List α} {x y : α} {b : β}
    (hnodup : (l.filterMap f).Nodup) (hx : x ∈ l) (hy : y ∈ l) (hfx : f x = some b)
    (hfy : f y = some b) : x = y := by
  induction l with
  | nil => cases hx
  | cons a l ih =>
    rcases List.mem_cons.mp hx with rfl | hx'
    · rcases List.mem_cons.mp hy with rfl | hy'
      · rfl
      · have htail : b ∈ l.filterMap f := List.mem_filterMap.mpr ⟨y, hy', hfy⟩
        rw [List.filterMap_cons_some hfx, List.nodup_cons] at hnodup
        exact absurd htail hnodup.1
    · rcases List.mem_cons.mp hy with rfl | hy'
      · have htail : b ∈ l.filterMap f := List.mem_filterMap.mpr ⟨x, hx', hfx⟩
        rw [List.filterMap_cons_some hfy, List.nodup_cons] at hnodup
        exact absurd htail hnodup.1
      · refine ih (hnodup.sublist ?_) hx' hy'
        exact (List.sublist_cons_self a l).filterMap f

theorem mem_set_of_ne {α : Type} {l : List α} {i : ℕ} {x y z : α} (hy : l[i]? = some y)
    (hx : x ∈ l) (hne : x ≠ y) : x ∈ l.set i z := by
  obtain ⟨j, hj⟩ := List.mem_iff_getElem?.mp hx
  have hij : i ≠ j := by
    rintro rfl
    rw [hy] at hj
    exact hne (Option.some.inj hj).symm
  rw [List.mem_iff_getElem?]
  exact ⟨j, by rw [List.getElem?_set_ne hij, hj]⟩

theorem le_foldl_max (events : List EmittedEvent) (last : UInt64) :
    last ≤ events.foldl (fun last emitted => max last emitted.cursor) last ∧
      ∀ emitted ∈ events,
        emitted.cursor ≤ events.foldl (fun last emitted => max last emitted.cursor) last := by
  induction events generalizing last with
  | nil => exact ⟨le_rfl, fun _ h => absurd h List.not_mem_nil⟩
  | cons first events ih =>
    obtain ⟨hle, hall⟩ := ih (max last first.cursor)
    refine ⟨le_trans (le_max_left _ _) hle, ?_⟩
    intro emitted hmem
    rcases List.mem_cons.mp hmem with rfl | hmem
    · exact le_trans (le_max_right _ _) hle
    · exact hall emitted hmem

theorem foldl_max_mem (events : List EmittedEvent) (last : UInt64) :
    events.foldl (fun last emitted => max last emitted.cursor) last = last ∨
      ∃ emitted ∈ events,
        emitted.cursor = events.foldl (fun last emitted => max last emitted.cursor) last := by
  induction events generalizing last with
  | nil => exact .inl rfl
  | cons first events ih =>
    rw [List.foldl_cons]
    rcases ih (max last first.cursor) with h | ⟨emitted, hmem, h⟩
    · rw [h]
      rcases le_total last first.cursor with hle | hle
      · exact .inr ⟨first, List.mem_cons_self, (max_eq_right hle).symm⟩
      · exact .inl (max_eq_left hle)
    · exact .inr ⟨emitted, List.mem_cons_of_mem _ hmem, h⟩

/-! ## The invariant -/

/-- A recorded event at or below the subscriber's cursor that it does not have: still on its way
into the channel, and overtaken there. -/
def Overtaken (bus : Bus) (emitted : EmittedEvent) : Prop :=
  ⟨emitted, .pushed⟩ ∈ bus.publishes ∧ ∃ later ∈ bus.sink.sent, emitted.cursor < later.cursor

structure BusInv (filter : Finset EventKind) (bus : Bus) : Prop where
  recorded_perm : bus.recorded.Perm (bus.publishes.filterMap recordedOf)
  sent_perm : bus.sink.sent.Perm (bus.publishes.filterMap sentOf)
  recorded_sorted : bus.recorded.Pairwise fun a b => a.cursor < b.cursor
  sent_sorted : bus.sink.sent.Pairwise fun a b => a.cursor < b.cursor
  ring : ∃ evicted, bus.recorded = evicted ++ bus.sink.history
  lastSeen : bus.subscriber.lastSeen ∈ 0 :: bus.recorded.map EmittedEvent.cursor
  received_sorted : bus.subscriber.received.Pairwise fun a b => a.cursor < b.cursor
  received_le : ∀ emitted ∈ bus.subscriber.received, emitted.cursor ≤ bus.subscriber.lastSeen
  received_recorded : ∀ emitted ∈ bus.subscriber.received,
    emitted ∈ bus.recorded ∧ emitted.event.isMatch filter = true
  seen : ∀ emitted ∈ bus.recorded, emitted.event.isMatch filter = true →
    emitted.cursor ≤ bus.subscriber.lastSeen →
      emitted ∈ bus.subscriber.received ∨ Overtaken bus emitted
  read : bus.subscriber.lagged = false →
    ∀ emitted ∈ bus.sink.sent.take bus.subscriber.position,
      emitted.event.isMatch filter = true → emitted ∈ bus.subscriber.received
  position_le : bus.subscriber.position ≤ bus.sink.sent.length

namespace BusInv

/-! ### Events in cursor order -/

section Sorted

variable {events : List EmittedEvent}
  (hsorted : events.Pairwise fun a b => a.cursor < b.cursor)
include hsorted

theorem nodup_of_sorted : events.Nodup :=
  hsorted.imp fun hlt => by
    rintro rfl
    exact lt_irrefl _ hlt

theorem sorted_concat {emitted : EmittedEvent}
    (h : ∀ earlier ∈ events, earlier.cursor < emitted.cursor) :
    (events ++ [emitted]).Pairwise fun a b => a.cursor < b.cursor := by
  refine List.pairwise_append.mpr ⟨hsorted, List.pairwise_singleton _ _, ?_⟩
  intro earlier hearlier later hlater
  rw [List.mem_singleton.mp hlater]
  exact h earlier hearlier

theorem eq_of_cursor {a b : EmittedEvent} (ha : a ∈ events) (hb : b ∈ events)
    (h : a.cursor = b.cursor) : a = b := by
  have hnodup : (events.map EmittedEvent.cursor).Nodup :=
    List.pairwise_map.mpr (hsorted.imp ne_of_lt)
  exact List.inj_on_of_nodup_map hnodup ha hb h

end Sorted

/-! ### What is recorded and what is sent -/

theorem recorded_of_sent (hinv : BusInv filter bus) {emitted : EmittedEvent}
    (h : emitted ∈ bus.sink.sent) : emitted ∈ bus.recorded := by
  obtain ⟨publish, hmem, hsent⟩ := List.mem_filterMap.mp (hinv.sent_perm.subset h)
  exact hinv.recorded_perm.symm.subset
    (List.mem_filterMap.mpr ⟨publish, hmem, recordedOf_of_sentOf hsent⟩)

/-- A recorded event is sent or waits to be. -/
theorem sent_or_pushed (hinv : BusInv filter bus) {emitted : EmittedEvent}
    (h : emitted ∈ bus.recorded) :
    emitted ∈ bus.sink.sent ∨ ⟨emitted, .pushed⟩ ∈ bus.publishes := by
  obtain ⟨⟨emitted', stage⟩, hmem, hrecorded⟩ :=
    List.mem_filterMap.mp (hinv.recorded_perm.subset h)
  cases stage with
  | stamped => cases hrecorded
  | appended => cases hrecorded
  | pushed =>
    obtain rfl := Option.some.inj hrecorded
    exact .inr hmem
  | sent =>
    obtain rfl := Option.some.inj hrecorded
    exact .inl (hinv.sent_perm.symm.subset (List.mem_filterMap.mpr ⟨_, hmem, rfl⟩))

theorem recorded_nodup (hinv : BusInv filter bus) : bus.recorded.Nodup :=
  nodup_of_sorted hinv.recorded_sorted

theorem sent_nodup (hinv : BusInv filter bus) : bus.sink.sent.Nodup :=
  nodup_of_sorted hinv.sent_sorted

/-- What is sent does not wait to be sent. -/
theorem not_pushed_of_sent (hinv : BusInv filter bus) {emitted : EmittedEvent}
    (h : emitted ∈ bus.sink.sent) : ⟨emitted, .pushed⟩ ∉ bus.publishes := by
  intro hpushed
  obtain ⟨publish, hmem, hsent⟩ := List.mem_filterMap.mp (hinv.sent_perm.subset h)
  have hnodup := (hinv.recorded_perm.nodup_iff).mp hinv.recorded_nodup
  have heq := eq_of_nodup_filterMap hnodup hmem hpushed (recordedOf_of_sentOf hsent) rfl
  rw [heq] at hsent
  cases hsent

theorem history_sorted (hinv : BusInv filter bus) :
    bus.sink.history.Pairwise fun a b => a.cursor < b.cursor := by
  obtain ⟨evicted, hring⟩ := hinv.ring
  have hsorted := hinv.recorded_sorted
  rw [hring, List.pairwise_append] at hsorted
  exact hsorted.2.1

theorem history_recorded (hinv : BusInv filter bus) {emitted : EmittedEvent}
    (h : emitted ∈ bus.sink.history) : emitted ∈ bus.recorded := by
  obtain ⟨evicted, hring⟩ := hinv.ring
  rw [hring]
  exact List.mem_append_right _ h

/-! ### Publisher steps -/

theorem init (sink : EventSink) (hsent : sink.sent = []) (hhistory : sink.history = []) :
    BusInv filter (Bus.init sink) where
  recorded_perm := .refl _
  sent_perm := by
    show sink.sent.Perm []
    rw [hsent]
  recorded_sorted := .nil
  sent_sorted := by
    show sink.sent.Pairwise _
    rw [hsent]
    exact .nil
  ring := ⟨[], hhistory.symm⟩
  lastSeen := List.mem_cons_self
  received_sorted := .nil
  received_le := fun _ h => absurd h List.not_mem_nil
  received_recorded := fun _ h => absurd h List.not_mem_nil
  seen := fun _ h => absurd h List.not_mem_nil
  read := fun _ _ h => absurd h List.not_mem_nil
  position_le := Nat.zero_le _

/-- A step that touches neither ring, channel nor subscriber, and keeps what is pushed. -/
theorem of_quiet (hinv : BusInv filter bus) (hsent : bus'.sink.sent = bus.sink.sent)
    (hhistory : bus'.sink.history = bus.sink.history) (hrecorded : bus'.recorded = bus.recorded)
    (hsubscriber : bus'.subscriber = bus.subscriber)
    (hrecordedOf : bus'.publishes.filterMap recordedOf = bus.publishes.filterMap recordedOf)
    (hsentOf : bus'.publishes.filterMap sentOf = bus.publishes.filterMap sentOf)
    (hpushed : ∀ emitted, ⟨emitted, .pushed⟩ ∈ bus.publishes →
      (⟨emitted, .pushed⟩ : Publish) ∈ bus'.publishes) :
    BusInv filter bus' where
  recorded_perm := by
    rw [hrecorded, hrecordedOf]
    exact hinv.recorded_perm
  sent_perm := by
    rw [hsent, hsentOf]
    exact hinv.sent_perm
  recorded_sorted := hrecorded ▸ hinv.recorded_sorted
  sent_sorted := hsent ▸ hinv.sent_sorted
  ring := by
    rw [hrecorded, hhistory]
    exact hinv.ring
  lastSeen := by
    rw [hrecorded, hsubscriber]
    exact hinv.lastSeen
  received_sorted := hsubscriber ▸ hinv.received_sorted
  received_le := hsubscriber ▸ hinv.received_le
  received_recorded := by
    rw [hrecorded, hsubscriber]
    exact hinv.received_recorded
  seen := by
    rw [hrecorded, hsubscriber]
    intro emitted hmem hmatch hle
    rcases hinv.seen emitted hmem hmatch hle with h | ⟨h, later, hlater, hlt⟩
    · exact .inl h
    · exact .inr ⟨hpushed emitted h, later, hsent ▸ hlater, hlt⟩
  read := by
    rw [hsent, hsubscriber]
    exact hinv.read
  position_le := by
    rw [hsent, hsubscriber]
    exact hinv.position_le

theorem fetchAdd (hinv : BusInv filter bus) (event : WalletEvent) :
    BusInv filter { bus with
      sink := bus.sink.fetchAdd
      publishes := bus.publishes ++ [⟨bus.sink.stamp event, .stamped⟩] } := by
  refine hinv.of_quiet rfl rfl rfl rfl ?_ ?_ ?_
  · show (bus.publishes ++ [_]).filterMap recordedOf = _
    rw [List.filterMap_append]
    exact List.append_nil _
  · show (bus.publishes ++ [_]).filterMap sentOf = _
    rw [List.filterMap_append]
    exact List.append_nil _
  · intro emitted hmem
    exact List.mem_append_left _ hmem

theorem append (hinv : BusInv filter bus) {i : ℕ} {emitted : EmittedEvent}
    (hi : bus.eventAt .stamped i = some emitted) :
    BusInv filter { bus with
      sink := bus.sink.appendDurable emitted
      publishes := bus.move i emitted .appended } := by
  have hi := eventAt_eq_some.mp hi
  refine hinv.of_quiet rfl rfl rfl rfl (filterMap_set hi rfl) (filterMap_set hi rfl) ?_
  intro emitted' hmem
  exact mem_set_of_ne hi hmem (fun h => by cases h)

/-- The ring stays the end of what was recorded. -/
theorem ring_push (hinv : BusInv filter bus) (emitted : EmittedEvent) :
    ∃ evicted, bus.recorded ++ [emitted] = evicted ++ (bus.sink.pushRing emitted).history := by
  obtain ⟨evicted, hring⟩ := hinv.ring
  show ∃ evicted, bus.recorded ++ [emitted] = evicted ++
    ((if bus.sink.history.length = bus.sink.historyCapacity then bus.sink.history.tail
      else bus.sink.history) ++ [emitted])
  by_cases hfull : bus.sink.history.length = bus.sink.historyCapacity
  · rw [if_pos hfull, hring]
    cases hhistory : bus.sink.history with
    | nil => exact ⟨evicted, by rw [List.append_nil, List.tail_nil, List.nil_append]⟩
    | cons oldest rest => exact ⟨evicted ++ [oldest], by simp⟩
  · rw [if_neg hfull, hring]
    exact ⟨evicted, List.append_assoc _ _ _⟩

/-- The subscriber's cursor is below an event above all recorded ones. -/
theorem lastSeen_lt (hinv : BusInv filter bus) {emitted : EmittedEvent}
    (hzero : 0 < emitted.cursor)
    (habove : ∀ earlier ∈ bus.recorded, earlier.cursor < emitted.cursor) :
    bus.subscriber.lastSeen < emitted.cursor := by
  rcases List.mem_cons.mp hinv.lastSeen with h | h
  · rw [h]
    exact hzero
  · obtain ⟨earlier, hearlier, h⟩ := List.mem_map.mp h
    rw [← h]
    exact habove earlier hearlier

/-- The event recorded last is above the subscriber's cursor, so what is seen stays seen. -/
theorem seen_push (hinv : BusInv filter bus) {i : ℕ} {emitted : EmittedEvent}
    (hi : bus.publishes[i]? = some ⟨emitted, .appended⟩)
    (hunseen : bus.subscriber.lastSeen < emitted.cursor) :
    ∀ emitted' ∈ bus.recorded ++ [emitted], emitted'.event.isMatch filter = true →
      emitted'.cursor ≤ bus.subscriber.lastSeen →
        emitted' ∈ bus.subscriber.received ∨
          ⟨emitted', .pushed⟩ ∈ bus.move i emitted .pushed ∧
            ∃ later ∈ bus.sink.sent, emitted'.cursor < later.cursor := by
  intro emitted' hmem hmatch hle
  rcases List.mem_append.mp hmem with hmem | hmem
  · rcases hinv.seen emitted' hmem hmatch hle with h | ⟨h, hlater⟩
    · exact .inl h
    · exact .inr ⟨mem_set_of_ne hi h (fun h => by cases h), hlater⟩
  · rw [List.mem_singleton.mp hmem] at hle
    exact absurd hunseen (not_lt_of_ge hle)

theorem push (hinv : BusInv filter bus) {i : ℕ} {emitted : EmittedEvent}
    (hi : bus.eventAt .appended i = some emitted) (hzero : 0 < emitted.cursor)
    (habove : ∀ earlier ∈ bus.recorded, earlier.cursor < emitted.cursor) :
    BusInv filter { bus with
      sink := bus.sink.pushRing emitted
      publishes := bus.move i emitted .pushed
      recorded := bus.recorded ++ [emitted] } := by
  have hi := eventAt_eq_some.mp hi
  -- the publish joins the recorded ones; the sent ones are as they were
  have hrecorded : (bus.move i emitted .pushed).filterMap recordedOf |>.Perm
      (bus.publishes.filterMap recordedOf ++ [emitted]) := filterMap_set_perm hi rfl rfl
  have hsent : (bus.move i emitted .pushed).filterMap sentOf = bus.publishes.filterMap sentOf :=
    filterMap_set hi rfl
  exact {
    recorded_perm := (hinv.recorded_perm.append_right _).trans hrecorded.symm
    sent_perm := by
      show bus.sink.sent.Perm ((bus.move i emitted .pushed).filterMap sentOf)
      rw [hsent]
      exact hinv.sent_perm
    -- the order of the pushes is the one the run promises
    recorded_sorted := sorted_concat hinv.recorded_sorted habove
    sent_sorted := hinv.sent_sorted
    ring := hinv.ring_push emitted
    lastSeen := by
      show bus.subscriber.lastSeen ∈ 0 :: (bus.recorded ++ [emitted]).map EmittedEvent.cursor
      rw [List.map_append, ← List.cons_append]
      exact List.mem_append_left _ hinv.lastSeen
    received_sorted := hinv.received_sorted
    received_le := hinv.received_le
    received_recorded := fun emitted' hmem =>
      ⟨List.mem_append_left _ (hinv.received_recorded emitted' hmem).1,
        (hinv.received_recorded emitted' hmem).2⟩
    seen := hinv.seen_push hi (hinv.lastSeen_lt hzero habove)
    read := hinv.read
    position_le := hinv.position_le }

/-- An overtaken event is not the one sent next, so what is seen stays seen. -/
theorem seen_send (hinv : BusInv filter bus) {i : ℕ} {emitted : EmittedEvent}
    (hi : bus.publishes[i]? = some ⟨emitted, .pushed⟩)
    (habove : ∀ earlier ∈ bus.sink.sent, earlier.cursor < emitted.cursor) :
    ∀ emitted' ∈ bus.recorded, emitted'.event.isMatch filter = true →
      emitted'.cursor ≤ bus.subscriber.lastSeen →
        emitted' ∈ bus.subscriber.received ∨
          ⟨emitted', .pushed⟩ ∈ bus.move i emitted .sent ∧
            ∃ later ∈ bus.sink.sent ++ [emitted], emitted'.cursor < later.cursor := by
  intro emitted' hmem hmatch hle
  rcases hinv.seen emitted' hmem hmatch hle with h | ⟨h, later, hlater, hlt⟩
  · exact .inl h
  · refine .inr ⟨mem_set_of_ne hi h ?_, later, List.mem_append_left _ hlater, hlt⟩
    intro heq
    rw [(Publish.mk.inj heq).1] at hlt
    exact absurd hlt (lt_asymm (habove later hlater))

theorem send (hinv : BusInv filter bus) {i : ℕ} {emitted : EmittedEvent}
    (hi : bus.eventAt .pushed i = some emitted)
    (habove : ∀ earlier ∈ bus.sink.sent, earlier.cursor < emitted.cursor) :
    BusInv filter { bus with
      sink := bus.sink.send emitted
      publishes := bus.move i emitted .sent } := by
  have hi := eventAt_eq_some.mp hi
  -- the publish joins the sent ones; the recorded ones are as they were
  have hrecorded : (bus.move i emitted .sent).filterMap recordedOf =
      bus.publishes.filterMap recordedOf := filterMap_set hi rfl
  have hsent : (bus.move i emitted .sent).filterMap sentOf |>.Perm
      (bus.publishes.filterMap sentOf ++ [emitted]) := filterMap_set_perm hi rfl rfl
  exact {
    recorded_perm := by
      show bus.recorded.Perm ((bus.move i emitted .sent).filterMap recordedOf)
      rw [hrecorded]
      exact hinv.recorded_perm
    sent_perm := (hinv.sent_perm.append_right _).trans hsent.symm
    recorded_sorted := hinv.recorded_sorted
    sent_sorted := sorted_concat hinv.sent_sorted habove
    ring := hinv.ring
    lastSeen := hinv.lastSeen
    received_sorted := hinv.received_sorted
    received_le := hinv.received_le
    received_recorded := hinv.received_recorded
    seen := hinv.seen_send hi habove
    -- what lies before the subscriber's position is what lay there
    read := by
      intro hlagged emitted' hmem
      have htake : (bus.sink.sent ++ [emitted]).take bus.subscriber.position =
          bus.sink.sent.take bus.subscriber.position :=
        List.take_append_of_le_length hinv.position_le
      have hmem : emitted' ∈ (bus.sink.sent ++ [emitted]).take bus.subscriber.position := hmem
      rw [htake] at hmem
      exact hinv.read hlagged emitted' hmem
    position_le := by
      show bus.subscriber.position ≤ (bus.sink.sent ++ [emitted]).length
      rw [List.length_append]
      have hle := hinv.position_le
      omega }

/-! ### Subscriber steps -/

/-- **A change of the subscriber alone**: it receives events above its cursor and moves the cursor
to `last`, at or above them all.  What is asked is that it is told of all between the two
cursors, and has what it reads past. -/
theorem receive (hinv : BusInv filter bus) {fresh : List EmittedEvent} {position : ℕ}
    {last : UInt64} {lagged : Bool}
    (hsorted : fresh.Pairwise fun a b => a.cursor < b.cursor)
    (hrecorded : ∀ emitted ∈ fresh, emitted ∈ bus.recorded ∧ emitted.event.isMatch filter = true)
    (habove : ∀ emitted ∈ fresh, bus.subscriber.lastSeen < emitted.cursor)
    (hlast : last ∈ 0 :: bus.recorded.map EmittedEvent.cursor)
    (hold : bus.subscriber.lastSeen ≤ last) (hfresh : ∀ emitted ∈ fresh, emitted.cursor ≤ last)
    (htold : ∀ emitted ∈ bus.recorded, emitted.event.isMatch filter = true →
      bus.subscriber.lastSeen < emitted.cursor → emitted.cursor ≤ last →
        emitted ∈ bus.subscriber.received ++ fresh ∨ Overtaken bus emitted)
    (hread : lagged = false → ∀ emitted ∈ bus.sink.sent.take position,
      emitted.event.isMatch filter = true → emitted ∈ bus.subscriber.received ++ fresh)
    (hposition : position ≤ bus.sink.sent.length) :
    BusInv filter { bus with
      subscriber := ⟨position, last, lagged, bus.subscriber.received ++ fresh⟩ } where
  recorded_perm := hinv.recorded_perm
  sent_perm := hinv.sent_perm
  recorded_sorted := hinv.recorded_sorted
  sent_sorted := hinv.sent_sorted
  ring := hinv.ring
  lastSeen := hlast
  -- all received before is at or below the old cursor
  received_sorted := List.pairwise_append.mpr ⟨hinv.received_sorted, hsorted,
    fun earlier hearlier later hlater =>
      lt_of_le_of_lt (hinv.received_le earlier hearlier) (habove later hlater)⟩
  received_le := by
    intro emitted hmem
    rcases List.mem_append.mp hmem with hmem | hmem
    · exact le_trans (hinv.received_le emitted hmem) hold
    · exact hfresh emitted hmem
  received_recorded := by
    intro emitted hmem
    rcases List.mem_append.mp hmem with hmem | hmem
    · exact hinv.received_recorded emitted hmem
    · exact hrecorded emitted hmem
  seen := by
    intro emitted hmem hmatch hle
    by_cases hbefore : emitted.cursor ≤ bus.subscriber.lastSeen
    · rcases hinv.seen emitted hmem hmatch hbefore with h | h
      · exact .inl (List.mem_append_left _ h)
      · exact .inr h
    · exact htold emitted hmem hmatch (lt_of_not_ge hbefore) hle
  read := hread
  position_le := hposition

/-- A change of the subscriber alone that keeps what it has seen. -/
theorem of_moved (hinv : BusInv filter bus) {position : ℕ} {lagged : Bool}
    (hle : position ≤ bus.sink.sent.length)
    (hread : lagged = false → ∀ emitted ∈ bus.sink.sent.take position,
      emitted.event.isMatch filter = true → emitted ∈ bus.subscriber.received) :
    BusInv filter { bus with subscriber := { bus.subscriber with position, lagged } } where
  recorded_perm := hinv.recorded_perm
  sent_perm := hinv.sent_perm
  recorded_sorted := hinv.recorded_sorted
  sent_sorted := hinv.sent_sorted
  ring := hinv.ring
  lastSeen := hinv.lastSeen
  received_sorted := hinv.received_sorted
  received_le := hinv.received_le
  received_recorded := hinv.received_recorded
  seen := hinv.seen
  read := hread
  position_le := hle

/-- A sent event at or below the subscriber's cursor was received. -/
theorem received_of_le (hinv : BusInv filter bus) {emitted : EmittedEvent}
    (hsent : emitted ∈ bus.sink.sent) (hmatch : emitted.event.isMatch filter = true)
    (hle : emitted.cursor ≤ bus.subscriber.lastSeen) : emitted ∈ bus.subscriber.received := by
  rcases hinv.seen emitted (hinv.recorded_of_sent hsent) hmatch hle with h | ⟨h, -⟩
  · exact h
  · exact absurd h (hinv.not_pushed_of_sent hsent)

theorem mem_take_succ {position : ℕ} {emitted emitted' : EmittedEvent}
    (hget : bus.sink.sent[position]? = some emitted)
    (hmem : emitted' ∈ bus.sink.sent.take (position + 1)) :
    emitted' ∈ bus.sink.sent.take position ∨ emitted' = emitted := by
  rw [List.take_add_one, hget, Option.toList_some, List.mem_append, List.mem_singleton] at hmem
  exact hmem

/-- An event sent below the one at `position` lies before it. -/
theorem mem_take_of_lt (hinv : BusInv filter bus) {position : ℕ} {emitted emitted' : EmittedEvent}
    (hget : bus.sink.sent[position]? = some emitted) (hsent : emitted' ∈ bus.sink.sent)
    (hlt : emitted'.cursor < emitted.cursor) : emitted' ∈ bus.sink.sent.take position := by
  have hsplit := List.take_append_drop position bus.sink.sent
  rw [← hsplit, List.mem_append] at hsent
  rcases hsent with hsent | hsent
  · exact hsent
  · obtain ⟨hlen, hgetElem⟩ := List.getElem?_eq_some_iff.mp hget
    have hdrop := List.drop_eq_getElem_cons hlen
    rw [hgetElem] at hdrop
    have hsorted := hinv.sent_sorted
    rw [← hsplit, List.pairwise_append, hdrop, List.pairwise_cons] at hsorted
    rw [hdrop] at hsent
    rcases List.mem_cons.mp hsent with rfl | hlater
    · exact absurd hlt (lt_irrefl _)
    · exact absurd hlt (lt_asymm (hsorted.2.1.1 emitted' hlater))

/-- Up to the event at the subscriber's position, all that matches was received or is overtaken:
what was sent below it was read, and what waits to be sent it overtook. -/
theorem told_of_next (hinv : BusInv filter bus) (hlagged : bus.subscriber.lagged = false)
    {emitted emitted' : EmittedEvent}
    (hget : bus.sink.sent[bus.subscriber.position]? = some emitted)
    (hsent : emitted ∈ bus.sink.sent) (hmem : emitted' ∈ bus.recorded)
    (hmatch : emitted'.event.isMatch filter = true) (hle : emitted'.cursor ≤ emitted.cursor) :
    emitted' ∈ bus.subscriber.received ++ [emitted] ∨ Overtaken bus emitted' := by
  rcases lt_or_eq_of_le hle with hlt | heq
  · rcases hinv.sent_or_pushed hmem with hsent' | hpushed
    · have hbefore := hinv.mem_take_of_lt hget hsent' hlt
      exact .inl (List.mem_append_left _ (hinv.read hlagged emitted' hbefore hmatch))
    · exact .inr ⟨hpushed, emitted, hsent, hlt⟩
  · -- recorded events of one cursor are one event
    have hsame := eq_of_cursor hinv.recorded_sorted hmem (hinv.recorded_of_sent hsent) heq
    rw [hsame]
    exact .inl (List.mem_append_right _ List.mem_cons_self)

/-- The subscriber takes the event at its position, which is above its cursor. -/
theorem take (hinv : BusInv filter bus) (hlagged : bus.subscriber.lagged = false)
    {emitted : EmittedEvent} (hget : bus.sink.sent[bus.subscriber.position]? = some emitted)
    (hmatch : emitted.event.isMatch filter = true)
    (habove : bus.subscriber.lastSeen < emitted.cursor) :
    BusInv filter { bus with subscriber := { bus.subscriber with
      position := bus.subscriber.position + 1
      lastSeen := emitted.cursor
      received := bus.subscriber.received ++ [emitted] } } := by
  obtain ⟨hlen, hgetElem⟩ := List.getElem?_eq_some_iff.mp hget
  have hsent : emitted ∈ bus.sink.sent := hgetElem ▸ List.getElem_mem hlen
  have hrecorded := hinv.recorded_of_sent hsent
  -- one event is received, and it is the new cursor
  refine hinv.receive (List.pairwise_singleton _ _) ?_ ?_
    (List.mem_cons_of_mem _ (List.mem_map.mpr ⟨emitted, hrecorded, rfl⟩)) (le_of_lt habove) ?_ ?_ ?_
    hlen
  · intro emitted' hmem
    rw [List.mem_singleton.mp hmem]
    exact ⟨hrecorded, hmatch⟩
  · intro emitted' hmem
    rw [List.mem_singleton.mp hmem]
    exact habove
  · intro emitted' hmem
    rw [List.mem_singleton.mp hmem]
  · intro emitted' hmem hmatch' _ hle
    exact hinv.told_of_next hlagged hget hsent hmem hmatch' hle
  · -- the position moves past that event and no other
    intro _ emitted' hmem hmatch'
    rcases mem_take_succ hget hmem with hmem | rfl
    · exact List.mem_append_left _ (hinv.read hlagged emitted' hmem hmatch')
    · exact List.mem_append_right _ List.mem_cons_self

theorem poll (hinv : BusInv filter bus) (hlagged : bus.subscriber.lagged = false)
    {subscriber : Subscriber} (h : bus.subscriber.poll filter bus.sink = some subscriber) :
    BusInv filter { bus with subscriber } := by
  unfold Subscriber.poll at h
  by_cases hlag : bus.sink.capacity < bus.sink.sent.length - bus.subscriber.position
  · rw [if_pos hlag] at h
    obtain rfl := Option.some.inj h
    exact hinv.of_moved (Nat.sub_le _ _) (fun hfalse => by cases hfalse)
  · rw [if_neg hlag] at h
    cases hget : bus.sink.sent[bus.subscriber.position]? with
    | none =>
      rw [hget] at h
      cases h
    | some emitted =>
      rw [hget] at h
      by_cases htake : emitted.event.isMatch filter = true ∧
          bus.subscriber.lastSeen < emitted.cursor
      · simp only [if_pos htake, Option.some.injEq] at h
        obtain rfl := h
        exact hinv.take hlagged hget htake.1 htake.2
      · simp only [if_neg htake, Option.some.injEq] at h
        obtain rfl := h
        obtain ⟨hlen, hgetElem⟩ := List.getElem?_eq_some_iff.mp hget
        have hsent : emitted ∈ bus.sink.sent := hgetElem ▸ List.getElem_mem hlen
        refine hinv.of_moved hlen ?_
        intro _ emitted' hmem hmatch
        rcases mem_take_succ hget hmem with hmem | rfl
        · exact hinv.read hlagged emitted' hmem hmatch
        · have hle : emitted'.cursor ≤ bus.subscriber.lastSeen :=
            le_of_not_gt fun hlt => htake ⟨hmatch, hlt⟩
          exact hinv.received_of_le hsent hmatch hle

theorem mem_catchUp {sink : EventSink} {since : UInt64} {emitted : EmittedEvent} :
    emitted ∈ sink.catchUp since filter ↔
      emitted ∈ sink.history ∧ since < emitted.cursor ∧ emitted.event.isMatch filter = true := by
  unfold EventSink.catchUp
  rw [List.mem_filter, List.mem_filter, decide_eq_true_eq, and_assoc]

theorem catchUp_sorted (hinv : BusInv filter bus) (since : UInt64) (kinds : Finset EventKind) :
    (bus.sink.catchUp since kinds).Pairwise fun a b => a.cursor < b.cursor :=
  (hinv.history_sorted.filter _).filter _

/-- The highest cursor of a `catch_up` is the subscriber's own or that of a recorded event. -/
theorem highest_mem (hinv : BusInv filter bus) {missed : List EmittedEvent}
    (hmissed : ∀ emitted ∈ missed, emitted ∈ bus.recorded) :
    missed.foldl (fun last emitted => max last emitted.cursor) bus.subscriber.lastSeen ∈
      0 :: bus.recorded.map EmittedEvent.cursor := by
  rcases foldl_max_mem missed bus.subscriber.lastSeen with h | ⟨emitted, hmem, h⟩
  · rw [h]
    exact hinv.lastSeen
  · exact List.mem_cons_of_mem _ (List.mem_map.mpr ⟨emitted, hmissed emitted hmem, h⟩)

/-- After a `catch_up` whose gap the ring covers, all that is recorded and matches is received or
overtaken. -/
theorem told_of_gap (hinv : BusInv filter bus)
    (hgap : ∀ emitted ∈ bus.recorded, emitted.event.isMatch filter = true →
      bus.subscriber.lastSeen < emitted.cursor → emitted ∈ bus.sink.history)
    {emitted : EmittedEvent} (hmem : emitted ∈ bus.recorded)
    (hmatch : emitted.event.isMatch filter = true) :
    emitted ∈ bus.subscriber.received ++ bus.sink.catchUp bus.subscriber.lastSeen filter ∨
      Overtaken bus emitted := by
  by_cases hle : emitted.cursor ≤ bus.subscriber.lastSeen
  · rcases hinv.seen emitted hmem hmatch hle with h | h
    · exact .inl (List.mem_append_left _ h)
    · exact .inr h
  · have hlt := lt_of_not_ge hle
    have hring := hgap emitted hmem hmatch hlt
    exact .inl (List.mem_append_right _ (mem_catchUp.mpr ⟨hring, hlt, hmatch⟩))

theorem catchUp (hinv : BusInv filter bus)
    (hgap : ∀ emitted ∈ bus.recorded, emitted.event.isMatch filter = true →
      bus.subscriber.lastSeen < emitted.cursor → emitted ∈ bus.sink.history) :
    BusInv filter { bus with subscriber := bus.subscriber.catchUp filter bus.sink } := by
  have hrecorded {emitted : EmittedEvent}
      (h : emitted ∈ bus.sink.catchUp bus.subscriber.lastSeen filter) : emitted ∈ bus.recorded :=
    hinv.history_recorded (mem_catchUp.mp h).1
  have hhighest := le_foldl_max (bus.sink.catchUp bus.subscriber.lastSeen filter)
    bus.subscriber.lastSeen
  -- the missed events are received, and the cursor moves to the highest of them
  refine hinv.receive (hinv.catchUp_sorted _ _)
    (fun emitted hmem => ⟨hrecorded hmem, (mem_catchUp.mp hmem).2.2⟩)
    (fun emitted hmem => (mem_catchUp.mp hmem).2.1)
    (hinv.highest_mem fun emitted hmem => hrecorded hmem) hhighest.1 hhighest.2 ?_ ?_
    hinv.position_le
  · intro emitted hmem hmatch _ _
    exact hinv.told_of_gap hgap hmem hmatch
  · -- what was sent was not overtaken
    intro _ emitted hmem hmatch
    have hsent := List.mem_of_mem_take hmem
    rcases hinv.told_of_gap hgap (hinv.recorded_of_sent hsent) hmatch with h | ⟨h, -⟩
    · exact h
    · exact absurd h (hinv.not_pushed_of_sent hsent)

/-- Every step in cursor order whose gaps the ring covers keeps the invariant. -/
theorem step (hinv : BusInv filter bus) {action : BusAction}
    (hgap : GapInRing filter bus action) (horder : InCursorOrder bus action)
    (h : busStep filter bus action = some bus') : BusInv filter bus' := by
  cases action with
  | fetchAdd event =>
    obtain rfl := Option.some.inj h
    exact hinv.fetchAdd event
  | append i =>
    obtain ⟨emitted, hi, h⟩ := Option.bind_eq_some_iff.mp h
    obtain rfl := Option.some.inj h
    exact hinv.append hi
  | push i =>
    obtain ⟨emitted, hi, h⟩ := Option.bind_eq_some_iff.mp h
    obtain rfl := Option.some.inj h
    have habove := horder emitted hi
    exact hinv.push hi habove.1 habove.2
  | send i =>
    obtain ⟨emitted, hi, h⟩ := Option.bind_eq_some_iff.mp h
    obtain rfl := Option.some.inj h
    exact hinv.send hi (horder emitted hi)
  | poll =>
    by_cases hlagged : bus.subscriber.lagged = true
    · simp only [busStep, if_pos hlagged] at h
      cases h
    · simp only [busStep, if_neg hlagged] at h
      obtain ⟨subscriber, hpoll, h⟩ := Option.bind_eq_some_iff.mp h
      obtain rfl := Option.some.inj h
      exact hinv.poll (Bool.not_eq_true _ ▸ hlagged) hpoll
  | catchUp =>
    by_cases hlagged : bus.subscriber.lagged = true
    · simp only [busStep, if_pos hlagged] at h
      obtain rfl := Option.some.inj h
      exact hinv.catchUp hgap
    · simp only [busStep, if_neg hlagged] at h
      cases h
  | reconnect =>
    obtain rfl := Option.some.inj h
    exact hinv.of_moved le_rfl (fun hfalse => by cases hfalse)

/-- What the invariant says of a settled bus. -/
theorem nothingMissed (hinv : BusInv filter bus) : NothingMissed filter bus where
  ordered since kinds := hinv.catchUp_sorted since kinds
  exactlyOnce hsettled := by
    have hpublished : bus.publishes.filterMap sentOf = bus.published := by
      unfold Bus.published
      rw [← List.filterMap_eq_map]
      apply List.filterMap_congr
      intro publish hmem
      unfold sentOf
      rw [hsettled.sent publish hmem]
      rfl
    have hperm : bus.sink.sent.Perm bus.published := hpublished ▸ hinv.sent_perm
    refine List.Perm.trans ?_ (hperm.filter _)
    have hnodup := nodup_of_sorted hinv.received_sorted
    rw [List.perm_ext_iff_of_nodup hnodup (hinv.sent_nodup.filter _)]
    intro emitted
    rw [List.mem_filter]
    constructor
    · intro hmem
      obtain ⟨hrecorded, hmatch⟩ := hinv.received_recorded emitted hmem
      rcases hinv.sent_or_pushed hrecorded with hsent | hpushed
      · exact ⟨hsent, hmatch⟩
      · cases hsettled.sent _ hpushed
    · rintro ⟨hsent, hmatch⟩
      have hread := hinv.read hsettled.caughtUp emitted
      rw [hsettled.drained, List.take_length] at hread
      exact hread hsent hmatch

end BusInv

end Step

instance (filter : Finset EventKind) (bus : Bus) :
    ∀ action, Decidable (GapInRing filter bus action)
  | .catchUp => inferInstanceAs (Decidable (∀ _ ∈ _, _ → _ → _))
  | .fetchAdd _ | .append _ | .push _ | .send _ | .poll | .reconnect => isTrue trivial

instance (bus : Bus) : ∀ action, Decidable (InCursorOrder bus action)
  | .push i => inferInstanceAs (Decidable (∀ _ ∈ bus.eventAt .appended i, _ ∧ ∀ _ ∈ _, _ < _))
  | .send i => inferInstanceAs (Decidable (∀ _ ∈ bus.eventAt .pushed i, ∀ _ ∈ _, _ < _))
  | .fetchAdd _ | .append _ | .poll | .catchUp | .reconnect => isTrue trivial

/-- **A subscriber with catch-up misses nothing** in a run in which no publish overtakes another. -/
theorem nothing_missed_of_order (filter : Finset EventKind) (capacity : ℕ+) (historyCapacity : ℕ)
    (persistent : Option SqliteDeltaLog) (bus : Bus)
    (hrun : Run (busStep filter)
      (fun bus action => GapInRing filter bus action ∧ InCursorOrder bus action)
      (.init (.build capacity historyCapacity persistent)) bus) : NothingMissed filter bus := by
  have hinit : BusInv filter (.init (.build capacity historyCapacity persistent)) :=
    .init _ rfl rfl
  have hinv := hrun.invariant (fun hinv hallowed h => hinv.step hallowed.1 hallowed.2 h) hinit
  exact hinv.nothingMissed

/-- Two overlapping publishes in order, then a lag and a catch-up. -/
def orderedActions : List BusAction :=
  [.fetchAdd (.newTip 1 ""), .fetchAdd (.newTip 2 ""), .append 1, .append 0, .push 0, .send 0,
    .push 1, .send 1, .poll, .catchUp, .poll]

theorem nothing_missed_of_order_orderedActions :
    ∃ bus, bus.subscriber.received.length = 2 ∧ NothingMissed Finset.univ bus := by
  have hreplay : (orderedActions.foldlM (guarded (busStep Finset.univ) fun bus action =>
      GapInRing Finset.univ bus action ∧ InCursorOrder bus action)
        (.init (.build 1 4 none))).any fun bus => bus.subscriber.received.length = 2 := by
    decide +kernel
  obtain ⟨bus, hbus, hlength⟩ := (Option.any_eq_true _ _).mp hreplay
  exact ⟨bus, of_decide_eq_true hlength,
    nothing_missed_of_order Finset.univ 1 4 none bus (Run.of_replay hbus)⟩

/-- The second publish overtakes the first on its way into the ring and the channel. -/
def overtakingActions : List BusAction :=
  [.fetchAdd (.newTip 1 ""), .fetchAdd (.newTip 2 ""), .append 0, .append 1, .push 1, .send 1,
    .push 0, .send 0, .poll, .poll]

theorem subscriber_misses_overtaken : ¬ ∀ filter capacity historyCapacity persistent bus,
    Run (busStep filter) (GapInRing filter) (.init (.build capacity historyCapacity persistent)) bus →
      NothingMissed filter bus := by
  intro hall
  have hreplay : (overtakingActions.foldlM (guarded (busStep Finset.univ) (GapInRing Finset.univ))
      (.init (.build 16 4096 none))).any fun bus =>
        ¬ (bus.sink.catchUp 0 Finset.univ).Pairwise fun a b => a.cursor < b.cursor := by
    decide +kernel
  obtain ⟨bus, hbus, hunordered⟩ := (Option.any_eq_true _ _).mp hreplay
  have hmissed := hall Finset.univ 16 4096 none bus (Run.of_replay hbus)
  exact of_decide_eq_true hunordered (hmissed.ordered 0 Finset.univ)

end DigWallet
