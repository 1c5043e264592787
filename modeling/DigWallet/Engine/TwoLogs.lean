import Mathlib.Data.List.DropRight
import DigWallet.Engine.Lifetimes

/-!
# DigWallet.Engine.TwoLogs — the ring and the durable log

One process publishes into a new log.  `sameView_iff`: the ring is the end of what the durable log
holds, and both answer every catch-up alike, exactly when the ring has room for an event and every
cursor is a signed integer.
-/

namespace DigWallet

/-! ## The ring -/

/-- The ring keeps the last `historyCapacity` events. -/
theorem pushRing_rtake {sink : EventSink} {recorded : List EmittedEvent} {k : ℕ}
    (hcapacity : sink.historyCapacity = k + 1) (hhistory : sink.history = recorded.rtake (k + 1))
    (emitted : EmittedEvent) :
    (sink.pushRing emitted).history = (recorded ++ [emitted]).rtake (k + 1) := by
  rw [List.rtake_concat_succ]
  show (if sink.history.length = sink.historyCapacity then sink.history.tail else sink.history) ++ _ = _
  rw [hcapacity, hhistory]
  unfold List.rtake
  rw [List.length_drop]
  by_cases hfull : recorded.length - (recorded.length - (k + 1)) = k + 1
  · rw [if_pos hfull, List.tail_drop]
    congr 2
    omega
  · rw [if_neg hfull]
    congr 2
    omega

/-- By induction on the events, what was recorded before generalized. -/
theorem publishAll_history {k : ℕ} (events : List WalletEvent) {sink : EventSink}
    {recorded : List EmittedEvent} (hcapacity : sink.historyCapacity = k + 1)
    (hhistory : sink.history = recorded.rtake (k + 1)) :
    (publishAll sink events).1.history =
      (recorded ++ stamps sink.nextCursor events).rtake (k + 1) := by
  induction events generalizing sink recorded with
  | nil =>
    rw [stamps, List.append_nil]
    exact hhistory
  | cons event events ih =>
    have hpushed : (sink.publish event).1.history =
        (recorded ++ [sink.stamp event]).rtake (k + 1) := pushRing_rtake hcapacity hhistory _
    have hcapacity' : (sink.publish event).1.historyCapacity = k + 1 := hcapacity
    have hrest := ih hcapacity' hpushed
    show (publishAll (sink.publish event).1 events).1.history = _
    rw [hrest, List.append_assoc]
    rfl

/-- A push always leaves the event in the ring. -/
theorem publishAll_history_ne_nil {sink : EventSink} {events : List WalletEvent}
    (h : sink.history ≠ [] ∨ events ≠ []) : (publishAll sink events).1.history ≠ [] := by
  induction events generalizing sink with
  | nil => exact h.resolve_right fun hne => hne rfl
  | cons event events ih =>
    refine ih (.inl ?_)
    show (if _ then sink.history.tail else sink.history) ++ [_] ≠ []
    exact List.append_ne_nil_of_right_ne_nil _ (List.cons_ne_nil _ _)

/-! ## The durable log -/

theorem append_eq_ok {log : SqliteDeltaLog} {emitted : EmittedEvent}
    (h : emitted.cursor.toNat < 2 ^ 63) :
    log.append emitted = .ok ⟨log.events.insertNew emitted.cursor emitted.event⟩ := by
  unfold SqliteDeltaLog.append
  rw [sqlInteger_eq_ok.mpr ⟨h, rfl⟩]
  rfl

/-- Appends succeed while the cursors are signed integers. -/
theorem appendsSucceed_of_length {sink : EventSink} {events : List WalletEvent}
    (h : sink.nextCursor.toNat + events.length ≤ 2 ^ 63) : AppendsSucceed sink events := by
  induction events generalizing sink with
  | nil => trivial
  | cons event events ih =>
    rw [List.length_cons] at h
    have hrange : sink.nextCursor.toNat < 2 ^ 63 := by omega
    have hsucc := toNat_succ _ hrange
    have hcursor : (sink.publish event).1.nextCursor = sink.nextCursor + 1 := rfl
    refine ⟨fun log _ => ⟨_, append_eq_ok hrange⟩, ih ?_⟩
    rw [hcursor, hsucc]
    omega

/-- Every cursor of the log is a signed integer. -/
def SqliteDeltaLog.Signed (log : SqliteDeltaLog) : Prop :=
  ∀ row ∈ log.events.rows, row.1.toNat < 2 ^ 63

theorem signed_append {log log' : SqliteDeltaLog} {emitted : EmittedEvent} (hsigned : log.Signed)
    (h : log.append emitted = .ok log') : log'.Signed := by
  obtain ⟨cursor, hcursor, h⟩ := bind_eq_ok.mp h
  obtain ⟨hrange, rfl⟩ := sqlInteger_eq_ok.mp hcursor
  obtain rfl := Except.ok.inj h
  by_cases hmem : emitted.cursor ∈ log.events.rows.map Prod.fst
  · have hkept : log.events.insertNew emitted.cursor emitted.event = log.events := dif_pos hmem
    rw [hkept]
    exact hsigned
  · intro row hrow
    rw [Table.rows_insertNew_of_notMem hmem] at hrow
    rcases List.mem_append.mp hrow with hrow | hrow
    · exact hsigned row hrow
    · obtain rfl := List.mem_singleton.mp hrow
      exact hrange

/-- By induction on the events: an append outside the range changes nothing. -/
theorem publishAll_signed {sink : EventSink} {events : List WalletEvent}
    (h : ∀ log ∈ sink.persistent, log.Signed) :
    ∀ log ∈ (publishAll sink events).1.persistent, log.Signed := by
  induction events generalizing sink with
  | nil => exact h
  | cons event events ih =>
    refine ih fun log' hlog' => ?_
    obtain ⟨log, hlog, rfl⟩ := Option.map_eq_some_iff.mp
      (show (sink.appendDurable (sink.stamp event)).persistent = some log' from hlog')
    have hsigned := h log hlog
    cases happend : log.append (sink.stamp event) with
    | ok next => exact signed_append hsigned happend
    | error e => exact hsigned

theorem mem_rows_of_catchUp {log : SqliteDeltaLog} {since : UInt64} {filter : Finset EventKind}
    {out : List EmittedEvent} (h : log.catchUp since filter = .ok out) :
    since.toNat < 2 ^ 63 ∧ ∀ emitted ∈ out, rowOf emitted ∈ log.events.rows := by
  obtain ⟨since', hsince, h⟩ := bind_eq_ok.mp h
  obtain ⟨hrange, rfl⟩ := sqlInteger_eq_ok.mp hsince
  obtain rfl := Except.ok.inj h
  refine ⟨hrange, fun emitted hmem => ?_⟩
  obtain ⟨row, hrow, rfl⟩ := List.mem_map.mp (List.mem_filter.mp hmem).1
  have hsorted := (List.mem_insertionSort fun a b : UInt64 × WalletEvent => a.1 ≤ b.1).mp hrow
  exact (List.mem_filter.mp hsorted).1

/-- The event at position `i` is stamped `i` above the first cursor. -/
theorem exists_mem_stamps {cursor : UInt64} {events : List WalletEvent} {i : ℕ}
    (h : i < events.length) :
    ∃ emitted ∈ stamps cursor events, emitted.cursor = cursor + UInt64.ofNat i := by
  induction events generalizing cursor i with
  | nil => simp at h
  | cons event events ih =>
    cases i with
    | zero => exact ⟨⟨cursor, event⟩, List.mem_cons_self, (UInt64.add_zero cursor).symm⟩
    | succ i =>
      have hlt : i < events.length := by simpa using h
      obtain ⟨emitted, hmem, hcursor⟩ := @ih (cursor + 1) i hlt
      refine ⟨emitted, List.mem_cons_of_mem _ hmem, ?_⟩
      rw [hcursor, UInt64.add_assoc]
      congr 1
      rw [UInt64.ofNat_add, UInt64.add_comm]
      rfl

/-! ## One view -/

/-- The ring is the end of what was published, and each log answers the catch-up with the matching
events above the cursor: the durable log with all of them, the ring with those it retains. -/
structure SameView (process : Process) (since : UInt64) : Prop where
  window : (publishAll (process.sink .fresh) process.events).1.history =
    (stamps 1 process.events).rtake process.historyCapacity
  agree : ∀ filter, ∃ out, (process.run .fresh).1.catchUp since filter = .ok out ∧
    out = ((stamps 1 process.events).filter fun emitted => since < emitted.cursor).filter
      (fun emitted => emitted.event.isMatch filter) ∧
    (out.Pairwise fun a b => a.cursor < b.cursor) ∧
    (publishAll (process.sink .fresh) process.events).1.catchUp since filter =
      out.filter fun emitted => decide (emitted.cursor ∈
        (publishAll (process.sink .fresh) process.events).1.history.map EmittedEvent.cursor)

section SameView

variable {process : Process} {since : UInt64}

theorem window_of_room (hroom : process.historyCapacity ≠ 0 ∨ process.events = []) :
    (publishAll (process.sink .fresh) process.events).1.history =
      (stamps 1 process.events).rtake process.historyCapacity := by
  by_cases hcapacity : process.historyCapacity = 0
  · rw [hroom.resolve_left fun hne => hne hcapacity]
    exact (List.rtake_nil _).symm
  · obtain ⟨k, hk⟩ := Nat.exists_eq_succ_of_ne_zero hcapacity
    rw [hk]
    have hempty : (process.sink .fresh).history = ([] : List EmittedEvent).rtake (k + 1) :=
      (List.rtake_nil _).symm
    exact publishAll_history process.events hk hempty

/-- The ring's catch-up is the whole catch-up, cut to the retained cursors. -/
theorem catchUp_window {published ring : List EmittedEvent}
    (hsorted : published.Pairwise fun a b => a.cursor < b.cursor) (hring : ring <:+ published)
    (filter : Finset EventKind) :
    (ring.filter fun emitted => since < emitted.cursor).filter
        (fun emitted => emitted.event.isMatch filter) =
      ((published.filter fun emitted => since < emitted.cursor).filter
        fun emitted => emitted.event.isMatch filter).filter
          fun emitted => decide (emitted.cursor ∈ ring.map EmittedEvent.cursor) := by
  obtain ⟨evicted, rfl⟩ := hring
  obtain ⟨-, -, hbefore⟩ := List.pairwise_append.mp hsorted
  have hevicted : evicted.filter (fun emitted =>
      decide (emitted.cursor ∈ ring.map EmittedEvent.cursor)) = [] := by
    rw [List.filter_eq_nil_iff]
    intro emitted hemitted hmem
    obtain ⟨kept, hkept, heq⟩ := List.mem_map.mp (of_decide_eq_true hmem)
    exact absurd (hbefore emitted hemitted kept hkept) (heq ▸ UInt64.lt_irrefl _)
  have hretained : ring.filter (fun emitted =>
      decide (emitted.cursor ∈ ring.map EmittedEvent.cursor)) = ring := by
    rw [List.filter_eq_self]
    exact fun emitted hemitted => decide_eq_true (List.mem_map_of_mem hemitted)
  have hcut : (evicted ++ ring).filter (fun emitted =>
      decide (emitted.cursor ∈ ring.map EmittedEvent.cursor)) = ring := by
    rw [List.filter_append, hevicted, hretained, List.nil_append]
  conv_lhs => rw [← hcut]
  simp only [List.filter_filter]
  congr 1
  funext emitted
  rw [Bool.and_comm, Bool.and_assoc, Bool.and_left_comm, Bool.and_comm (decide (since < _))]

theorem sameView_of_signed (hroom : process.historyCapacity ≠ 0 ∨ process.events = [])
    (hsince : since.toNat < 2 ^ 63) (hcount : process.events.length < 2 ^ 63) :
    SameView process since := by
  have hone : (1 : UInt64).toNat = 1 := rfl
  have hstart : (process.sink .fresh).nextCursor = 1 := rfl
  have happends : AppendsSucceed (process.sink .fresh) process.events :=
    appendsSucceed_of_length (by rw [hstart]; omega)
  have hrows := (run_fresh rfl happends).1
  have hsorted : (stamps 1 process.events).Pairwise _ := stamps_increasing (by omega)
  have hwindow := window_of_room hroom
  refine ⟨hwindow, fun filter => ⟨_, catchUp_matching hrows hsorted hsince filter, rfl, ?_, ?_⟩⟩
  · exact (hsorted.filter _).filter _
  · unfold EventSink.catchUp
    refine catchUp_window hsorted ?_ filter
    rw [hwindow]
    exact List.drop_suffix _ _

theorem fresh_signed : SqliteDeltaLog.fresh.Signed := by
  intro row hrow
  exact absurd hrow List.not_mem_nil

/-- A run into a new log leaves signed cursors only. -/
theorem run_signed : (process.run .fresh).1.Signed := by
  have hwired : ∀ log ∈ (process.sink .fresh).persistent, log.Signed := by
    intro log hlog
    obtain rfl := Option.some.inj (show some SqliteDeltaLog.fresh = some log from hlog)
    exact fresh_signed
  have hsigned := @publishAll_signed _ process.events hwired
  show ((publishAll (process.sink .fresh) process.events).1.persistent.getD .fresh).Signed
  rcases hlast : (publishAll (process.sink .fresh) process.events).1.persistent with _ | log
  · exact fresh_signed
  · exact hsigned log hlast

theorem signed_of_sameView (h : SameView process since) :
    (process.historyCapacity ≠ 0 ∨ process.events = []) ∧ since.toNat < 2 ^ 63 ∧
      process.events.length < 2 ^ 63 := by
  obtain ⟨out, hout, hexact, -, -⟩ := h.agree Finset.univ
  obtain ⟨hsince, hrows⟩ := mem_rows_of_catchUp hout
  refine ⟨?_, hsince, ?_⟩
  · by_contra hnot
    obtain ⟨hzero, hevents⟩ := not_or.mp hnot
    refine @publishAll_history_ne_nil (process.sink .fresh) process.events (.inr hevents) ?_
    rw [h.window, not_not.mp hzero]
    exact List.rtake_zero _
  · by_contra hlong
    -- the event stamped `2 ^ 63` is missing from the log
    obtain ⟨emitted, hmem, hcursor⟩ :=
      @exists_mem_stamps 1 process.events (2 ^ 63 - 1) (by omega)
    have hvalue : emitted.cursor.toNat = 2 ^ 63 := by rw [hcursor]; rfl
    have hfound : emitted ∈ out := by
      rw [hexact]
      refine List.mem_filter.mpr ⟨List.mem_filter.mpr ⟨hmem, ?_⟩, WalletEvent.isMatch_univ _⟩
      exact decide_eq_true (UInt64.lt_iff_toNat_lt.mpr (by omega))
    have hrange := run_signed _ (hrows emitted hfound)
    rw [rowOf, hvalue] at hrange
    exact Nat.lt_irrefl _ hrange

/-- `EventSink` and `SqliteDeltaLog`: one view exactly when the ring has room for an event and the
cursors, `since` among them, are signed integers. -/
theorem sameView_iff (process : Process) (since : UInt64) :
    SameView process since ↔
      (process.historyCapacity ≠ 0 ∨ process.events = []) ∧ since.toNat < 2 ^ 63 ∧
        process.events.length < 2 ^ 63 := by
  constructor
  · exact signed_of_sameView
  · rintro ⟨hroom, hsince, hcount⟩
    exact sameView_of_signed hroom hsince hcount

/-- A ring of capacity 0 keeps the one event; the durable log refuses the cursor `u64::MAX`. -/
theorem not_sameView :
    ¬ SameView ⟨16, 0, [.newTip 7 ""]⟩ 0 ∧ ¬ SameView ⟨16, 4096, []⟩ 0xFFFFFFFFFFFFFFFF := by
  constructor
  · intro h
    have hwindow := h.window
    revert hwindow
    decide
  · intro h
    obtain ⟨out, hout, -⟩ := h.agree ∅
    have hrefused : SqliteDeltaLog.fresh.catchUp 0xFFFFFFFFFFFFFFFF ∅ =
        .error (storageErr "number too large to fit in target type") := rfl
    exact nomatch hrefused.symm.trans hout

end SameView

end DigWallet
