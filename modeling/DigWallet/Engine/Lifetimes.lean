import DigWallet.Engine.Events
import DigWallet.Verify.Posting

/-!
# DigWallet.Engine.Lifetimes — one durable log, several processes

Each process opens the log, wires it into a new sink and publishes.  A new sink starts again at
cursor 1 and the log ignores a cursor it holds, so the log keeps every event exactly when at most
one process publishes.
-/

namespace DigWallet

/-- A process: the capacities of its sink and what it publishes. -/
structure Process where
  capacity : ℕ+
  historyCapacity : ℕ
  events : List WalletEvent

/-- Publish one after the other; the emitted events carry the cursors returned. -/
def publishAll : EventSink → List WalletEvent → EventSink × List EmittedEvent
  | sink, [] => (sink, [])
  | sink, event :: events =>
    let published := sink.publish event
    let rest := publishAll published.1 events
    (rest.1, ⟨published.2, event⟩ :: rest.2)

namespace Process

def sink (process : Process) (log : SqliteDeltaLog) : EventSink :=
  .withPersistentLog process.capacity process.historyCapacity log

/-- The log a process leaves, and what it published. -/
def run (process : Process) (log : SqliteDeltaLog) : SqliteDeltaLog × List EmittedEvent :=
  let out := publishAll (process.sink log) process.events
  (out.1.persistent.getD log, out.2)

end Process

def runProcesses : SqliteDeltaLog → List Process → SqliteDeltaLog × List EmittedEvent
  | log, [] => (log, [])
  | log, process :: processes =>
    let out := process.run log
    let rest := runProcesses out.1 processes
    (rest.1, out.2 ++ rest.2)

/-! ## Every append succeeds -/

/-- Each `append` of `publishAll` returns `Ok`. -/
def AppendsSucceed : EventSink → List WalletEvent → Prop
  | _, [] => True
  | sink, event :: events =>
    (∀ log ∈ sink.persistent, ∃ log', log.append (sink.stamp event) = .ok log') ∧
      AppendsSucceed (sink.publish event).1 events

/-- Each `append` of every process returns `Ok`. -/
def AllAppendsSucceed : SqliteDeltaLog → List Process → Prop
  | _, [] => True
  | log, process :: processes =>
    AppendsSucceed (process.sink log) process.events ∧
      AllAppendsSucceed (process.run log).1 processes

/-! ## What is published -/

/-- Events under consecutive cursors. -/
def stamps : UInt64 → List WalletEvent → List EmittedEvent
  | _, [] => []
  | cursor, event :: events => ⟨cursor, event⟩ :: stamps (cursor + 1) events

theorem publishAll_emitted (sink : EventSink) (events : List WalletEvent) :
    (publishAll sink events).2 = stamps sink.nextCursor events := by
  induction events generalizing sink with
  | nil => rfl
  | cons event events ih =>
    have hrest := ih (sink.publish event).1
    show _ :: (publishAll (sink.publish event).1 events).2 = _
    rw [hrest]
    rfl

/-- A process publishes from cursor 1, whatever the log holds. -/
theorem run_emitted (process : Process) (log : SqliteDeltaLog) :
    (process.run log).2 = stamps 1 process.events :=
  publishAll_emitted (process.sink log) process.events

theorem runProcesses_emitted (log : SqliteDeltaLog) (processes : List Process) :
    (runProcesses log processes).2 = processes.flatMap fun process => stamps 1 process.events := by
  induction processes generalizing log with
  | nil => rfl
  | cons process processes ih =>
    have hrest := ih (process.run log).1
    show (process.run log).2 ++ (runProcesses (process.run log).1 processes).2 = _
    rw [run_emitted, hrest, List.flatMap_cons]

/-! ## The log of one process -/

theorem sqlInteger_eq_ok {n m : UInt64} : sqlInteger n = .ok m ↔ n.toNat < 2 ^ 63 ∧ n = m := by
  unfold sqlInteger
  by_cases h : n.toNat < 2 ^ 63
  · rw [if_pos h, Except.ok.injEq]
    exact (and_iff_right h).symm
  · rw [if_neg h]
    constructor
    · intro hok
      cases hok
    · intro hok
      exact absurd hok.1 h

theorem toNat_succ (cursor : UInt64) (h : cursor.toNat < 2 ^ 63) :
    (cursor + 1).toNat = cursor.toNat + 1 := by
  rw [UInt64.toNat_add]
  have hone : (1 : UInt64).toNat = 1 := rfl
  omega

/-- An append above every cursor of the log adds a row at the end. -/
theorem append_above {log log' : SqliteDeltaLog} {emitted : EmittedEvent}
    (habove : ∀ row ∈ log.events.rows, row.1 < emitted.cursor)
    (h : log.append emitted = .ok log') :
    emitted.cursor.toNat < 2 ^ 63 ∧
      log'.events.rows = log.events.rows ++ [(emitted.cursor, emitted.event)] := by
  obtain ⟨cursor, hcursor, h⟩ := bind_eq_ok.mp h
  obtain ⟨hrange, rfl⟩ := sqlInteger_eq_ok.mp hcursor
  obtain rfl := Except.ok.inj h
  have hnew : emitted.cursor ∉ log.events.rows.map Prod.fst := by
    intro hmem
    obtain ⟨row, hrow, heq⟩ := List.mem_map.mp hmem
    exact absurd (habove row hrow) (heq ▸ UInt64.lt_irrefl _)
  exact ⟨hrange, Table.rows_insertNew_of_notMem hnew⟩

/-- The row of an emitted event. -/
def rowOf (emitted : EmittedEvent) : UInt64 × WalletEvent := (emitted.cursor, emitted.event)

theorem stamps_ge {cursor : UInt64} {events : List WalletEvent} (bound : ℕ)
    (hbound : cursor.toNat + events.length ≤ 2 ^ 63) (hle : bound ≤ cursor.toNat) :
    ∀ emitted ∈ stamps cursor events, bound ≤ emitted.cursor.toNat ∧
      emitted.cursor.toNat < 2 ^ 63 := by
  induction events generalizing cursor with
  | nil => simp [stamps]
  | cons event events ih =>
    rw [List.length_cons] at hbound
    have hsucc := toNat_succ cursor (by omega)
    intro emitted hmem
    rcases List.mem_cons.mp hmem with rfl | hmem
    · exact ⟨hle, by show cursor.toNat < _; omega⟩
    · exact ih (by omega) (by omega) emitted hmem

theorem stamps_increasing {cursor : UInt64} {events : List WalletEvent}
    (hbound : cursor.toNat + events.length ≤ 2 ^ 63) :
    (stamps cursor events).Pairwise fun a b => a.cursor < b.cursor := by
  induction events generalizing cursor with
  | nil => exact .nil
  | cons event events ih =>
    rw [List.length_cons] at hbound
    have hsucc := toNat_succ cursor (by omega)
    refine .cons ?_ (ih (by omega))
    intro emitted hmem
    have hge := (stamps_ge (cursor.toNat + 1) (by omega) (by omega) emitted hmem).1
    exact UInt64.lt_iff_toNat_lt.mpr hge

/-- Publishing above every cursor of the log appends what is published, in order. -/
theorem publishAll_log {sink : EventSink} {log : SqliteDeltaLog} {events : List WalletEvent}
    (hlog : sink.persistent = some log)
    (habove : ∀ row ∈ log.events.rows, row.1 < sink.nextCursor)
    (hok : AppendsSucceed sink events) :
    ∃ log', (publishAll sink events).1.persistent = some log' ∧
      log'.events.rows = log.events.rows ++ (stamps sink.nextCursor events).map rowOf ∧
      (events ≠ [] → sink.nextCursor.toNat + events.length ≤ 2 ^ 63) := by
  induction events generalizing sink log with
  | nil => exact ⟨log, hlog, by simp [stamps], fun h => absurd rfl h⟩
  | cons event events ih =>
    obtain ⟨hfirst, hrest⟩ := hok
    obtain ⟨next, hnext⟩ := hfirst log hlog
    obtain ⟨hrange, hrows⟩ := append_above habove hnext
    have hrange : sink.nextCursor.toNat < 2 ^ 63 := hrange
    have hsucc := toNat_succ _ hrange
    have hpersistent : (sink.publish event).1.persistent = some next := by
      have hkept : (sink.publish event).1.persistent =
          (sink.appendDurable (sink.stamp event)).persistent := rfl
      rw [hkept, EventSink.appendDurable, hlog, Option.map_some, hnext]
    have hcursor : (sink.publish event).1.nextCursor = sink.nextCursor + 1 := rfl
    have habove' : ∀ row ∈ next.events.rows, row.1 < (sink.publish event).1.nextCursor := by
      intro row hrow
      rw [hcursor, UInt64.lt_iff_toNat_lt, hsucc]
      rw [hrows] at hrow
      rcases List.mem_append.mp hrow with hrow | hrow
      · have hlt := UInt64.lt_iff_toNat_lt.mp (habove row hrow)
        omega
      · obtain rfl := List.mem_singleton.mp hrow
        exact Nat.lt_succ_self _
    obtain ⟨log', hlog', hrows', hbound⟩ := ih hpersistent habove' hrest
    refine ⟨log', hlog', ?_, ?_⟩
    · rw [hrows', hrows, hcursor, List.append_assoc]
      rfl
    · intro _
      rw [List.length_cons]
      by_cases hevents : events = []
      · rw [hevents, List.length_nil]
        omega
      · have hle := hbound hevents
        rw [hcursor, hsucc] at hle
        omega

/-- A process over an empty log: the log becomes what it published. -/
theorem run_fresh {process : Process} {log : SqliteDeltaLog} (hempty : log.events.rows = [])
    (hok : AppendsSucceed (process.sink log) process.events) :
    (process.run log).1.events.rows = (stamps 1 process.events).map rowOf ∧
      1 + process.events.length ≤ 2 ^ 63 := by
  have habove : ∀ row ∈ log.events.rows, row.1 < (process.sink log).nextCursor := by
    rw [hempty]
    exact fun row hrow => absurd hrow List.not_mem_nil
  obtain ⟨log', hlog', hrows, hbound⟩ :=
    publishAll_log rfl habove hok
  rw [hempty, List.nil_append] at hrows
  refine ⟨?_, ?_⟩
  · show ((publishAll (process.sink log) process.events).1.persistent.getD log).events.rows = _
    rw [hlog', Option.getD_some, hrows]
    rfl
  · by_cases hevents : process.events = []
    · rw [hevents, List.length_nil]
      omega
    · exact hbound hevents

/-! ## Reading the log back -/

theorem insertionSort_rowOf {published : List EmittedEvent}
    (hsorted : published.Pairwise fun a b => a.cursor < b.cursor) :
    (published.map rowOf).insertionSort (fun a b => a.1 ≤ b.1) = published.map rowOf := by
  apply List.Pairwise.insertionSort_eq
  rw [List.pairwise_map]
  exact hsorted.imp fun h => UInt64.le_of_lt h

/-- A log whose rows are `published` reads back what lies above `since` and matches. -/
theorem catchUp_matching {log : SqliteDeltaLog} {published : List EmittedEvent} {since : UInt64}
    (hrows : log.events.rows = published.map rowOf)
    (hsorted : published.Pairwise fun a b => a.cursor < b.cursor)
    (hsince : since.toNat < 2 ^ 63) (filter : Finset EventKind) :
    log.catchUp since filter = .ok ((published.filter fun emitted => since < emitted.cursor).filter
      fun emitted => emitted.event.isMatch filter) := by
  have habove : (log.events.rows.filter fun row => since < row.1) =
      (published.filter fun emitted => since < emitted.cursor).map rowOf := by
    rw [hrows, List.filter_map]
    rfl
  have hread : ((published.filter fun emitted => since < emitted.cursor).map rowOf).map
      (fun row => (⟨row.1, row.2⟩ : EmittedEvent)) =
        published.filter fun emitted => since < emitted.cursor := by
    rw [List.map_map]
    exact List.map_id _
  unfold SqliteDeltaLog.catchUp
  rw [sqlInteger_eq_ok.mpr ⟨hsince, rfl⟩]
  show Except.ok _ = Except.ok _
  rw [habove, insertionSort_rowOf (hsorted.filter _), hread]

theorem catchUp_rows {log : SqliteDeltaLog} {published : List EmittedEvent} {since : UInt64}
    (hrows : log.events.rows = published.map rowOf)
    (hsorted : published.Pairwise fun a b => a.cursor < b.cursor)
    (hsince : since.toNat < 2 ^ 63) :
    log.catchUp since Finset.univ = .ok (published.filter fun emitted => since < emitted.cursor) := by
  rw [catchUp_matching hrows hsorted hsince]
  congr 1
  exact List.filter_eq_self.mpr fun emitted _ => WalletEvent.isMatch_univ emitted.event

/-- The log after all processes keeps every event. -/
structure KeepsEveryEvent (processes : List Process) : Prop where
  complete : (runProcesses .fresh processes).1.catchUp 0 Finset.univ =
    .ok (runProcesses .fresh processes).2
  increasing : (runProcesses .fresh processes).2.Pairwise fun a b => a.cursor < b.cursor
  resumes : ∀ before emitted after,
    (runProcesses .fresh processes).2 = before ++ emitted :: after →
      (runProcesses .fresh processes).1.catchUp emitted.cursor Finset.univ = .ok after

/-- The processes that publish. -/
def publishing (processes : List Process) : List Process :=
  processes.filter fun process => !process.events.isEmpty

theorem publishing_cons_of_quiet {process : Process} {processes : List Process}
    (h : process.events = []) : publishing (process :: processes) = publishing processes := by
  unfold publishing
  rw [List.filter_cons_of_neg]
  rw [h]
  exact Bool.false_ne_true

theorem publishing_cons {process : Process} {processes : List Process}
    (h : process.events ≠ []) :
    publishing (process :: processes) = process :: publishing processes := by
  unfold publishing
  rw [List.filter_cons_of_pos]
  rw [List.isEmpty_eq_false_iff.mpr h, Bool.not_false]

theorem mem_publishing {process : Process} {processes : List Process} :
    process ∈ publishing processes ↔ process ∈ processes ∧ process.events ≠ [] := by
  unfold publishing
  rw [List.mem_filter, Bool.not_eq_true', List.isEmpty_eq_false_iff]

/-- Processes that publish nothing leave the log alone. -/
theorem runProcesses_quiet {processes : List Process}
    (hquiet : ∀ process ∈ processes, process.events = []) (log : SqliteDeltaLog) :
    runProcesses log processes = (log, []) := by
  induction processes generalizing log with
  | nil => rfl
  | cons process processes ih =>
    rw [List.forall_mem_cons] at hquiet
    have hrun : process.run log = (log, []) := by
      unfold Process.run
      rw [hquiet.1]
      rfl
    unfold runProcesses
    simp only [hrun, ih hquiet.2 log, List.nil_append]

/-- Over an empty log a single publishing process leaves exactly what it published. -/
theorem runProcesses_of_sole {log : SqliteDeltaLog} {processes : List Process}
    (hempty : log.events.rows = []) (hok : AllAppendsSucceed log processes)
    (hsole : (publishing processes).length ≤ 1) :
    ∃ events : List WalletEvent, 1 + events.length ≤ 2 ^ 63 ∧
      (runProcesses log processes).2 = stamps 1 events ∧
      (runProcesses log processes).1.events.rows = (stamps 1 events).map rowOf := by
  induction processes generalizing log with
  | nil => exact ⟨[], by rw [List.length_nil]; omega, rfl, hempty⟩
  | cons process processes ih =>
    obtain ⟨hfirst, hrest⟩ := hok
    obtain ⟨hrows, hbound⟩ := run_fresh hempty hfirst
    have hout : (runProcesses log (process :: processes)).2 =
        (process.run log).2 ++ (runProcesses (process.run log).1 processes).2 := rfl
    by_cases hevents : process.events = []
    · rw [hevents] at hrows
      rw [publishing_cons_of_quiet hevents] at hsole
      obtain ⟨events, hle, hemitted, hlog⟩ := ih hrows hrest hsole
      refine ⟨events, hle, ?_, hlog⟩
      rw [hout, run_emitted, hevents, hemitted]
      rfl
    · -- nothing is published after the one process that publishes
      rw [publishing_cons hevents, List.length_cons] at hsole
      have hnone : publishing processes = [] := List.length_eq_zero_iff.mp (by omega)
      have hquiet : ∀ other ∈ processes, other.events = [] := by
        intro other hother
        by_contra hne
        have hmem := mem_publishing.mpr ⟨hother, hne⟩
        rw [hnone] at hmem
        exact List.not_mem_nil hmem
      have hlast := runProcesses_quiet hquiet (process.run log).1
      refine ⟨process.events, hbound, ?_, ?_⟩
      · rw [hout, hlast, run_emitted, List.append_nil]
      · show (runProcesses (process.run log).1 processes).1.events.rows = _
        rw [hlast, hrows]

/-- Two processes that publish both use cursor 1. -/
theorem sole_of_increasing {processes : List Process}
    (h : (processes.flatMap fun process => stamps 1 process.events).Pairwise fun a b =>
      a.cursor < b.cursor) : (publishing processes).length ≤ 1 := by
  have first {process : Process} (hne : process.events ≠ []) :
      ∃ event, ⟨1, event⟩ ∈ stamps 1 process.events := by
    obtain ⟨event, events, hevents⟩ := List.exists_cons_of_ne_nil hne
    rw [hevents]
    exact ⟨event, List.mem_cons_self⟩
  induction processes with
  | nil => exact Nat.zero_le _
  | cons process processes ih =>
    rw [List.flatMap_cons, List.pairwise_append] at h
    obtain ⟨-, hrest, hcross⟩ := h
    by_cases hevents : process.events = []
    · rw [publishing_cons_of_quiet hevents]
      exact ih hrest
    · have hnone : publishing processes = [] := by
        rw [List.eq_nil_iff_forall_not_mem]
        intro other hmem
        obtain ⟨hother, hne⟩ := mem_publishing.mp hmem
        obtain ⟨event, hevent⟩ := first hevents
        obtain ⟨event', hevent'⟩ := first hne
        have hlt := hcross _ hevent _ (List.mem_flatMap.mpr ⟨other, hother, hevent'⟩)
        exact UInt64.lt_irrefl _ hlt
      rw [publishing_cons hevents, hnone]
      exact le_rfl

/-- **Events survive a restart exactly when at most one process publishes.** -/
theorem keepsEveryEvent_iff (processes : List Process)
    (hok : AllAppendsSucceed .fresh processes) :
    KeepsEveryEvent processes ↔ (publishing processes).length ≤ 1 := by
  constructor
  · intro h
    have hincreasing := h.increasing
    rw [runProcesses_emitted] at hincreasing
    exact sole_of_increasing hincreasing
  · intro hsole
    obtain ⟨events, hbound, hemitted, hrows⟩ := runProcesses_of_sole rfl hok hsole
    have hone : (1 : UInt64).toNat = 1 := rfl
    have hsorted : (stamps 1 events).Pairwise _ := stamps_increasing (by omega)
    have hrange : ∀ emitted ∈ stamps 1 events, _ := stamps_ge 1 (by omega) (by omega)
    refine ⟨?_, ?_, ?_⟩
    · have hzero : (0 : UInt64).toNat < 2 ^ 63 := by decide
      rw [catchUp_rows hrows hsorted hzero, hemitted]
      congr 1
      rw [List.filter_eq_self]
      intro emitted hmem
      have hge := (hrange emitted hmem).1
      exact decide_eq_true (UInt64.lt_iff_toNat_lt.mpr hge)
    · rw [hemitted]
      exact hsorted
    · intro before emitted after hsplit
      rw [hemitted] at hsplit
      have hmem : emitted ∈ stamps 1 events := by
        rw [hsplit]
        exact List.mem_append_right _ List.mem_cons_self
      rw [catchUp_rows hrows hsorted (hrange emitted hmem).2, hsplit]
      rw [hsplit, List.pairwise_append] at hsorted
      obtain ⟨-, hafter, hbefore⟩ := hsorted
      rw [List.pairwise_cons] at hafter
      have hdrop : before.filter (fun other => emitted.cursor < other.cursor) = [] := by
        rw [List.filter_eq_nil_iff]
        intro other hother hlt
        have hgt := hbefore other hother emitted List.mem_cons_self
        exact absurd (of_decide_eq_true hlt) (UInt64.lt_asymm hgt)
      have hkeep : after.filter (fun other => emitted.cursor < other.cursor) = after := by
        rw [List.filter_eq_self]
        exact fun other hother => decide_eq_true (hafter.1 other hother)
      rw [List.filter_append, hdrop, List.nil_append, List.filter_cons_of_neg, hkeep]
      rw [decide_eq_true_eq]
      exact UInt64.lt_irrefl _

/-- A process that publishes one tip. -/
def tipProcess (height : UInt32) : Process := ⟨16, 4096, [.newTip height ""]⟩

theorem keepsEveryEvent_iff_tipProcess :
    KeepsEveryEvent [tipProcess 1, ⟨16, 4096, []⟩] := by
  refine (keepsEveryEvent_iff _ ?_).mpr (by decide)
  refine ⟨⟨?_, trivial⟩, trivial, trivial⟩
  rintro log ⟨⟩
  exact ⟨_, rfl⟩

/-- The second process reuses cursor 1 and its event is dropped. -/
theorem restart_loses_events : ¬ ∀ processes, AllAppendsSucceed .fresh processes →
    KeepsEveryEvent processes := by
  intro hall
  have hok : AllAppendsSucceed .fresh [tipProcess 1, tipProcess 2] := by
    refine ⟨⟨?_, trivial⟩, ⟨?_, trivial⟩, trivial⟩
    · rintro log ⟨⟩
      exact ⟨_, rfl⟩
    · rintro log ⟨⟩
      exact ⟨_, rfl⟩
  have hcomplete := (hall _ hok).complete
  exact absurd hcomplete (by decide +kernel)

end DigWallet
