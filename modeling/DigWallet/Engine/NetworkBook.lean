import Mathlib.Data.List.Nodup
import DigWallet.Engine.Records
import DigWallet.Lib.Runs

/-!
# DigWallet.Engine.NetworkBook — the peer book under concurrent calls

`engine::actions::NetworkBook`: the peers, the preferred peer and the network, each behind a lock of
its own.  A run interleaves the lock-delimited steps of any number of calls.  The preference stays a
known peer in every run in which `target_peer` finds its peer still there when it writes.
-/

namespace DigWallet

/-! ## The book -/

/-- `std::net::SocketAddr`. -/
inductive SocketAddr
  | v4 (ip : BitVec 32) (port : UInt16)
  | v6 (ip : BitVec 128) (port : UInt16) (flowinfo scopeId : UInt32)
deriving DecidableEq

def SocketAddr.isIpv6 : SocketAddr → Bool
  | v4 .. => false
  | v6 .. => true

def orderDialCandidates (candidates : List SocketAddr) (ipv6First : Bool) : List SocketAddr :=
  if !ipv6First then candidates
  else
    let split := candidates.partition SocketAddr.isIpv6
    split.1 ++ split.2

theorem orderDialCandidates_perm (candidates : List SocketAddr) (ipv6First : Bool) :
    (orderDialCandidates candidates ipv6First).Perm candidates := by
  unfold orderDialCandidates
  cases ipv6First with
  | false => exact .refl _
  | true =>
    show (_ ++ _ : List SocketAddr).Perm _
    rw [List.partition_eq_filter_filter]
    exact List.filter_append_perm SocketAddr.isIpv6 candidates

structure PeerEntry where
  address : SocketAddr
deriving DecidableEq

/-- What the three locks guard. -/
structure NetworkBook where
  peersLock : List PeerEntry
  targetLock : Option SocketAddr
  networkLock : Network
deriving DecidableEq

namespace NetworkBook

variable (book : NetworkBook) (address : SocketAddr)

def new (network : Network) : NetworkBook := ⟨[], none, network⟩

def knows : Bool := book.peersLock.any fun peer => peer.address = address

def addPeer : NetworkBook :=
  if book.knows address then book else { book with peersLock := book.peersLock ++ [⟨address⟩] }

/-- `remove_peer` up to the target lock; whether the peer was known. -/
def retainOthers : NetworkBook × Bool :=
  let kept := book.peersLock.filter fun peer => peer.address ≠ address
  ({ book with peersLock := kept }, book.peersLock.length ≠ kept.length)

/-- The rest of `remove_peer`, under both locks. -/
def clearTarget : NetworkBook :=
  if book.targetLock = some address then { book with targetLock := none } else book

def peers : List PeerEntry :=
  (orderDialCandidates (book.peersLock.map PeerEntry.address) true).map PeerEntry.mk

def target : Option SocketAddr := book.targetLock

end NetworkBook

/-! ## Calls and their steps -/

inductive BookCall
  | addPeer (address : SocketAddr)
  | removePeer (address : SocketAddr)
  | targetPeer (address : SocketAddr)
  | setNetwork (network : Network)
deriving DecidableEq

/-- The last step a call has taken. -/
inductive BookStage
  | begun
  /-- `remove_peer` has forgotten the peer and still holds the peer lock. -/
  | retained
  /-- `target_peer` has found the peer and released the peer lock. -/
  | found
  /-- `set_network` has written the network. -/
  | switched
  /-- `set_network` has emptied the peers. -/
  | cleared
  | returned (answer : Option Bool)
deriving DecidableEq

structure BookThread where
  call : BookCall
  stage : BookStage
deriving DecidableEq

/-- The next critical section of a call; `none` while it waits for the peer lock, or is over. -/
def BookThread.next (thread : BookThread) (peersHeld : Bool) (book : NetworkBook) :
    Option (NetworkBook × BookStage) :=
  match thread.call, thread.stage with
  | .addPeer address, .begun =>
    if peersHeld then none else some (book.addPeer address, .returned none)
  | .removePeer address, .begun =>
    if peersHeld then none
    else
      let out := book.retainOthers address
      some (out.1, if out.2 then .retained else .returned (some false))
  | .removePeer address, .retained => some (book.clearTarget address, .returned (some true))
  | .targetPeer address, .begun =>
    if peersHeld then none
    else some (book, if book.knows address then .found else .returned (some false))
  | .targetPeer address, .found =>
    some ({ book with targetLock := some address }, .returned (some true))
  | .setNetwork network, .begun => some ({ book with networkLock := network }, .switched)
  | .setNetwork _, .switched =>
    if peersHeld then none else some ({ book with peersLock := [] }, .cleared)
  | .setNetwork _, .cleared => some ({ book with targetLock := none }, .returned none)
  | _, _ => none

/-- The book and every call ever made on it. -/
structure BookRun where
  book : NetworkBook
  threads : List BookThread
deriving DecidableEq

inductive BookAction
  | invoke (call : BookCall)
  | advance (i : ℕ)
deriving DecidableEq

namespace BookRun

variable (run : BookRun)

def new (network : Network) : BookRun := ⟨.new network, []⟩

/-- A `remove_peer` holds the peer lock. -/
def peersHeld : Bool := run.threads.any fun thread => thread.stage = .retained

def step : BookAction → Option BookRun
  | .invoke call => some { run with threads := run.threads ++ [⟨call, .begun⟩] }
  | .advance i => do
    let thread ← run.threads[i]?
    let out ← thread.next run.peersHeld run.book
    some ⟨out.1, run.threads.set i ⟨thread.call, out.2⟩⟩

end BookRun

def BookThread.isOver (thread : BookThread) : Bool :=
  match thread.stage with
  | .returned _ => true
  | _ => false

/-- No call is in progress. -/
def BookRun.Idle (run : BookRun) : Prop := ∀ thread ∈ run.threads, thread.isOver = true

instance (run : BookRun) : Decidable run.Idle := inferInstanceAs (Decidable (∀ thread ∈ _, _))

/-! ## The condition -/

/-- A call under way that will register the address, or will clear or replace the preference. -/
def BookThread.settles (address : SocketAddr) (thread : BookThread) : Bool :=
  match thread.call, thread.stage with
  | .addPeer added, .begun => added = address
  | .removePeer removed, .retained => removed = address
  | .targetPeer _, .found => true
  | .setNetwork _, .begun | .setNetwork _, .switched | .setNetwork _, .cleared => true
  | _, _ => false

/-- The address thread `i` is about to write as the preference. -/
def BookRun.writing (run : BookRun) (i : ℕ) : Option SocketAddr :=
  run.threads[i]?.bind fun thread =>
    match thread.call, thread.stage with
    | .targetPeer address, .found => some address
    | _, _ => none

/-- Where `target_peer` writes, its peer is still in the book, or another call under way settles
what the preference will be. -/
def StillKnown (run : BookRun) : BookAction → Prop
  | .invoke _ => True
  | .advance i => ∀ address ∈ run.writing i,
      run.book.knows address = true ∨ ∃ other ∈ run.threads.eraseIdx i, other.settles address = true

instance (run : BookRun) : DecidablePred (StillKnown run)
  | .invoke _ => inferInstanceAs (Decidable True)
  | .advance i => inferInstanceAs (Decidable (∀ address ∈ run.writing i, _))

/-! ## What a step does to the book -/

section Book

variable {book : NetworkBook} {address : SocketAddr}

theorem knows_iff : book.knows address = true ↔ (⟨address⟩ : PeerEntry) ∈ book.peersLock := by
  unfold NetworkBook.knows
  rw [List.any_eq_true]
  constructor
  · rintro ⟨peer, hpeer, haddress⟩
    obtain rfl := of_decide_eq_true haddress
    exact hpeer
  · intro hmem
    exact ⟨⟨address⟩, hmem, decide_eq_true rfl⟩

theorem mem_peers : (⟨address⟩ : PeerEntry) ∈ book.peers ↔ book.knows address = true := by
  unfold NetworkBook.peers
  rw [knows_iff, List.mem_map]
  constructor
  · rintro ⟨found, hfound, hentry⟩
    obtain rfl := PeerEntry.mk.inj hentry
    obtain ⟨peer, hpeer, rfl⟩ :=
      List.mem_map.mp ((orderDialCandidates_perm _ true).mem_iff.mp hfound)
    exact hpeer
  · intro hmem
    exact ⟨address, (orderDialCandidates_perm _ true).mem_iff.mpr (List.mem_map_of_mem hmem), rfl⟩

theorem nodup_peers (h : book.peersLock.Nodup) : book.peers.Nodup := by
  have haddress : Function.Injective PeerEntry.address := by
    rintro ⟨a⟩ ⟨b⟩ rfl
    rfl
  have hentry : Function.Injective PeerEntry.mk := fun a b hab => (PeerEntry.mk.inj hab)
  unfold NetworkBook.peers
  refine List.Nodup.map hentry ?_
  exact (orderDialCandidates_perm _ true).nodup_iff.mpr (h.map haddress)

theorem knows_addPeer {added : SocketAddr} :
    (book.addPeer added).knows address = true ↔ book.knows address = true ∨ added = address := by
  unfold NetworkBook.addPeer
  by_cases hknown : book.knows added = true
  · rw [if_pos hknown]
    constructor
    · exact .inl
    · rintro (h | rfl)
      · exact h
      · exact hknown
  · rw [if_neg hknown, knows_iff, knows_iff, List.mem_append, List.mem_singleton]
    constructor
    · rintro (h | h)
      · exact .inl h
      · exact .inr (PeerEntry.mk.inj h).symm
    · rintro (h | rfl)
      · exact .inl h
      · exact .inr rfl

theorem nodup_addPeer (h : book.peersLock.Nodup) (added : SocketAddr) :
    (book.addPeer added).peersLock.Nodup := by
  unfold NetworkBook.addPeer
  by_cases hknown : book.knows added = true
  · rwa [if_pos hknown]
  · rw [if_neg hknown]
    refine List.nodup_append.mpr ⟨h, List.nodup_singleton _, ?_⟩
    rintro peer hpeer other hother rfl
    obtain rfl := List.mem_singleton.mp hother
    exact hknown (knows_iff.mpr hpeer)

theorem knows_retainOthers {removed : SocketAddr} :
    (book.retainOthers removed).1.knows address = true ↔
      book.knows address = true ∧ address ≠ removed := by
  rw [knows_iff, knows_iff]
  show _ ∈ List.filter _ _ ↔ _
  rw [List.mem_filter, decide_eq_true_eq]

/-- `remove_peer` reports a peer it knew. -/
theorem retainOthers_reports (h : book.knows address = true) :
    (book.retainOthers address).2 = true := by
  have hlt : (book.peersLock.filter fun peer => peer.address ≠ address).length <
      book.peersLock.length := by
    refine List.length_filter_lt_length_iff_exists.mpr ⟨⟨address⟩, knows_iff.mp h, ?_⟩
    simp
  exact decide_eq_true (Nat.ne_of_gt hlt)

end Book

/-! ## The invariant -/

section Invariant

variable {run run' : BookRun}

/-- No peer is listed twice, and the preference is a known peer unless a call under way settles
it. -/
structure BookInv (run : BookRun) : Prop where
  nodup : run.book.peersLock.Nodup
  known : ∀ address, run.book.targetLock = some address → run.book.knows address = true ∨
    ∃ thread ∈ run.threads, thread.settles address = true

theorem bookInv_new (network : Network) : BookInv (.new network) where
  nodup := List.nodup_nil
  known address h := by cases h

theorem step_advance {i : ℕ} (h : run.step (.advance i) = some run') :
    ∃ thread out, run.threads[i]? = some thread ∧
      thread.next run.peersHeld run.book = some out ∧
      run' = ⟨out.1, run.threads.set i ⟨thread.call, out.2⟩⟩ := by
  obtain ⟨thread, hthread, h⟩ := Option.bind_eq_some_iff.mp h
  obtain ⟨out, hout, h⟩ := Option.bind_eq_some_iff.mp h
  exact ⟨thread, out, hthread, hout, (Option.some.inj h).symm⟩

/-- What the threads will settle, after thread `i` took a step: what the others settle, and what it
settles now. -/
theorem settles_set {threads : List BookThread} {i : ℕ} {thread : BookThread}
    {address : SocketAddr} (moved : BookThread) (hthread : threads[i]? = some thread)
    (h : ∃ t ∈ threads, t.settles address = true) :
    thread.settles address = true ∨ ∃ t ∈ threads.set i moved, t.settles address = true := by
  obtain ⟨t, ht, hsettles⟩ := h
  obtain ⟨j, hj⟩ := List.getElem?_of_mem ht
  by_cases hij : i = j
  · subst hij
    obtain rfl := Option.some.inj (hthread.symm.trans hj)
    exact .inl hsettles
  · refine .inr ⟨t, List.mem_of_getElem? (i := j) ?_, hsettles⟩
    rwa [List.getElem?_set_ne hij]

theorem settles_self {threads : List BookThread} {i : ℕ} {thread moved : BookThread}
    {address : SocketAddr} (hthread : threads[i]? = some thread)
    (h : moved.settles address = true) : ∃ t ∈ threads.set i moved, t.settles address = true := by
  obtain ⟨hi, -⟩ := List.getElem?_eq_some_iff.mp hthread
  exact ⟨moved, List.mem_of_getElem? (i := i) (List.getElem?_set_self hi), h⟩

/-- A step of a call that keeps the preference, and keeps what is known and settled of it. -/
theorem known_of_next {i : ℕ} {thread : BookThread} {book' : NetworkBook} {stage' : BookStage}
    (h : BookInv run) (hthread : run.threads[i]? = some thread)
    (htarget : book'.targetLock = run.book.targetLock)
    (hknows : ∀ address, run.book.knows address = true →
      book'.knows address = true ∨ (⟨thread.call, stage'⟩ : BookThread).settles address = true)
    (hsettles : ∀ address, thread.settles address = true →
      book'.knows address = true ∨ (⟨thread.call, stage'⟩ : BookThread).settles address = true) :
    ∀ address, book'.targetLock = some address → book'.knows address = true ∨
      ∃ t ∈ run.threads.set i ⟨thread.call, stage'⟩, t.settles address = true := by
  intro address haddress
  rw [htarget] at haddress
  have hkept : thread.settles address = true ∨ run.book.knows address = true → _ := fun hor =>
    (hor.elim (hsettles address) (hknows address)).imp_right (settles_self hthread)
  rcases h.known address haddress with hknown | hsettled
  · exact hkept (.inr hknown)
  · rcases settles_set ⟨thread.call, stage'⟩ hthread hsettled with hself | hother
    · exact hkept (.inl hself)
    · exact .inr hother

/-- What a step that needs the peer lock does when it gets it. -/
theorem of_unlocked {held : Bool} {out out' : NetworkBook × BookStage}
    (h : (if held then none else some out) = some out') : out = out' := by
  cases held with
  | false => exact Option.some.inj h
  | true => cases h

theorem bookInv_addPeer {i : ℕ} {added : SocketAddr} {out : NetworkBook × BookStage}
    (h : BookInv run) (hthread : run.threads[i]? = some ⟨.addPeer added, .begun⟩)
    (hout : (⟨.addPeer added, .begun⟩ : BookThread).next run.peersHeld run.book = some out) :
    BookInv ⟨out.1, run.threads.set i ⟨.addPeer added, out.2⟩⟩ := by
  obtain rfl := of_unlocked hout
  refine ⟨nodup_addPeer h.nodup added, known_of_next h hthread ?_ ?_ ?_⟩
  · unfold NetworkBook.addPeer
    by_cases hknown : run.book.knows added = true
    · rw [if_pos hknown]
    · rw [if_neg hknown]
  · intro address hknows
    exact .inl (knows_addPeer.mpr (.inl hknows))
  · intro address hsettles
    exact .inl (knows_addPeer.mpr (.inr (of_decide_eq_true hsettles)))

theorem bookInv_retain {i : ℕ} {removed : SocketAddr} {out : NetworkBook × BookStage}
    (h : BookInv run) (hthread : run.threads[i]? = some ⟨.removePeer removed, .begun⟩)
    (hout : (⟨.removePeer removed, .begun⟩ : BookThread).next run.peersHeld run.book = some out) :
    BookInv ⟨out.1, run.threads.set i ⟨.removePeer removed, out.2⟩⟩ := by
  obtain rfl := of_unlocked hout
  refine ⟨h.nodup.filter _, known_of_next h hthread rfl ?_ ?_⟩
  · intro address hknows
    by_cases hsame : removed = address
    · subst hsame
      right
      rw [retainOthers_reports hknows]
      exact decide_eq_true rfl
    · exact .inl (knows_retainOthers.mpr ⟨hknows, Ne.symm hsame⟩)
  · intro address hsettles
    cases hsettles

theorem bookInv_clearTarget {i : ℕ} {removed : SocketAddr} {out : NetworkBook × BookStage}
    (h : BookInv run) (hthread : run.threads[i]? = some ⟨.removePeer removed, .retained⟩)
    (hout : (⟨.removePeer removed, .retained⟩ : BookThread).next run.peersHeld run.book =
      some out) :
    BookInv ⟨out.1, run.threads.set i ⟨.removePeer removed, out.2⟩⟩ := by
  obtain rfl := Option.some.inj hout
  show BookInv ⟨run.book.clearTarget removed, _⟩
  unfold NetworkBook.clearTarget
  by_cases htarget : run.book.targetLock = some removed
  · rw [if_pos htarget]
    refine ⟨h.nodup, ?_⟩
    intro address haddress
    cases haddress
  · rw [if_neg htarget]
    refine ⟨h.nodup, ?_⟩
    intro address haddress
    rcases h.known address haddress with hknown | hsettled
    · exact .inl hknown
    · rcases settles_set ⟨.removePeer removed, .returned (some true)⟩ hthread hsettled with
        hself | hother
      · obtain rfl : removed = address := of_decide_eq_true hself
        exact absurd haddress htarget
      · exact .inr hother

theorem bookInv_find {i : ℕ} {sought : SocketAddr} {out : NetworkBook × BookStage}
    (h : BookInv run) (hthread : run.threads[i]? = some ⟨.targetPeer sought, .begun⟩)
    (hout : (⟨.targetPeer sought, .begun⟩ : BookThread).next run.peersHeld run.book = some out) :
    BookInv ⟨out.1, run.threads.set i ⟨.targetPeer sought, out.2⟩⟩ := by
  obtain rfl := of_unlocked hout
  refine ⟨h.nodup, known_of_next h hthread rfl ?_ ?_⟩
  · exact fun address hknows => .inl hknows
  · intro address hsettles
    cases hsettles

/-- The write of a preference, where the condition is needed. -/
theorem bookInv_prefer {i : ℕ} {sought : SocketAddr} {out : NetworkBook × BookStage}
    (h : BookInv run) (hthread : run.threads[i]? = some ⟨.targetPeer sought, .found⟩)
    (hstill : StillKnown run (.advance i))
    (hout : (⟨.targetPeer sought, .found⟩ : BookThread).next run.peersHeld run.book = some out) :
    BookInv ⟨out.1, run.threads.set i ⟨.targetPeer sought, out.2⟩⟩ := by
  obtain rfl := Option.some.inj hout
  have hwriting : run.writing i = some sought := by
    unfold BookRun.writing
    rw [hthread]
    rfl
  refine ⟨h.nodup, ?_⟩
  intro address haddress
  obtain rfl : sought = address := Option.some.inj haddress
  rcases hstill sought hwriting with hknown | ⟨other, hother, hsettles⟩
  · exact .inl hknown
  · obtain ⟨j, hji, hj⟩ := List.mem_eraseIdx_iff_getElem?.mp hother
    refine .inr ⟨other, List.mem_of_getElem? (i := j) ?_, hsettles⟩
    rwa [List.getElem?_set_ne (Ne.symm hji)]

theorem bookInv_setNetwork {i : ℕ} {network : Network} {stage : BookStage}
    {out : NetworkBook × BookStage} (h : BookInv run)
    (hthread : run.threads[i]? = some ⟨.setNetwork network, stage⟩)
    (hout : (⟨.setNetwork network, stage⟩ : BookThread).next run.peersHeld run.book = some out) :
    BookInv ⟨out.1, run.threads.set i ⟨.setNetwork network, out.2⟩⟩ := by
  cases stage with
  | begun =>
    obtain rfl := Option.some.inj hout
    exact ⟨h.nodup, known_of_next h hthread rfl (fun _ _ => .inr rfl) fun _ _ => .inr rfl⟩
  | switched =>
    obtain rfl := of_unlocked hout
    exact ⟨List.nodup_nil, known_of_next h hthread rfl (fun _ _ => .inr rfl) fun _ _ => .inr rfl⟩
  | cleared =>
    obtain rfl := Option.some.inj hout
    refine ⟨h.nodup, ?_⟩
    intro address haddress
    cases haddress
  | retained | found | returned => cases hout

theorem bookInv_step {action : BookAction} (h : BookInv run) (hstill : StillKnown run action)
    (hstep : run.step action = some run') : BookInv run' := by
  cases action with
  | invoke call =>
    obtain rfl := Option.some.inj hstep
    refine ⟨h.nodup, ?_⟩
    intro address haddress
    rcases h.known address haddress with hknown | ⟨thread, hthread, hsettles⟩
    · exact .inl hknown
    · exact .inr ⟨thread, List.mem_append_left _ hthread, hsettles⟩
  | advance i =>
    obtain ⟨⟨call, stage⟩, out, hthread, hout, rfl⟩ := step_advance hstep
    cases call with
    | addPeer added =>
      cases stage with
      | begun => exact bookInv_addPeer h hthread hout
      | retained | found | switched | cleared | returned => cases hout
    | removePeer removed =>
      cases stage with
      | begun => exact bookInv_retain h hthread hout
      | retained => exact bookInv_clearTarget h hthread hout
      | found | switched | cleared | returned => cases hout
    | targetPeer sought =>
      cases stage with
      | begun => exact bookInv_find h hthread hout
      | found => exact bookInv_prefer h hthread hstill hout
      | retained | switched | cleared | returned => cases hout
    | setNetwork network => exact bookInv_setNetwork h hthread hout

/-! ### A network switch on its own -/

/-- What an un-overlapped `set_network` has done by each of its steps. -/
def SwitchedAlone (old : List BookThread) (network : Network) (run : BookRun) : Prop :=
  ∃ stage, run.threads = old ++ [⟨.setNetwork network, stage⟩] ∧
    (stage = .cleared → run.book.peersLock = []) ∧
    ∀ answer, stage = .returned answer → run.book.peersLock = [] ∧ run.book.targetLock = none

theorem next_of_isOver {thread : BookThread} (h : thread.isOver = true) (held : Bool)
    (book : NetworkBook) : thread.next held book = none := by
  obtain ⟨call, stage⟩ := thread
  cases stage with
  | returned answer => cases call <;> rfl
  | begun | retained | found | switched | cleared => cases h

theorem switchedAlone_advance {old : List BookThread} {network : Network} {i : ℕ}
    (hold : ∀ thread ∈ old, thread.isOver = true) (h : SwitchedAlone old network run)
    (hstep : run.step (.advance i) = some run') : SwitchedAlone old network run' := by
  obtain ⟨stage, hthreads, hcleared, hreturned⟩ := h
  obtain ⟨thread, out, hthread, hout, rfl⟩ := step_advance hstep
  rw [hthreads] at hthread
  have hlast : i = old.length ∧ thread = ⟨.setNetwork network, stage⟩ := by
    by_cases hi : i < old.length
    · rw [List.getElem?_append_left hi] at hthread
      have hover := hold thread (List.mem_of_getElem? hthread)
      rw [next_of_isOver hover] at hout
      cases hout
    · rw [List.getElem?_append_right (Nat.le_of_not_lt hi)] at hthread
      have hi' : i - old.length = 0 := by
        obtain ⟨hlt, -⟩ := List.getElem?_eq_some_iff.mp hthread
        rw [List.length_singleton] at hlt
        omega
      rw [hi'] at hthread
      exact ⟨by omega, (Option.some.inj hthread).symm⟩
  obtain ⟨rfl, rfl⟩ := hlast
  have hset : run.threads.set old.length ⟨.setNetwork network, out.2⟩ =
      old ++ [⟨.setNetwork network, out.2⟩] := by
    rw [hthreads, List.set_append_right _ _ (Nat.le_refl _), Nat.sub_self]
    rfl
  refine ⟨out.2, hset, ?_⟩
  cases stage with
  | begun =>
    obtain rfl := Option.some.inj hout
    exact ⟨fun h => (BookStage.noConfusion h), fun _ h => (BookStage.noConfusion h)⟩
  | switched =>
    obtain rfl := of_unlocked hout
    exact ⟨fun _ => rfl, fun _ h => (BookStage.noConfusion h)⟩
  | cleared =>
    obtain rfl := Option.some.inj hout
    exact ⟨fun h => (BookStage.noConfusion h), fun _ _ => ⟨hcleared rfl, rfl⟩⟩
  | retained | found | returned => cases hout

theorem switchedAlone_run {old : List BookThread} {network : Network} {actions : List BookAction}
    (hold : ∀ thread ∈ old, thread.isOver = true) (h : SwitchedAlone old network run)
    (hactions : ∀ action ∈ actions, ∃ i, action = .advance i)
    (hrun : actions.foldlM BookRun.step run = some run') : SwitchedAlone old network run' := by
  induction actions generalizing run with
  | nil =>
    obtain rfl := Option.some.inj hrun
    exact h
  | cons action actions ih =>
    rw [List.foldlM_cons] at hrun
    obtain ⟨next, hnext, hrest⟩ := Option.bind_eq_some_iff.mp hrun
    obtain ⟨i, rfl⟩ := hactions action List.mem_cons_self
    exact ih (switchedAlone_advance hold h hnext)
      (fun a ha => hactions a (List.mem_cons_of_mem _ ha)) hrest

/-- A `set_network` that starts on an idle book and is the only call until it returns. -/
theorem switched_alone {network : Network} {actions : List BookAction} (hidle : run.Idle)
    (hactions : ∀ action ∈ actions, ∃ i, action = .advance i)
    (hrun : (.invoke (.setNetwork network) :: actions).foldlM BookRun.step run = some run')
    (hidle' : run'.Idle) : run'.book.peersLock = [] ∧ run'.book.targetLock = none := by
  rw [List.foldlM_cons] at hrun
  obtain ⟨started, hstarted, hrun⟩ := Option.bind_eq_some_iff.mp hrun
  obtain rfl := Option.some.inj hstarted
  have hfirst : SwitchedAlone run.threads network
      ⟨run.book, run.threads ++ [⟨.setNetwork network, .begun⟩]⟩ :=
    ⟨.begun, rfl, fun h => (BookStage.noConfusion h), fun _ h => (BookStage.noConfusion h)⟩
  have halone := switchedAlone_run hidle hfirst hactions hrun
  obtain ⟨stage, hthreads, -, hreturned⟩ := halone
  have hover : (⟨.setNetwork network, stage⟩ : BookThread).isOver = true := by
    refine hidle' _ ?_
    rw [hthreads]
    exact List.mem_append_right _ (List.mem_singleton_self _)
  cases stage with
  | returned answer => exact hreturned answer rfl
  | begun | retained | found | switched | cleared => cases hover

end Invariant

/-! ## The preferred peer -/

/-- What the book owes its callers: between calls the preference is a known peer, no peer is listed
twice, and a network switch on its own leaves no peer and no preference. -/
structure PreferenceKnown (run : BookRun) : Prop where
  known : run.Idle → ∀ address, run.book.target = some address →
    (⟨address⟩ : PeerEntry) ∈ run.book.peers
  nodup : run.Idle → run.book.peers.Nodup
  switched : ∀ network actions after, run.Idle → (∀ action ∈ actions, ∃ i, action = .advance i) →
    (.invoke (.setNetwork network) :: actions).foldlM BookRun.step run = some after →
      after.Idle → after.book.peers = [] ∧ after.book.target = none

/-- The preference is known in every run in which `target_peer` finds its peer still in the book
when it writes. -/
theorem preference_known {network : Network} {run : BookRun}
    (h : Run BookRun.step StillKnown (.new network) run) : PreferenceKnown run := by
  have hinv : BookInv run := h.invariant bookInv_step (bookInv_new network)
  constructor
  · intro hidle address haddress
    rcases hinv.known address haddress with hknown | ⟨⟨call, stage⟩, hthread, hsettles⟩
    · exact mem_peers.mpr hknown
    · have hover : (⟨call, stage⟩ : BookThread).isOver = true := hidle _ hthread
      cases stage with
      | returned answer => cases call <;> cases hsettles
      | begun | retained | found | switched | cleared => cases hover
  · exact fun _ => nodup_peers hinv.nodup
  · intro network' actions after hidle hactions hrun hidle'
    obtain ⟨hpeers, htarget⟩ := switched_alone hidle hactions hrun hidle'
    refine ⟨?_, htarget⟩
    unfold NetworkBook.peers
    rw [hpeers]
    rfl

/-- A peer on port 9444 of the loopback address. -/
def loopbackPeer : SocketAddr := .v4 0x7f000001 9444

/-- A peer that stays preferred while two other calls register it again and forget a peer the book
does not have. -/
theorem preference_known_overlapped :
    PreferenceKnown ⟨⟨[⟨loopbackPeer⟩], some loopbackPeer, .mainnet⟩,
      [⟨.addPeer loopbackPeer, .returned none⟩, ⟨.targetPeer loopbackPeer, .returned (some true)⟩,
        ⟨.addPeer loopbackPeer, .returned none⟩,
        ⟨.removePeer (.v4 0x7f000001 9445), .returned (some false)⟩]⟩ := by
  have hreplay : [.invoke (.addPeer loopbackPeer), .advance 0, .invoke (.targetPeer loopbackPeer),
      .advance 1, .invoke (.addPeer loopbackPeer), .invoke (.removePeer (.v4 0x7f000001 9445)),
      .advance 3, .advance 1, .advance 2].foldlM (guarded BookRun.step StillKnown)
        (BookRun.new .mainnet) =
      some ⟨⟨[⟨loopbackPeer⟩], some loopbackPeer, .mainnet⟩,
        [⟨.addPeer loopbackPeer, .returned none⟩, ⟨.targetPeer loopbackPeer, .returned (some true)⟩,
          ⟨.addPeer loopbackPeer, .returned none⟩,
          ⟨.removePeer (.v4 0x7f000001 9445), .returned (some false)⟩]⟩ := by
    decide
  exact preference_known (Run.of_replay hreplay)

/-- A removal between the check of `target_peer` and its write leaves a preference for a peer the
book has forgotten. -/
theorem preference_dangles :
    ¬ ∀ network run, Run BookRun.step (fun _ _ => True) (.new network) run → PreferenceKnown run := by
  intro hall
  have hreplay : [.invoke (.addPeer loopbackPeer), .advance 0, .invoke (.targetPeer loopbackPeer),
      .advance 1, .invoke (.removePeer loopbackPeer), .advance 2, .advance 2, .advance 1].foldlM
        (guarded BookRun.step fun _ _ => True) (BookRun.new .mainnet) =
      some ⟨⟨[], some loopbackPeer, .mainnet⟩,
        [⟨.addPeer loopbackPeer, .returned none⟩, ⟨.targetPeer loopbackPeer, .returned (some true)⟩,
          ⟨.removePeer loopbackPeer, .returned (some true)⟩]⟩ := by
    decide
  have hlisted := (hall .mainnet _ (Run.of_replay hreplay)).known (by decide) loopbackPeer rfl
  exact absurd hlisted (by decide)

end DigWallet
