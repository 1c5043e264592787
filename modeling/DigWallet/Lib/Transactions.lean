import DigWallet.Lib.Script

/-!
# DigWallet.Lib.Transactions — statements on a connection that may be cut anywhere

A `Connection` has the database on disk and, inside a transaction, the one a commit would put there.
A batch runs its statements until one fails.  When the process stops, the disk is what is left.

`Leaves C Q script c`: wherever `script` is cut, the disk satisfies `C`, and if it runs to its end,
the disk and the result satisfy `Q`.  Rules: `Leaves.done`, `Leaves.read`, `Leaves.statement` (outside
a transaction) and `Leaves.transaction` (all effects or none).
-/

namespace DigWallet

structure Connection (D : Type) where
  disk : D
  /-- What an open transaction would commit. -/
  uncommitted : Option D

inductive Statement (D : Type)
  | startTransaction
  | commit
  | effect (f : D → Except String D)

variable {D α : Type}

namespace Connection

/-- A connection just opened. -/
def opened (disk : D) : Connection D := ⟨disk, none⟩

/-- What a statement of this connection sees. -/
def visible (c : Connection D) : D := c.uncommitted.getD c.disk

end Connection

/-- One statement; outside a transaction it commits by itself. -/
def Statement.exec (c : Connection D) : Statement D → Except String (Connection D)
  | .startTransaction =>
    match c.uncommitted with
    | some _ => .error "cannot start a transaction within a transaction"
    | none => .ok { c with uncommitted := some c.disk }
  | .commit =>
    match c.uncommitted with
    | some db => .ok (.opened db)
    | none => .error "cannot commit - no transaction is active"
  | .effect f =>
    match c.uncommitted with
    | some db => (f db).map fun db' => { c with uncommitted := some db' }
    | none => (f c.disk).map .opened

namespace Script

/-- `execute_batch`: the statements one after the other, until one fails. -/
def batch (onError : String → α) (next : Script (Connection D) α) :
    List (Statement D) → Script (Connection D) α
  | [] => next
  | statement :: rest => .query fun c =>
    match statement.exec c with
    | .error e => .done (onError e)
    | .ok c' => .execute (fun _ => c') (batch onError next rest)

/-- `BEGIN; effects; COMMIT;`. -/
def transaction (onError : String → α) (effects : List (D → Except String D))
    (next : Script (Connection D) α) : Script (Connection D) α :=
  batch onError next (.startTransaction :: (effects.map .effect ++ [.commit]))

theorem mem_cuts_self (script : Script D α) (db : D) : db ∈ script.cuts db := by
  cases script with
  | done => exact List.mem_singleton.mpr rfl
  | query => exact List.mem_cons_self
  | execute => exact List.mem_cons_self

end Script

/-- All effects on a database, in order. -/
def applyAll (effects : List (D → Except String D)) (db : D) : Except String D :=
  effects.foldlM (fun db f => f db) db

@[simp] theorem applyAll_nil (db : D) : applyAll [] db = .ok db := rfl

theorem applyAll_cons (f : D → Except String D) (effects : List (D → Except String D)) (db : D) :
    applyAll (f :: effects) db = f db >>= applyAll effects := rfl

theorem applyAll_append (effects effects' : List (D → Except String D)) (db : D) :
    applyAll (effects ++ effects') db = applyAll effects db >>= applyAll effects' :=
  List.foldlM_append

/-! ## What a script leaves -/

structure Leaves (C : D → Prop) (Q : D → α → Prop) (script : Script (Connection D) α)
    (c : Connection D) : Prop where
  cuts : ∀ cut ∈ script.cuts c, C cut.disk
  ends : Q (script.run c).1.disk (script.run c).2

namespace Leaves

variable {C : D → Prop} {Q : D → α → Prop} {c : Connection D} {disk : D}
  {next : Script (Connection D) α} {onError : String → α}

theorem done {result : α} (hcut : C c.disk) (hend : Q c.disk result) :
    Leaves C Q (.done result) c where
  cuts := by
    intro cut hmem
    obtain rfl := List.mem_singleton.mp hmem
    exact hcut
  ends := hend

theorem read {next : Connection D → Script (Connection D) α} (h : Leaves C Q (next c) c) :
    Leaves C Q (.query next) c where
  cuts := by
    intro cut hmem
    rcases List.mem_cons.mp hmem with rfl | hmem
    · exact h.cuts _ (Script.mem_cuts_self _ _)
    · exact h.cuts cut hmem
  ends := h.ends

theorem write {update : Connection D → Connection D} (hcut : C c.disk)
    (h : Leaves C Q next (update c)) : Leaves C Q (.execute update next) c where
  cuts := by
    intro cut hmem
    rcases List.mem_cons.mp hmem with rfl | hmem
    · exact hcut
    · exact h.cuts cut hmem
  ends := h.ends

/-- A statement outside a transaction. -/
theorem statement {f : D → Except String D} (hcut : C disk)
    (hfail : ∀ e, f disk = .error e → Q disk (onError e))
    (hok : ∀ disk', f disk = .ok disk' → Leaves C Q next (.opened disk')) :
    Leaves C Q (Script.batch onError next [.effect f]) (.opened disk) := by
  apply read
  cases hf : f disk with
  | error e =>
    have hexec : (Statement.effect f).exec (.opened disk) = .error e := by
      simp [Statement.exec, Connection.opened, hf, Except.map]
    rw [hexec]
    exact done hcut (hfail e hf)
  | ok disk' =>
    have hexec : (Statement.effect f).exec (.opened disk) = .ok (.opened disk') := by
      simp [Statement.exec, Connection.opened, hf, Except.map]
    rw [hexec]
    exact write hcut (hok disk' hf)

/-- The effects of an open transaction and its commit. -/
theorem committed {effects : List (D → Except String D)} {db : D} (hcut : C disk)
    (hfail : ∀ e, applyAll effects db = .error e → Q disk (onError e))
    (hok : ∀ db', applyAll effects db = .ok db' → Leaves C Q next (.opened db')) :
    Leaves C Q (Script.batch onError next (effects.map .effect ++ [.commit]))
      ⟨disk, some db⟩ := by
  induction effects generalizing db with
  | nil => exact read (write hcut (hok db rfl))
  | cons f effects ih =>
    apply read
    cases hf : f db with
    | error e =>
      have hexec : (Statement.effect f).exec ⟨disk, some db⟩ = .error e := by
        simp [Statement.exec, hf, Except.map]
      rw [hexec]
      exact done hcut (hfail e (by rw [applyAll_cons, hf]; rfl))
    | ok db' =>
      have hexec : (Statement.effect f).exec ⟨disk, some db⟩ = .ok ⟨disk, some db'⟩ := by
        simp [Statement.exec, hf, Except.map]
      rw [hexec]
      refine write hcut (ih ?_ ?_)
      · intro e he
        exact hfail e (by rw [applyAll_cons, hf]; exact he)
      · intro db'' hdb
        exact hok db'' (by rw [applyAll_cons, hf]; exact hdb)

/-- **A transaction is all or nothing**, wherever it fails or is cut. -/
theorem transaction {effects : List (D → Except String D)} (hcut : C disk)
    (hfail : ∀ e, applyAll effects disk = .error e → Q disk (onError e))
    (hok : ∀ disk', applyAll effects disk = .ok disk' → Leaves C Q next (.opened disk')) :
    Leaves C Q (Script.transaction onError effects next) (.opened disk) :=
  read (write hcut (committed hcut hfail hok))

end Leaves

end DigWallet
