import Mathlib.Data.List.Basic

/-!
# DigWallet.Lib.Script — programs of atomic statements

A `Script` reads and writes a database of type `D` one statement at a time, each statement atomic by
itself.  `run` executes all of it; `cuts` lists what is persisted at every point at which a
statement fails or the process stops.
-/

namespace DigWallet

inductive Script (D α : Type)
  | done (result : α)
  | query (next : D → Script D α)
  | execute (write : D → D) (next : Script D α)

namespace Script

variable {D α : Type}

def run : Script D α → D → D × α
  | done result, db => (db, result)
  | query next, db => (next db).run db
  | execute write next, db => next.run (write db)

/-- The persisted states: before each statement, and at the end. -/
def cuts : Script D α → D → List D
  | done _, db => [db]
  | query next, db => db :: (next db).cuts db
  | execute write next, db => db :: next.cuts (write db)

/-- Whatever is persisted is the state before the call or the state after it, and in the first
case a second call does and returns what the first would have. -/
def AllOrNothing (script : Script D α) (db : D) : Prop :=
  ∀ cut ∈ script.cuts db,
    (cut = db ∨ cut = (script.run db).1) ∧ (cut = db → script.run cut = script.run db)

theorem allOrNothing_iff {script : Script D α} {db : D} :
    script.AllOrNothing db ↔ ∀ cut ∈ script.cuts db, cut = db ∨ cut = (script.run db).1 := by
  constructor
  · intro h cut hcut
    exact (h cut hcut).1
  · intro h cut hcut
    exact ⟨h cut hcut, congrArg script.run⟩

@[simp] theorem cuts_done {result : α} {db : D} : (done result).cuts db = [db] := rfl

@[simp] theorem run_done {result : α} {db : D} : (done result).run db = (db, result) := rfl

theorem allOrNothing_done (result : α) (db : D) : (done result).AllOrNothing db := by
  rw [allOrNothing_iff]
  intro cut hcut
  exact .inl (List.mem_singleton.mp hcut)

/-- A read alone persists nothing. -/
theorem allOrNothing_query {next : D → Script D α} {db : D} (h : (next db).AllOrNothing db) :
    (query next).AllOrNothing db := by
  rw [allOrNothing_iff] at h ⊢
  intro cut hcut
  rcases List.mem_cons.mp hcut with rfl | hcut
  · exact .inl rfl
  · exact h cut hcut

/-- A single write at the end is all or nothing. -/
theorem allOrNothing_execute (write : D → D) (result : α) (db : D) :
    (execute write (done result)).AllOrNothing db := by
  rw [allOrNothing_iff]
  intro cut hcut
  rcases List.mem_cons.mp hcut with rfl | hcut
  · exact .inl rfl
  · exact .inr (List.mem_singleton.mp hcut)

end Script

end DigWallet
