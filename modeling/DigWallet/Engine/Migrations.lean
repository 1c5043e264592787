import DigWallet.Engine.Events
import DigWallet.Lib.Results
import DigWallet.Lib.Runs
import DigWallet.Lib.Table
import DigWallet.Lib.Transactions

/-!
# DigWallet.Engine.Migrations — opening a store of any age with a build of any age

`migrate` as the statements it runs.  A build ships a beginning of one append-only list of
migrations; `Upgraded releases version db` says that `db` has the first `version` of them, each
applied once, in order, and nothing of another.
-/

namespace DigWallet

/-! ## The database -/

/-- A DDL statement of a migration; every one is `IF NOT EXISTS`. -/
inductive Ddl
  | createTable (name columns : String)
  | createIndex (name table columns : String)

structure SqlTable (R : Type) where
  columns : String
  rows : List R

def SqlTable.emptied {R : Type} (table : SqlTable R) : SqlTable R := { table with rows := [] }

structure Database (R : Type) where
  /-- The rows of `schema_version`, once there is such a table. -/
  schemaVersion : Option (List ℕ)
  tables : Table String (SqlTable R)
  indexes : Table String String

variable {R : Type}

namespace Database

def empty : Database R := ⟨none, Table.empty, Table.empty⟩

/-- `SELECT version FROM schema_version`, its first row or 0. -/
def version (db : Database R) : ℕ := (db.schemaVersion.getD []).head?.getD 0

def rowsOf (db : Database R) (name : String) : Option (List R) :=
  (db.tables.get? name).map SqlTable.rows

/-- What the migrations made, without the rows stored since. -/
def schema (db : Database R) : Database R :=
  ⟨none, db.tables.alter fun _ => SqlTable.emptied, db.indexes⟩

/-- A store replaces the rows of one of its tables. -/
def setRows (db : Database R) (name : String) (rows : List R) : Database R :=
  { db with
    tables := db.tables.alter fun key table =>
      if key = name then { table with rows := rows } else table }

end Database

namespace Ddl

def exec (db : Database R) : Ddl → Except String (Database R)
  | createTable name columns =>
    if (db.tables.get? name).isSome then .ok db
    else .ok { db with tables := db.tables.put name ⟨columns, []⟩ }
  | createIndex name table columns =>
    if (db.indexes.get? name).isSome then .ok db
    else if (db.tables.get? table).isSome then
      .ok { db with indexes := db.indexes.put name (table ++ " " ++ columns) }
    else .error ("no such table: main." ++ table)

end Ddl

/-! ## `migrate` -/

/-- `MIGRATIONS`: v1, the initial schema. -/
def migrations : List (List Ddl) := [[
  .createTable "coins"
    ("wallet_id INTEGER NOT NULL, coin_id TEXT NOT NULL, puzzle_hash TEXT NOT NULL, " ++
      "amount TEXT NOT NULL, created_height INTEGER, spent_height INTEGER, " ++
      "PRIMARY KEY (wallet_id, coin_id)"),
  .createIndex "coins_unspent" "coins" "(wallet_id) WHERE spent_height IS NULL",
  .createTable "cats"
    ("wallet_id INTEGER NOT NULL, asset_id TEXT NOT NULL, balance TEXT NOT NULL, name TEXT, " ++
      "PRIMARY KEY (wallet_id, asset_id)"),
  .createTable "nfts"
    ("wallet_id INTEGER NOT NULL, launcher_id TEXT NOT NULL, data_uri TEXT, " ++
      "PRIMARY KEY (wallet_id, launcher_id)"),
  .createTable "dids"
    ("wallet_id INTEGER NOT NULL, launcher_id TEXT NOT NULL, name TEXT, " ++
      "PRIMARY KEY (wallet_id, launcher_id)"),
  .createTable "transactions"
    ("seq INTEGER PRIMARY KEY AUTOINCREMENT, wallet_id INTEGER NOT NULL, tx_id TEXT NOT NULL, " ++
      "confirmed_height INTEGER, summary_json TEXT NOT NULL"),
  .createIndex "transactions_wallet" "transactions" "(wallet_id)",
  .createTable "sync_state"
    ("wallet_id INTEGER PRIMARY KEY, peak_height INTEGER NOT NULL DEFAULT 0, " ++
      "target_height INTEGER NOT NULL DEFAULT 0, lifecycle TEXT NOT NULL"),
  .createTable "events" "cursor INTEGER PRIMARY KEY, event_json TEXT NOT NULL"]]

/-- `CREATE TABLE IF NOT EXISTS schema_version`. -/
def createSchemaVersion (db : Database R) : Except String (Database R) :=
  .ok { db with schemaVersion := some (db.schemaVersion.getD []) }

/-- `DELETE FROM schema_version`. -/
def deleteVersions (db : Database R) : Except String (Database R) :=
  match db.schemaVersion with
  | some _ => .ok { db with schemaVersion := some [] }
  | none => .error "no such table: schema_version"

/-- `INSERT INTO schema_version (version) VALUES (…)`. -/
def insertVersion (version : ℕ) (db : Database R) : Except String (Database R) :=
  match db.schemaVersion with
  | some versions => .ok { db with schemaVersion := some (versions ++ [version]) }
  | none => .error "no such table: schema_version"

/-- The DDL of one migration and the new version. -/
def migrationEffects (statements : List Ddl) (version : ℕ) :
    List (Database R → Except String (Database R)) :=
  statements.map (fun ddl db => ddl.exec db) ++ [deleteVersions, insertVersion version]

/-- The loop of `migrate`, from the migration at `index`. -/
def applyPending (current : ℕ) :
    ℕ → List (List Ddl) → Script (Connection (Database R)) (WalletResult Unit)
  | _, [] => .done (.ok ())
  | index, statements :: rest =>
    let version := index + 1
    if version ≤ current then applyPending current version rest
    else .transaction (fun e => .error (storageErr e)) (migrationEffects statements version)
      (applyPending current version rest)

def newerThanBuild (current target : ℕ) : WalletError :=
  storageErr ("database schema version " ++ toString current ++
    " is newer than this build supports (" ++ toString target ++ ")")

/-- `migrate` from the version it read. -/
def upgradeFrom (migrations : List (List Ddl)) (current : ℕ) :
    Script (Connection (Database R)) (WalletResult Unit) :=
  if migrations.length < current then
    .done (.error (newerThanBuild current migrations.length))
  else applyPending current 0 migrations

def migrate (migrations : List (List Ddl)) :
    Script (Connection (Database R)) (WalletResult Unit) :=
  .batch (fun e => .error (storageErr e))
    (.query fun conn => upgradeFrom migrations conn.visible.version) [.effect createSchemaVersion]

/-! ## What one statement of a migration does -/

/-- Every table of `db` is still there with its rows. -/
def Keeps (db db' : Database R) : Prop :=
  ∀ name rows, db.rowsOf name = some rows → db'.rowsOf name = some rows

theorem Keeps.refl (db : Database R) : Keeps db db := fun _ _ h => h

theorem Keeps.trans {db db' db'' : Database R} (h : Keeps db db') (h' : Keeps db' db'') :
    Keeps db db'' := fun name rows hrows => h' name rows (h name rows hrows)

theorem keeps_of_tables {db db' : Database R} (h : db'.tables = db.tables) : Keeps db db' := by
  intro name rows hrows
  rw [← hrows]
  exact congrArg (fun tables => (tables.get? name).map SqlTable.rows) h

theorem keeps_of_get? {db : Database R} {tables : Table String (SqlTable R)}
    {versions : Option (List ℕ)}
    {indexes : Table String String} (h : ∀ name, (db.tables.get? name).isSome →
      tables.get? name = db.tables.get? name) : Keeps db ⟨versions, tables, indexes⟩ := by
  intro name rows hrows
  have hsome : (db.tables.get? name).isSome := by
    cases htable : db.tables.get? name with
    | none => simp [Database.rowsOf, htable] at hrows
    | some table => rfl
  rw [← hrows]
  exact congrArg (Option.map SqlTable.rows) (h name hsome)

namespace Ddl

variable {db db' : Database R} {ddl : Ddl}

/-- The rows do not decide what a statement does to the schema. -/
theorem exec_schema (ddl : Ddl) (db : Database R) :
    ddl.exec db.schema = (ddl.exec db).map Database.schema := by
  have hget : ∀ name, (db.schema.tables.get? name).isSome = (db.tables.get? name).isSome := by
    intro name
    rw [show db.schema.tables.get? name = _ from Table.get?_alter, Option.isSome_map]
  cases ddl with
  | createTable name columns =>
    simp only [exec, hget]
    split_ifs
    · rfl
    · have hput := Table.alter_put (t := db.tables) (k := name) (v := ⟨columns, []⟩)
        (f := fun _ => SqlTable.emptied)
      exact congrArg (fun tables => Except.ok (Database.mk none tables db.indexes)) hput.symm
  | createIndex name table columns =>
    simp only [exec, hget]
    show (if (db.indexes.get? name).isSome then _ else _) = _
    split_ifs <;> rfl

theorem exec_schemaVersion (h : ddl.exec db = .ok db') : db'.schemaVersion = db.schemaVersion := by
  cases ddl with
  | createTable name columns =>
    simp only [exec] at h
    split_ifs at h <;> cases h <;> rfl
  | createIndex name table columns =>
    simp only [exec] at h
    split_ifs at h <;> cases h <;> rfl

theorem exec_keeps (h : ddl.exec db = .ok db') : Keeps db db' := by
  cases ddl with
  | createTable name columns =>
    simp only [exec] at h
    split_ifs at h with htable
    · cases h
      exact Keeps.refl db
    · cases h
      refine keeps_of_get? fun other hother => ?_
      rw [Table.get?_put, if_neg]
      rintro rfl
      exact htable hother
  | createIndex name table columns =>
    simp only [exec] at h
    split_ifs at h
    · cases h
      exact Keeps.refl db
    · cases h
      exact keeps_of_get? fun _ _ => rfl

end Ddl

/-! ## What a migration does -/

section Effects

variable {db db' : Database R}

/-- The schema a list of migrations makes of nothing. -/
def applied (R : Type) (releases : List (List Ddl)) : Except String (Database R) :=
  applyAll (releases.flatten.map fun ddl db => ddl.exec db) .empty

theorem applyAll_schema (statements : List Ddl) (db : Database R) :
    applyAll (statements.map fun ddl db => ddl.exec db) db.schema =
      (applyAll (statements.map fun ddl db => ddl.exec db) db).map Database.schema := by
  induction statements generalizing db with
  | nil => rfl
  | cons ddl statements ih =>
    rw [List.map_cons, applyAll_cons, applyAll_cons, Ddl.exec_schema]
    cases ddl.exec db with
    | error e => rfl
    | ok db' => exact ih db'

theorem applyAll_schemaVersion {statements : List Ddl}
    (h : applyAll (statements.map fun ddl db => ddl.exec db) db = .ok db') :
    db'.schemaVersion = db.schemaVersion := by
  induction statements generalizing db with
  | nil =>
    cases h
    rfl
  | cons ddl statements ih =>
    rw [List.map_cons, applyAll_cons] at h
    obtain ⟨next, hnext, h⟩ := bind_eq_ok.mp h
    exact (ih h).trans (Ddl.exec_schemaVersion hnext)

theorem applyAll_keeps {statements : List Ddl}
    (h : applyAll (statements.map fun ddl db => ddl.exec db) db = .ok db') : Keeps db db' := by
  induction statements generalizing db with
  | nil =>
    cases h
    exact Keeps.refl _
  | cons ddl statements ih =>
    rw [List.map_cons, applyAll_cons] at h
    obtain ⟨next, hnext, h⟩ := bind_eq_ok.mp h
    exact (Ddl.exec_keeps hnext).trans (ih h)

/-- Migrations after migrations. -/
theorem applied_concat (releases : List (List Ddl)) (statements : List Ddl) :
    applied R (releases ++ [statements]) =
      applied R releases >>= applyAll (statements.map fun ddl db => ddl.exec db) := by
  unfold applied
  rw [List.flatten_append, List.flatten_singleton, List.map_append, applyAll_append]

/-- What applies, applies up to any migration. -/
theorem exists_applied_of_prefix {earlier releases : List (List Ddl)} {db : Database R}
    (hearlier : earlier <+: releases) (h : applied R releases = .ok db) :
    ∃ db', applied R earlier = .ok db' := by
  obtain ⟨later, rfl⟩ := hearlier
  unfold applied at h
  rw [List.flatten_append, List.map_append, applyAll_append] at h
  obtain ⟨db', hdb', -⟩ := bind_eq_ok.mp h
  exact ⟨db', hdb'⟩

/-- Recording a version where the table exists. -/
theorem recordVersion (version : ℕ) {versions : List ℕ} (h : db.schemaVersion = some versions) :
    applyAll [deleteVersions, insertVersion version] db =
      .ok { db with schemaVersion := some [version] } := by
  rw [applyAll_cons]
  unfold deleteVersions
  rw [h]
  rfl

/-- A migration: its DDL, then the version. -/
theorem migrationEffects_eq {statements : List Ddl} {versions : List ℕ} (version : ℕ)
    (h : db.schemaVersion = some versions) :
    applyAll (migrationEffects statements version) db =
      (applyAll (statements.map fun ddl db => ddl.exec db) db).map fun db' =>
        { db' with schemaVersion := some [version] } := by
  unfold migrationEffects
  rw [applyAll_append]
  cases happly : applyAll (statements.map fun ddl db => ddl.exec db) db with
  | error e => rfl
  | ok db' => exact recordVersion version ((applyAll_schemaVersion happly).trans h)

end Effects

/-! ## The schema of a database -/

/-- The first `version` migrations are applied, each once, and recorded. -/
structure Upgraded (releases : List (List Ddl)) (version : ℕ) (db : Database R) : Prop where
  released : version ≤ releases.length
  recorded : db.schemaVersion.getD [] = if version = 0 then [] else [version]
  schema : applied R (releases.take version) = .ok db.schema

namespace Upgraded

variable {releases : List (List Ddl)} {version : ℕ} {db : Database R}

theorem version_eq (h : Upgraded releases version db) : db.version = version := by
  unfold Database.version
  rw [h.recorded]
  split_ifs with hzero
  · exact hzero.symm
  · rfl

theorem empty (releases : List (List Ddl)) : Upgraded releases 0 (Database.empty : Database R) :=
  ⟨Nat.zero_le _, rfl, rfl⟩

theorem setRows (h : Upgraded releases version db) (name : String) (rows : List R) :
    Upgraded releases version (db.setRows name rows) := by
  refine ⟨h.released, h.recorded, h.schema.trans (congrArg Except.ok ?_)⟩
  refine congrArg (fun tables => Database.mk none tables db.indexes) (Table.ext ?_)
  show List.map _ db.tables.rows = List.map _ (List.map _ db.tables.rows)
  rw [List.map_map]
  refine List.map_congr_left fun row _ => Prod.ext rfl ?_
  show SqlTable.emptied row.2 = SqlTable.emptied (if row.1 = name then _ else row.2)
  split_ifs <;> rfl

end Upgraded

/-! ## One open -/

/-- What an open by `build` leaves when it is cut: a version between the two, with all rows. -/
def UpTo (releases : List (List Ddl)) (version build : ℕ) (db cut : Database R) : Prop :=
  ∃ reached, version ≤ reached ∧ reached ≤ max version build ∧ Upgraded releases reached cut ∧
    Keeps db cut

/-- What an open by `build` leaves and returns at its end. -/
structure Opened (releases : List (List Ddl)) (version build : ℕ) (db out : Database R)
    (result : WalletResult Unit) : Prop where
  upTo : UpTo releases version build db out
  refuses : build < version → out = db ∧ result = .error (newerThanBuild version build)
  opens : result = .ok () ↔
    version ≤ build ∧ ∃ schema, applied R (releases.take build) = .ok schema
  reaches : result = .ok () → Upgraded releases build out

section Loop

variable {releases : List (List Ddl)} {version build : ℕ} {db disk : Database R}

/-- The migration the loop is at. -/
theorem release_at {statements : List Ddl} {rest : List (List Ddl)} {index : ℕ}
    (hreleased : build ≤ releases.length)
    (hrest : (releases.take build).drop index = statements :: rest) :
    index < build ∧ (releases.take build).drop (index + 1) = rest ∧
      releases.take (index + 1) = releases.take index ++ [statements] := by
  have hlt : index < (releases.take build).length := by
    by_contra hge
    rw [List.drop_eq_nil_iff.mpr (Nat.not_lt.mp hge)] at hrest
    cases hrest
  rw [List.drop_eq_getElem_cons hlt] at hrest
  obtain ⟨hget, hnext⟩ := List.cons.inj hrest
  rw [List.length_take, min_eq_left hreleased] at hlt
  rw [List.getElem_take] at hget
  refine ⟨hlt, hnext, ?_⟩
  rw [← hget, List.take_append_getElem]

/-- A migration applies, and the database is at its version with every row, or it applies to no
database of the version before. -/
theorem migration_cases {statements : List Ddl} {index : ℕ} (hlt : index < releases.length)
    (htake : releases.take (index + 1) = releases.take index ++ [statements])
    (hdisk : Upgraded releases index disk) (htable : disk.schemaVersion.isSome) :
    (∃ e, applyAll (migrationEffects statements (index + 1)) disk = .error e ∧
      ∀ schema, applied R (releases.take (index + 1)) ≠ .ok schema) ∨
    ∃ next, applyAll (migrationEffects statements (index + 1)) disk = .ok next ∧
      Upgraded releases (index + 1) next ∧ Keeps disk next ∧ next.schemaVersion.isSome := by
  -- the DDL does the same to the schema alone, which is that of the migrations before
  have happlied : applied R (releases.take (index + 1)) =
      (applyAll (statements.map fun ddl db => ddl.exec db) disk).map Database.schema := by
    rw [htake, applied_concat, hdisk.schema]
    exact applyAll_schema statements disk
  obtain ⟨versions, hversions⟩ := Option.isSome_iff_exists.mp htable
  rw [migrationEffects_eq (index + 1) hversions]
  cases hall : applyAll (statements.map fun ddl db => ddl.exec db) disk with
  | error e =>
    rw [hall] at happlied
    refine .inl ⟨e, rfl, fun schema hschema => ?_⟩
    cases happlied.symm.trans hschema
  | ok next =>
    rw [hall] at happlied
    exact .inr ⟨_, rfl, ⟨hlt, rfl, happlied⟩, (applyAll_keeps hall).trans (keeps_of_tables rfl), rfl⟩

/-- The loop at `index` over a database of version `max version index`, by induction on the migrations
left. -/
theorem leaves_applyPending (hbuild : version ≤ build) (hreleased : build ≤ releases.length)
    {rest : List (List Ddl)} {index : ℕ} (hrest : (releases.take build).drop index = rest)
    (hindex : index ≤ build) (hdisk : Upgraded releases (max version index) disk)
    (hkeeps : Keeps db disk) (htable : disk.schemaVersion.isSome) :
    Leaves (UpTo releases version build db) (Opened releases version build db)
      (applyPending version index rest) (.opened disk) := by
  have hnotNewer : ¬ build < version := Nat.not_lt.mpr hbuild
  have hcut : ∀ reached {disk : Database R}, version ≤ reached → reached ≤ build →
      Upgraded releases reached disk → Keeps db disk → UpTo releases version build db disk :=
    fun reached _ hle hge hupgraded hkeeps =>
      ⟨reached, hle, hge.trans (le_max_right _ _), hupgraded, hkeeps⟩
  induction rest generalizing index disk with
  | nil =>
    -- every migration of the build is past
    have hlength : (releases.take build).length ≤ index := List.drop_eq_nil_iff.mp hrest
    rw [List.length_take, min_eq_left hreleased] at hlength
    obtain rfl : index = build := le_antisymm hindex hlength
    rw [max_eq_right hbuild] at hdisk
    have hupTo := hcut index hbuild le_rfl hdisk hkeeps
    refine Leaves.done hupTo ⟨hupTo, fun h => absurd h hnotNewer, ?_, fun _ => hdisk⟩
    exact ⟨fun _ => ⟨hbuild, _, hdisk.schema⟩, fun _ => rfl⟩
  | cons statements rest ih =>
    obtain ⟨hlt, hnext, htake⟩ := release_at hreleased hrest
    unfold applyPending
    by_cases hdone : index + 1 ≤ version
    · -- the database has this migration
      rw [if_pos hdone]
      rw [max_eq_left (Nat.le_of_succ_le hdone)] at hdisk
      refine ih hnext hlt ?_ hkeeps htable
      rwa [max_eq_left hdone]
    · have hle : version ≤ index := Nat.lt_succ_iff.mp (Nat.not_le.mp hdone)
      rw [if_neg hdone]
      rw [max_eq_right hle] at hdisk
      have hhere := hcut index hle hindex hdisk hkeeps
      rcases migration_cases (hlt.trans_le hreleased) htake hdisk htable with
        ⟨e, hfails, hstuck⟩ | ⟨next, happlies, hupgraded, hkept, hrecorded⟩
      · apply Leaves.transaction hhere
        · -- nothing is left of it, and no build that has it opens the database
          intro _ _
          refine ⟨hhere, fun h => absurd h hnotNewer, ⟨nofun, ?_⟩, nofun⟩
          rintro ⟨-, schema, hschema⟩
          obtain ⟨schema', hschema'⟩ :=
            exists_applied_of_prefix (List.take_prefix_take_left hlt) hschema
          exact absurd hschema' (hstuck schema')
        · intro disk' hdisk'
          cases hfails.symm.trans hdisk'
      · apply Leaves.transaction hhere
        · intro e he
          cases happlies.symm.trans he
        · -- committed: the rest of the loop from the next version
          intro disk' hdisk'
          obtain rfl := Except.ok.inj (happlies.symm.trans hdisk')
          refine ih hnext hlt ?_ (hkeeps.trans hkept) hrecorded
          rwa [max_eq_right (Nat.le_succ_of_le hle)]

/-- **One open** by a build, cut anywhere or run to its end. -/
theorem leaves_migrate (h : Upgraded releases version db) (hreleased : build ≤ releases.length) :
    Leaves (UpTo releases version build db) (Opened releases version build db)
      (migrate (releases.take build)) (.opened db) := by
  have hlength : (releases.take build).length = build := by
    rw [List.length_take, min_eq_left hreleased]
  have hupTo : ∀ {disk : Database R}, Upgraded releases version disk → Keeps db disk →
      UpTo releases version build db disk :=
    fun hdisk hkeeps => ⟨version, le_rfl, le_max_left _ _, hdisk, hkeeps⟩
  apply Leaves.statement (hupTo h (Keeps.refl db)) nofun
  intro disk hdisk
  obtain rfl := Except.ok.inj hdisk
  have hversioned : Upgraded releases version
      { db with schemaVersion := some (db.schemaVersion.getD []) } :=
    ⟨h.released, h.recorded, h.schema⟩
  have hkeeps : Keeps db { db with schemaVersion := some (db.schemaVersion.getD []) } :=
    keeps_of_tables rfl
  apply Leaves.read
  show Leaves _ _ (upgradeFrom _ (Database.version { db with schemaVersion := _ })) _
  rw [hversioned.version_eq]
  unfold upgradeFrom
  rw [hlength]
  by_cases hnewer : build < version
  · rw [if_pos hnewer]
    have hcut := hupTo hversioned hkeeps
    refine Leaves.done hcut ⟨hcut, fun _ => ⟨?_, rfl⟩, ?_, nofun⟩
    · have hrecorded := h.recorded
      rw [if_neg (Nat.ne_zero_of_lt hnewer)] at hrecorded
      obtain ⟨schemaVersion, tables, indexes⟩ := db
      cases schemaVersion with
      | none => cases hrecorded
      | some versions => rfl
    · exact ⟨nofun, fun hle => absurd hle.1 (Nat.not_le.mpr hnewer)⟩
  · rw [if_neg hnewer]
    refine leaves_applyPending (Nat.not_lt.mp hnewer) hreleased rfl (Nat.zero_le _) ?_ hkeeps rfl
    rwa [Nat.max_zero]

end Loop

/-! ## Any number of opens -/

/-- A use of the database file: an open by the build that ships the first `build` migrations, cut
after `stop` points (or run to its end), or new rows of one table. -/
inductive FileUse (R : Type)
  | openBy (build stop : ℕ)
  | store (name : String) (rows : List R)

def useStep (releases : List (List Ddl)) (db : Database R) : FileUse R → Option (Database R)
  | .openBy build stop =>
    ((migrate (releases.take build)).cuts (.opened db))[stop]?.map Connection.disk
  | .store name rows => some (db.setRows name rows)

/-- The build is one of those released. -/
def ByRelease (releases : List (List Ddl)) (_ : Database R) : FileUse R → Prop
  | .openBy build _ => build ≤ releases.length
  | .store _ _ => True

instance (releases : List (List Ddl)) (db : Database R) :
    (use : FileUse R) → Decidable (ByRelease releases db use)
  | .openBy _ _ => inferInstanceAs (Decidable (_ ≤ _))
  | .store _ _ => inferInstanceAs (Decidable True)

theorem upgraded_step {releases : List (List Ddl)} {db db' : Database R} {use : FileUse R}
    (h : ∃ version, Upgraded releases version db) (hallowed : ByRelease releases db use)
    (hstep : useStep releases db use = some db') : ∃ version, Upgraded releases version db' := by
  obtain ⟨version, h⟩ := h
  cases use with
  | openBy build stop =>
    obtain ⟨cut, hcut, rfl⟩ := Option.map_eq_some_iff.mp hstep
    obtain ⟨reached, -, -, hreached, -⟩ :=
      (leaves_migrate h hallowed).cuts cut (List.mem_of_getElem? hcut)
    exact ⟨reached, hreached⟩
  | store name rows =>
    obtain rfl := Option.some.inj hstep
    exact ⟨version, h.setRows name rows⟩

theorem exists_upgraded {releases : List (List Ddl)} {db : Database R}
    (hrun : Run (useStep releases) (ByRelease releases) .empty db) :
    ∃ version, Upgraded releases version db :=
  hrun.invariant (fun h hallowed hstep => upgraded_step h hallowed hstep)
    ⟨0, Upgraded.empty releases⟩

/-- The tables of the wallet store and of the event log. -/
def storeTables : List String :=
  ["coins", "cats", "nfts", "dids", "transactions", "sync_state", "events"]

/-- This build's migrations apply to nothing, and make every table. -/
theorem exists_applied_migrations (R : Type) : ∃ schema, applied R migrations = .ok schema ∧
    ∀ name ∈ storeTables, (schema.rowsOf name).isSome := by
  refine ⟨_, rfl, ?_⟩
  intro name hname
  simp only [storeTables, List.mem_cons, List.not_mem_nil, or_false] at hname
  rcases hname with rfl | rfl | rfl | rfl | rfl | rfl | rfl <;> rfl

/-- A table is there whether or not it has rows. -/
theorem isSome_rowsOf_schema (db : Database R) (name : String) :
    (db.schema.rowsOf name).isSome = (db.rowsOf name).isSome := by
  unfold Database.rowsOf
  rw [show db.schema.tables.get? name = _ from Table.get?_alter, Option.isSome_map, Option.isSome_map,
    Option.isSome_map]

/-- This build, among the releases. -/
theorem opens_iff {later : List (List Ddl)} {version : ℕ} {db out : Database R}
    {result : WalletResult Unit}
    (h : Opened (migrations ++ later) version migrations.length db out result) :
    (result = .ok () ↔ version ≤ migrations.length) ∧
      (result = .ok () → ∀ name ∈ storeTables, (out.rowsOf name).isSome) := by
  obtain ⟨schema, happlied, htables⟩ := exists_applied_migrations R
  have htake : (migrations ++ later).take migrations.length = migrations := List.take_left
  constructor
  · rw [h.opens, htake]
    exact ⟨fun hle => hle.1, fun hle => ⟨hle, schema, happlied⟩⟩
  · intro hok name hname
    have hout := (h.reaches hok).schema
    rw [htake, happlied] at hout
    rw [← isSome_rowsOf_schema, ← Except.ok.inj hout]
    exact htables name hname

/-- **Any build opens any database safely.**  After any number of opens by this build and later ones
that only create tables and indexes, in any order and each cut anywhere, the database has the first
migrations, each once; an open cut anywhere leaves some version up to its own with every row, an older
build refuses and changes nothing, and this build opens whatever is not newer. -/
theorem schema_upgrades (later : List (List Ddl)) (db : Database R)
    (hrun : Run (useStep (migrations ++ later)) (ByRelease (migrations ++ later)) .empty db) :
    ∃ version, Upgraded (migrations ++ later) version db ∧
      (∀ build ≤ (migrations ++ later).length,
        (∀ cut ∈ (migrate ((migrations ++ later).take build)).cuts (.opened db),
          UpTo (migrations ++ later) version build db cut.disk) ∧
        Opened (migrations ++ later) version build db
          ((migrate ((migrations ++ later).take build)).run (.opened db)).1.disk
          ((migrate ((migrations ++ later).take build)).run (.opened db)).2) ∧
      (((migrate migrations).run (.opened db)).2 = .ok () ↔ version ≤ migrations.length) ∧
      (((migrate migrations).run (.opened db)).2 = .ok () →
        ∀ name ∈ storeTables,
          (((migrate migrations).run (.opened db)).1.disk.rowsOf name).isSome) := by
  obtain ⟨version, h⟩ := exists_upgraded hrun
  have hthis : migrations.length ≤ (migrations ++ later).length := by
    rw [List.length_append]
    exact Nat.le_add_right _ _
  have hends := (leaves_migrate h hthis).ends
  rw [show (migrations ++ later).take migrations.length = migrations from List.take_left] at hends
  refine ⟨version, h, ?_, opens_iff hends⟩
  intro build hbuild
  exact ⟨(leaves_migrate h hbuild).cuts, (leaves_migrate h hbuild).ends⟩

namespace Sim

/-- A later release adds a table. -/
def laterReleases : List (List Ddl) := [[.createTable "contacts" "label TEXT, address TEXT NOT NULL"]]

/-- A first open dies inside its migration, the next completes; coins are stored; a newer build dies
inside its own migration, then completes. -/
def fileUses : List (FileUse ℕ) :=
  [.openBy 1 9, .openBy 1 29, .store "coins" [1, 2], .openBy 2 8, .openBy 2 13]

end Sim

open Sim in
/-- Afterwards the coins are there, and the older build refuses to open. -/
theorem schema_upgrades_downgrade : ∃ db : Database ℕ,
    db.rowsOf "coins" = some [1, 2] ∧ (db.rowsOf "contacts").isSome ∧
      ((migrate migrations).run (.opened db)).2 ≠ .ok () := by
  have hreplay : ∃ db, fileUses.foldlM (guarded (useStep (migrations ++ laterReleases))
      (ByRelease (migrations ++ laterReleases))) Database.empty = some db ∧
      db.rowsOf "coins" = some [1, 2] ∧ (db.rowsOf "contacts").isSome ∧ db.version = 2 :=
    ⟨_, rfl, rfl, rfl, rfl⟩
  obtain ⟨db, hreplay, hcoins, hcontacts, hversion⟩ := hreplay
  obtain ⟨version, hupgraded, -, hopens, -⟩ :=
    schema_upgrades laterReleases db (Run.of_replay hreplay)
  refine ⟨db, hcoins, hcontacts, fun hok => ?_⟩
  have hle := hopens.mp hok
  rw [← hupgraded.version_eq, hversion] at hle
  exact absurd hle (by decide)

end DigWallet
