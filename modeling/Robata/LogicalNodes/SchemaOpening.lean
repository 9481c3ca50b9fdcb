import Robata.LogicalNodes.Schema

/-!
# Opening the logical-node registry

`_initialize_database` and `_migrate_v1_to_v2` as a program over the statements that commit one by
one: the version is read once, outside any transaction, and decides whether the script runs; the
migration is one transaction, and so is every operation of a registry that is open.
-/

namespace Robata.LogicalNodes

open Lib
open Method (query transact)
open Prog (perform)

variable {Rows : Type}

/-- What an operation does to the rows once the database is verified; SQLite enforces the foreign
keys. -/
structure RegistryOperation (healthy : Rows → Bool) where
  write : Rows → Except String Rows
  keeps : ∀ {rows rows' : Rows}, healthy rows = true → write rows = .ok rows' → healthy rows' = true

variable (healthy : Rows → Bool)

/-- A statement outside a transaction, or a transaction. -/
inductive RegistryCommand
  /-- `PRAGMA user_version`. -/
  | userVersion
  /-- `CREATE … IF NOT EXISTS`. -/
  | createIfNotExists (row : SchemaRow)
  /-- `PRAGMA user_version = 1`. -/
  | setUserVersion
  | checkVersion (version : ExpectedVersion)
  | checkSchema (version : ExpectedVersion)
  | checkTables (version : ExpectedVersion)
  | checkHealth
  /-- The transaction of `_migrate_v1_to_v2`. -/
  | migrate
  /-- The transaction of an operation. -/
  | operate (operation : RegistryOperation healthy)

/-- `PRAGMA user_version` answers a number. -/
abbrev RegistryAnswer : RegistryCommand healthy → Type
  | .userVersion => Nat
  | _ => Unit

namespace Database

variable (db : Database Rows)

def exists? (name : String) : Bool := db.schema.any (·.name = name)

def createIfNotExists (row : SchemaRow) : Database Rows :=
  if db.exists? row.name then db else { db with schema := db.schema ++ [row] }

/-- A `CREATE` of the migration. -/
def create (row : SchemaRow) : Except RegistryError (Database Rows) :=
  if db.exists? row.name then
    .error (.storageIoError
      ("cannot migrate SQLite logical-node registry to schema version 2: " ++ row.name ++
        " already exists"))
  else .ok { db with schema := db.schema ++ [row] }

/-- The transaction of `_migrate_v1_to_v2`. -/
def migrate : Except RegistryError (Unit × Database Rows) :=
  if db.userVersion = 2 then .ok ((), db)
  else if db.userVersion ≠ 1 then
    .error (.integrityError
      ("cannot migrate logical-node schema version " ++ toString db.userVersion))
  else do
    db.verify healthy .one
    let migrated ← revisionSchema.foldlM create db
    .ok ((), { migrated with userVersion := 2 })

def operate (operation : RegistryOperation healthy) : Except RegistryError (Unit × Database Rows) := do
  db.verify healthy .two
  match operation.write db.rows with
  | .ok rows => .ok ((), { db with rows := rows })
  | .error message => .error (.operation message)

end Database

def RegistryCommand.run : (c : RegistryCommand healthy) →
    Method (Database Rows) RegistryError (RegistryAnswer healthy c)
  | .userVersion => query fun db => .ok db.userVersion
  | .createIfNotExists row => fun db => (.ok (), db.createIfNotExists row)
  | .setUserVersion => fun db => (.ok (), { db with userVersion := 1 })
  | .checkVersion version => query fun db => db.checkVersion version
  | .checkSchema version => query fun db => db.checkSchema version
  | .checkTables version => query fun db => db.checkTables version
  | .checkHealth => query fun db => db.checkHealth healthy
  | .migrate => transact fun db => db.migrate healthy
  | .operate operation => transact (·.operate healthy operation)

abbrev RegistryProg := Prog (RegistryCommand healthy) (RegistryAnswer healthy) RegistryError

/-- The statements of `_SCHEMA_V1_SQL` that create something. -/
def createStatements : List SchemaRow → RegistryProg healthy Unit
  | [] => pure ()
  | row :: rows => do
      perform (RegistryCommand.createIfNotExists row)
      createStatements rows

/-- `executescript(_SCHEMA_V1_SQL)`. -/
def runSchemaScript : RegistryProg healthy Unit := do
  createStatements healthy schemaV1
  perform RegistryCommand.setUserVersion

/-- `_verify_database_schema` and `_verify_database_health` outside a transaction. -/
def verifyDatabase (version : ExpectedVersion) : RegistryProg healthy Unit := do
  perform (RegistryCommand.checkVersion version)
  perform (RegistryCommand.checkSchema version)
  perform (RegistryCommand.checkTables version)
  perform RegistryCommand.checkHealth

/-- `_initialize_database` from version 1 on. -/
def upgradeDatabase : RegistryProg healthy Unit := do
  verifyDatabase healthy .one
  perform RegistryCommand.migrate
  verifyDatabase healthy .two

/-- `_initialize_database` after it has read the version. -/
def initializeFrom (userVersion : Nat) : RegistryProg healthy Unit :=
  if userVersion = 0 then do
    runSchemaScript healthy
    upgradeDatabase healthy
  else if userVersion = 1 then upgradeDatabase healthy
  else if userVersion = 2 then verifyDatabase healthy .two
  else Prog.ofExcept (.error (.integrityError
    ("unsupported local logical-node schema version: " ++ toString userVersion)))

def initializeDatabase : RegistryProg healthy Unit := do
  let userVersion : Nat ← perform RegistryCommand.userVersion
  initializeFrom healthy userVersion

/-- Operations of an open registry, one after the other: the caller goes on after an operation that
raised for a reason of its own. -/
def operateAll : List (RegistryOperation healthy) → RegistryProg healthy Unit
  | [] => pure ()
  | operation :: rest => .call (.operate operation) fun
      | .ok _ => operateAll rest
      | .error (.operation _) => operateAll rest
      | .error e => .done (.error e)

/-- A process opens the registry and uses it. -/
def session (operations : List (RegistryOperation healthy)) : RegistryProg healthy Unit := do
  initializeDatabase healthy
  operateAll healthy operations

/-- The registry and the processes that open it. -/
def nodeRegistry : System (Database Rows) (List (RegistryOperation healthy))
    (RegistryCommand healthy) (RegistryAnswer healthy) RegistryError Unit where
  run := RegistryCommand.run healthy
  method := session healthy

/-- A root that is new, at version 1 or at version 2. -/
inductive Root : Database Rows → Prop
  | new {rows : Rows} (hrows : healthy rows = true) : Root ⟨0, [], rows⟩
  | versionOne {rows : Rows} (hrows : healthy rows = true) : Root ⟨1, schemaV1, rows⟩
  | versionTwo {rows : Rows} (hrows : healthy rows = true) : Root ⟨2, schemaV2, rows⟩

end Robata.LogicalNodes
