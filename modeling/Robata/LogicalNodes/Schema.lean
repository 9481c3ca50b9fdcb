import Robata.Lib.Interleaving

/-!
# The schema of the logical-node registry

The rows of `sqlite_schema` that `LocalLogicalNodeRegistry` expects, with the normalized text of
every statement, and the checks of `_verify_database_schema` and `_verify_database_health`.

`PRAGMA table_info`, `index_list`, `index_info` and `foreign_key_list` are computed by SQLite from
the stored definitions, so that the checks of their answers compare definitions.
-/

namespace Robata.LogicalNodes

open Lib

/-! ## Rows of `sqlite_schema` -/

inductive SchemaType
  | table
  | index
  | trigger
  deriving DecidableEq

/-- A row of `sqlite_schema`; `tblName` is the table that an index or a trigger is on. -/
structure SchemaRow where
  type : SchemaType
  (name tblName sql : String)
  deriving DecidableEq

/-- `_EXPECTED_SCHEMA_SQL_V1`, in the order of the statements of `_SCHEMA_V1_SQL`. -/
def schemaV1 : List SchemaRow := [
  ⟨.table, "logical_nodes", "logical_nodes",
    "CREATE TABLE logical_nodes ( node_type TEXT NOT NULL, node_logical_key TEXT NOT NULL, " ++
    "schema_version TEXT NOT NULL CHECK (schema_version = '1.0'), key_namespace TEXT NOT " ++
    "NULL, semantic_sha256 TEXT NOT NULL, identity_policy_version TEXT NOT NULL, node_json " ++
    "BLOB NOT NULL, node_json_sha256 TEXT NOT NULL, PRIMARY KEY (node_type, " ++
    "node_logical_key) ) WITHOUT ROWID"⟩,
  ⟨.table, "processing_run_nodes", "processing_run_nodes",
    "CREATE TABLE processing_run_nodes ( run_id TEXT NOT NULL, node_type TEXT NOT NULL, " ++
    "node_logical_key TEXT NOT NULL, role TEXT NOT NULL, schema_version TEXT NOT NULL " ++
    "CHECK (schema_version = '1.0'), disposition TEXT NOT NULL CHECK ( disposition IN " ++
    "('CREATED', 'REUSED', 'INVALIDATED', 'OBSERVED') ), first_work_item_id TEXT NOT NULL, " ++
    "attached_at TEXT NOT NULL, membership_json BLOB NOT NULL, membership_json_sha256 TEXT " ++
    "NOT NULL, PRIMARY KEY (run_id, node_type, node_logical_key, role), FOREIGN KEY " ++
    "(node_type, node_logical_key) REFERENCES logical_nodes (node_type, node_logical_key) " ++
    "ON UPDATE RESTRICT ON DELETE RESTRICT ) WITHOUT ROWID"⟩,
  ⟨.index, "processing_run_nodes_node_idx", "processing_run_nodes",
    "CREATE INDEX processing_run_nodes_node_idx ON processing_run_nodes (node_type, " ++
    "node_logical_key, run_id, role)"⟩,
  ⟨.index, "processing_run_nodes_creator_idx", "processing_run_nodes",
    "CREATE UNIQUE INDEX processing_run_nodes_creator_idx ON processing_run_nodes " ++
    "(node_type, node_logical_key) WHERE disposition = 'CREATED'"⟩]

/-- `_EXPECTED_REVISION_SCHEMA_SQL`, in the order of `_REVISION_SCHEMA_STATEMENTS`. -/
def revisionSchema : List SchemaRow := [
  ⟨.table, "immutable_node_revisions", "immutable_node_revisions",
    "CREATE TABLE immutable_node_revisions ( subject_type TEXT NOT NULL, subject_id TEXT " ++
    "NOT NULL, revision_id TEXT NOT NULL, schema_version TEXT NOT NULL CHECK " ++
    "(schema_version = '1.0'), revision_key_namespace TEXT NOT NULL, revision_logical_key " ++
    "TEXT NOT NULL, semantic_sha256 TEXT NOT NULL, payload_sha256 TEXT NOT NULL, " ++
    "lineage_sha256 TEXT NOT NULL, status_at_publication TEXT NOT NULL, " ++
    "eligibility_at_publication TEXT NOT NULL CHECK ( eligibility_at_publication IN " ++
    "('ELIGIBLE', 'INELIGIBLE') ), revision_policy_version TEXT NOT NULL, " ++
    "supersedes_revision_id TEXT, supersedes_revision_logical_key TEXT, published_at TEXT " ++
    "NOT NULL, revision_json BLOB NOT NULL, revision_json_sha256 TEXT NOT NULL, PRIMARY " ++
    "KEY (subject_type, subject_id, revision_id), FOREIGN KEY (subject_type, subject_id) " ++
    "REFERENCES logical_nodes (node_type, node_logical_key) ON UPDATE RESTRICT ON DELETE " ++
    "RESTRICT, FOREIGN KEY ( subject_type, subject_id, supersedes_revision_id, " ++
    "supersedes_revision_logical_key ) REFERENCES immutable_node_revisions ( subject_type, " ++
    "subject_id, revision_id, revision_logical_key ) ON UPDATE RESTRICT ON DELETE " ++
    "RESTRICT, CHECK ( (supersedes_revision_id IS NULL AND supersedes_revision_logical_key " ++
    "IS NULL) OR ( supersedes_revision_id IS NOT NULL AND supersedes_revision_logical_key " ++
    "IS NOT NULL ) ) ) WITHOUT ROWID"⟩,
  ⟨.index, "immutable_node_revisions_id_idx", "immutable_node_revisions",
    "CREATE UNIQUE INDEX immutable_node_revisions_id_idx ON immutable_node_revisions " ++
    "(revision_id)"⟩,
  ⟨.index, "immutable_node_revisions_logical_key_idx", "immutable_node_revisions",
    "CREATE UNIQUE INDEX immutable_node_revisions_logical_key_idx ON " ++
    "immutable_node_revisions (subject_type, subject_id, revision_logical_key)"⟩,
  ⟨.index, "immutable_node_revisions_owner_identity_idx", "immutable_node_revisions",
    "CREATE UNIQUE INDEX immutable_node_revisions_owner_identity_idx ON " ++
    "immutable_node_revisions ( subject_type, subject_id, revision_id, " ++
    "revision_logical_key )"⟩,
  ⟨.table, "selection_decisions", "selection_decisions",
    "CREATE TABLE selection_decisions ( subject_type TEXT NOT NULL, subject_id TEXT NOT " ++
    "NULL, selection_decision_id TEXT NOT NULL, schema_version TEXT NOT NULL CHECK " ++
    "(schema_version = '1.0'), selection_key_namespace TEXT NOT NULL, " ++
    "selection_decision_logical_key TEXT NOT NULL, semantic_sha256 TEXT NOT NULL, " ++
    "selected_revision_id TEXT NOT NULL, selected_revision_logical_key TEXT NOT NULL, " ++
    "previous_selection_decision_id TEXT, previous_selection_decision_logical_key TEXT, " ++
    "selection_sequence INTEGER NOT NULL CHECK (selection_sequence >= 1), " ++
    "selection_policy_version TEXT NOT NULL, projection_version TEXT NOT NULL, selected_at " ++
    "TEXT NOT NULL, decision_json BLOB NOT NULL, decision_json_sha256 TEXT NOT NULL, " ++
    "PRIMARY KEY (subject_type, subject_id, selection_decision_id), FOREIGN KEY ( " ++
    "subject_type, subject_id, selected_revision_id, selected_revision_logical_key ) " ++
    "REFERENCES immutable_node_revisions ( subject_type, subject_id, revision_id, " ++
    "revision_logical_key ) ON UPDATE RESTRICT ON DELETE RESTRICT, FOREIGN KEY ( " ++
    "subject_type, subject_id, previous_selection_decision_id, " ++
    "previous_selection_decision_logical_key ) REFERENCES selection_decisions ( " ++
    "subject_type, subject_id, selection_decision_id, selection_decision_logical_key ) ON " ++
    "UPDATE RESTRICT ON DELETE RESTRICT, CHECK ( ( previous_selection_decision_id IS NULL " ++
    "AND previous_selection_decision_logical_key IS NULL ) OR ( " ++
    "previous_selection_decision_id IS NOT NULL AND " ++
    "previous_selection_decision_logical_key IS NOT NULL ) ) ) WITHOUT ROWID"⟩,
  ⟨.index, "selection_decisions_id_idx", "selection_decisions",
    "CREATE UNIQUE INDEX selection_decisions_id_idx ON selection_decisions " ++
    "(selection_decision_id)"⟩,
  ⟨.index, "selection_decisions_logical_key_idx", "selection_decisions",
    "CREATE UNIQUE INDEX selection_decisions_logical_key_idx ON selection_decisions ( " ++
    "subject_type, subject_id, selection_decision_logical_key )"⟩,
  ⟨.index, "selection_decisions_sequence_idx", "selection_decisions",
    "CREATE UNIQUE INDEX selection_decisions_sequence_idx ON selection_decisions " ++
    "(subject_type, subject_id, selection_sequence)"⟩,
  ⟨.index, "selection_decisions_owner_identity_idx", "selection_decisions",
    "CREATE UNIQUE INDEX selection_decisions_owner_identity_idx ON selection_decisions ( " ++
    "subject_type, subject_id, selection_decision_id, selection_decision_logical_key )"⟩,
  ⟨.index, "selection_decisions_projection_source_idx", "selection_decisions",
    "CREATE UNIQUE INDEX selection_decisions_projection_source_idx ON selection_decisions " ++
    "( subject_type, subject_id, selection_decision_id, selected_revision_id, " ++
    "selection_policy_version, projection_version, selected_at )"⟩,
  ⟨.index, "selection_decisions_genesis_idx", "selection_decisions",
    "CREATE UNIQUE INDEX selection_decisions_genesis_idx ON selection_decisions " ++
    "(subject_type, subject_id) WHERE previous_selection_decision_id IS NULL"⟩,
  ⟨.index, "selection_decisions_successor_idx", "selection_decisions",
    "CREATE UNIQUE INDEX selection_decisions_successor_idx ON selection_decisions ( " ++
    "subject_type, subject_id, previous_selection_decision_id ) WHERE " ++
    "previous_selection_decision_id IS NOT NULL"⟩,
  ⟨.table, "current_selections", "current_selections",
    "CREATE TABLE current_selections ( subject_type TEXT NOT NULL, subject_id TEXT NOT " ++
    "NULL, schema_version TEXT NOT NULL CHECK (schema_version = '1.0'), " ++
    "selected_revision_id TEXT NOT NULL, selection_decision_id TEXT NOT NULL, " ++
    "selection_policy_version TEXT NOT NULL, projection_version TEXT NOT NULL, selected_at " ++
    "TEXT NOT NULL, current_json BLOB NOT NULL, current_json_sha256 TEXT NOT NULL, PRIMARY " ++
    "KEY (subject_type, subject_id), FOREIGN KEY (subject_type, subject_id, " ++
    "selected_revision_id) REFERENCES immutable_node_revisions (subject_type, subject_id, " ++
    "revision_id) ON UPDATE RESTRICT ON DELETE RESTRICT, FOREIGN KEY ( subject_type, " ++
    "subject_id, selection_decision_id, selected_revision_id, selection_policy_version, " ++
    "projection_version, selected_at ) REFERENCES selection_decisions ( subject_type, " ++
    "subject_id, selection_decision_id, selected_revision_id, selection_policy_version, " ++
    "projection_version, selected_at ) ON UPDATE RESTRICT ON DELETE RESTRICT ) WITHOUT " ++
    "ROWID"⟩,
  ⟨.trigger, "immutable_node_revisions_no_update", "immutable_node_revisions",
    "CREATE TRIGGER immutable_node_revisions_no_update BEFORE UPDATE ON " ++
    "immutable_node_revisions BEGIN SELECT RAISE(ABORT, 'immutable node revisions cannot " ++
    "be updated'); END"⟩,
  ⟨.trigger, "immutable_node_revisions_no_delete", "immutable_node_revisions",
    "CREATE TRIGGER immutable_node_revisions_no_delete BEFORE DELETE ON " ++
    "immutable_node_revisions BEGIN SELECT RAISE(ABORT, 'immutable node revisions cannot " ++
    "be deleted'); END"⟩,
  ⟨.trigger, "selection_decisions_no_update", "selection_decisions",
    "CREATE TRIGGER selection_decisions_no_update BEFORE UPDATE ON selection_decisions " ++
    "BEGIN SELECT RAISE(ABORT, 'selection decisions cannot be updated'); END"⟩,
  ⟨.trigger, "selection_decisions_no_delete", "selection_decisions",
    "CREATE TRIGGER selection_decisions_no_delete BEFORE DELETE ON selection_decisions " ++
    "BEGIN SELECT RAISE(ABORT, 'selection decisions cannot be deleted'); END"⟩]

/-- `_EXPECTED_SCHEMA_SQL_V2`. -/
def schemaV2 : List SchemaRow := schemaV1 ++ revisionSchema

inductive ExpectedVersion
  | one
  | two

def ExpectedVersion.number : ExpectedVersion → Nat
  | .one => 1
  | .two => 2

def ExpectedVersion.schema : ExpectedVersion → List SchemaRow
  | .one => schemaV1
  | .two => schemaV2

def ExpectedVersion.tableNames (version : ExpectedVersion) : List String :=
  (version.schema.filter (·.type = .table)).map (·.name)

/-! ## The database -/

/-- The codes of `LogicalNodeRegistryError` that opening uses, and what an operation raises once it
has verified the database. -/
inductive RegistryError
  | integrityError (message : String)
  | storageIoError (message : String)
  | operation (message : String)

/-- What is committed: `user_version`, the schema, and the rows of the tables. -/
structure Database (Rows : Type) where
  userVersion : Nat
  schema : List SchemaRow
  rows : Rows

variable {Rows : Type}

namespace Database

variable (db : Database Rows)

/-- `schema_sql` as the pairs of its entries. -/
def schemaSql (rows : List SchemaRow) : List (String × String) :=
  rows.map fun row => (row.name, row.sql)

/-- Equality of two dictionaries. -/
def sameEntries (entries expected : List (String × String)) : Bool :=
  entries.all (expected.contains ·) && expected.all (entries.contains ·)

/-- The version of `_verify_database_schema`. -/
def checkVersion (version : ExpectedVersion) : Except RegistryError Unit :=
  if db.userVersion ≠ version.number then
    .error (.integrityError
      ("logical-node registry schema version is not " ++ toString version.number))
  else .ok ()

/-- The definitions of `_verify_database_schema`. -/
def checkSchema (version : ExpectedVersion) : Except RegistryError Unit :=
  if !sameEntries (schemaSql db.schema) (schemaSql version.schema) then
    .error (.integrityError "SQLite logical-node DDL does not match the canonical schema")
  else .ok ()

/-- The first expected table whose definition is another one, which `table_info` and
`foreign_key_list` show. -/
def differingTable (version : ExpectedVersion) : Option SchemaRow :=
  (version.schema.filter (·.type = .table)).find? fun row => !db.schema.contains row

/-- The indexes that `index_list` of the expected tables gives, with their definitions. -/
def tableIndexes (version : ExpectedVersion) : List SchemaRow :=
  db.schema.filter fun row => row.type = .index && version.tableNames.contains row.tblName

def indexesMatch (version : ExpectedVersion) : Bool :=
  sameEntries (schemaSql (db.tableIndexes version))
    (schemaSql (version.schema.filter (·.type = .index)))

/-- The tables and indexes of `_verify_database_schema`. -/
def checkTables (version : ExpectedVersion) : Except RegistryError Unit :=
  match db.differingTable version with
  | some row =>
    .error (.integrityError
      ("SQLite table '" ++ row.name ++ "' does not match the required schema"))
  | none =>
    if !db.indexesMatch version then
      .error (.integrityError "SQLite registry indexes do not match the canonical schema")
    else .ok ()

variable (healthy : Rows → Bool)

/-- `_verify_database_health` of a file that SQLite alone writes, whose `quick_check` is "ok";
`healthy` says that `foreign_key_check` finds no row. -/
def checkHealth : Except RegistryError Unit :=
  if !healthy db.rows then
    .error (.integrityError "SQLite foreign-key check found orphaned registry rows")
  else .ok ()

/-- `_verify_database_schema` and `_verify_database_health` inside a transaction. -/
def verify (version : ExpectedVersion) : Except RegistryError Unit := do
  db.checkVersion version
  db.checkSchema version
  db.checkTables version
  db.checkHealth healthy

end Database

end Robata.LogicalNodes
