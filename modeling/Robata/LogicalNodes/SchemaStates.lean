import Robata.Lib.Transaction
import Robata.LogicalNodes.SchemaOpening

/-!
# The states of a registry database

Where `user_version` is never set back, the database is at version 0 with the first statements of
the script done, at version 1 with the version 1 schema, or at version 2 with all of it, and every
statement moves it forward.
-/

namespace Robata.LogicalNodes

open Lib List

variable {Rows : Type} {healthy : Rows → Bool} {db : Database Rows}

/-! ## The statements -/

theorem schemaV2_names_nodup : (schemaV2.map (·.name)).Nodup := by decide +kernel

theorem schemaV1_names_nodup : (schemaV1.map (·.name)).Nodup := by
  have hnames := schemaV2_names_nodup
  unfold schemaV2 at hnames
  rw [map_append, nodup_append] at hnames
  exact hnames.1

theorem exists?_iff {name : String} : db.exists? name = true ↔ name ∈ db.schema.map (·.name) := by
  unfold Database.exists?
  simp

theorem foldlM_create {rows : List SchemaRow} (hnodup : ((db.schema ++ rows).map (·.name)).Nodup) :
    rows.foldlM Database.create db = .ok { db with schema := db.schema ++ rows } := by
  induction rows generalizing db with
  | nil =>
    rw [append_nil]
    rfl
  | cons row rows ih =>
    have hfresh : db.exists? row.name ≠ true := by
      intro hexists
      rw [map_append, nodup_append] at hnodup
      exact hnodup.2.2 _ (exists?_iff.mp hexists) _ (by simp) rfl
    have hcreate : db.create row = .ok { db with schema := db.schema ++ [row] } := by
      unfold Database.create
      rw [if_neg hfresh]
    rw [foldlM_cons, hcreate, ok_bind]
    rw [ih (by simpa using hnodup)]
    simp

/-! ## The checks -/

theorem sameEntries_self (entries : List (String × String)) :
    Database.sameEntries entries entries = true := by
  unfold Database.sameEntries
  simp

variable {version : ExpectedVersion}

theorem checkVersion_ok (h : db.userVersion = version.number) :
    db.checkVersion version = .ok () := by
  unfold Database.checkVersion
  rw [if_neg (by simpa using h)]

theorem checkSchema_ok (h : db.schema = version.schema) : db.checkSchema version = .ok () := by
  unfold Database.checkSchema
  rw [h, sameEntries_self]
  simp

theorem checkHealth_ok (h : healthy db.rows = true) : db.checkHealth healthy = .ok () := by
  unfold Database.checkHealth
  rw [h]
  simp

theorem indexes_on_tables (version : ExpectedVersion) :
    version.schema.all (fun row => decide (row.type = .index) →
      version.tableNames.contains row.tblName) = true := by
  cases version <;> decide +kernel

theorem revisionSchema_on_other_tables :
    revisionSchema.all (fun row => !ExpectedVersion.one.tableNames.contains row.tblName) = true := by
  decide +kernel

theorem checkTables_of_indexes (htables : ∀ row ∈ version.schema, row ∈ db.schema)
    (hindexes : db.tableIndexes version = version.schema.filter (·.type = .index)) :
    db.checkTables version = .ok () := by
  have hnone : db.differingTable version = none := by
    unfold Database.differingTable
    rw [find?_eq_none]
    intro row hrow
    have hmem := htables row (mem_filter.mp hrow).1
    simpa using hmem
  unfold Database.checkTables Database.indexesMatch
  rw [hnone, hindexes, sameEntries_self]
  simp

theorem filter_indexes (version : ExpectedVersion) :
    version.schema.filter (fun row => decide (row.type = .index) &&
      version.tableNames.contains row.tblName) =
      version.schema.filter fun row => decide (row.type = .index) := by
  apply filter_congr
  intro row hrow
  have hon := all_eq_true.mp (indexes_on_tables version) row hrow
  by_cases hindex : row.type = .index
  · simp only [hindex] at hon ⊢
    simpa using hon
  · simp [hindex]

theorem checkTables_ok (h : db.schema = version.schema) : db.checkTables version = .ok () := by
  apply checkTables_of_indexes
  · intro row hrow
    rw [h]
    exact hrow
  · unfold Database.tableIndexes
    rw [h]
    exact filter_indexes version

theorem checkTables_one_of_two (h : db.schema = schemaV2) : db.checkTables .one = .ok () := by
  apply checkTables_of_indexes
  · intro row hrow
    rw [h]
    exact mem_append_left _ hrow
  · unfold Database.tableIndexes
    rw [h]
    unfold schemaV2
    rw [filter_append]
    have hrevision : revisionSchema.filter (fun row => decide (row.type = .index) &&
        ExpectedVersion.one.tableNames.contains row.tblName) = [] := by
      rw [filter_eq_nil_iff]
      intro row hrow
      have hother := all_eq_true.mp revisionSchema_on_other_tables row hrow
      simp only [Bool.not_eq_true'] at hother
      rw [hother]
      simp
    rw [hrevision, append_nil]
    exact filter_indexes .one

theorem verify_ok (hversion : db.userVersion = version.number)
    (hschema : db.schema = version.schema) (hrows : healthy db.rows = true) :
    db.verify healthy version = .ok () := by
  unfold Database.verify
  rw [checkVersion_ok hversion, checkSchema_ok hschema, checkTables_ok hschema,
    checkHealth_ok hrows]
  rfl

/-! ## Transactions -/

theorem migrate_one (hversion : db.userVersion = 1) (hschema : db.schema = schemaV1)
    (hrows : healthy db.rows = true) :
    db.migrate healthy = .ok ((), ⟨2, schemaV2, db.rows⟩) := by
  unfold Database.migrate
  have hnodup : ((db.schema ++ revisionSchema).map (·.name)).Nodup := by
    rw [hschema]
    exact schemaV2_names_nodup
  have hverify : db.verify healthy .one = .ok () := verify_ok hversion hschema hrows
  rw [if_neg (by omega), if_neg (by omega), hverify, foldlM_create hnodup, hschema]
  rfl

theorem migrate_two (hversion : db.userVersion = 2) : db.migrate healthy = .ok ((), db) := by
  unfold Database.migrate
  rw [if_pos hversion]

/-! ## States and their order -/

variable (healthy db) in
/-- The version and the schema agree, and the rows are healthy. -/
structure Consistent : Prop where
  schema : (db.userVersion = 0 ∧ ∃ k, db.schema = schemaV1.take k) ∨
    (db.userVersion = 1 ∧ db.schema = schemaV1) ∨ (db.userVersion = 2 ∧ db.schema = schemaV2)
  rows : healthy db.rows = true

theorem Root.consistent (h : Root healthy db) : Consistent healthy db := by
  cases h with
  | new hrows => exact ⟨.inl ⟨rfl, 0, rfl⟩, hrows⟩
  | versionOne hrows => exact ⟨.inr (.inl ⟨rfl, rfl⟩), hrows⟩
  | versionTwo hrows => exact ⟨.inr (.inr ⟨rfl, rfl⟩), hrows⟩

/-- Nothing that was created is dropped, and the version is not set back. -/
structure Forward (db db' : Database Rows) : Prop where
  version : db.userVersion ≤ db'.userVersion
  schema : db.schema <+: db'.schema

/-- What everybody keeps of the database. -/
def openingDiscipline (healthy : Rows → Bool) : Discipline (Database Rows) where
  Inv := Consistent healthy
  G := Forward
  refl := fun _ => ⟨le_rfl, prefix_rfl⟩
  trans := fun h h' => ⟨h.version.trans h'.version, h.schema.trans h'.schema⟩

namespace Consistent

variable (h : Consistent healthy db)
include h

theorem at_one (hone : 1 ≤ db.userVersion) (htwo : db.userVersion ≠ 2) :
    db.userVersion = 1 ∧ db.schema = schemaV1 := by
  rcases h.schema with ⟨hversion, -⟩ | hversion | ⟨hversion, -⟩
  · omega
  · exact hversion
  · exact absurd hversion htwo

theorem at_two (htwo : 2 ≤ db.userVersion) : db.userVersion = 2 ∧ db.schema = schemaV2 := by
  rcases h.schema with ⟨hversion, -⟩ | ⟨hversion, -⟩ | hversion
  · omega
  · omega
  · exact hversion

/-- The script has done the statements before its next one, and perhaps more. -/
theorem next_statement {before after : List SchemaRow}
    {row : SchemaRow} (hscript : before ++ row :: after = schemaV1)
    (hdone : before <+: db.schema) :
    (before ++ [row] <+: db.schema) ∨ (db.userVersion = 0 ∧ db.schema = before) := by
  have hwhole : before ++ [row] <+: schemaV1 := ⟨after, by rw [← hscript]; simp⟩
  rcases h.schema with ⟨hversion, k, hk⟩ | ⟨-, hschema⟩ | ⟨-, hschema⟩
  · by_cases hmore : before.length < db.schema.length
    · left
      have hprefix : db.schema <+: schemaV1 := by
        rw [hk]
        exact take_prefix _ _
      exact prefix_of_prefix_length_le hwhole hprefix (by simpa using hmore)
    · right
      exact ⟨hversion, (hdone.eq_of_length_le (by omega)).symm⟩
  · rw [hschema]
    exact .inl hwhole
  · rw [hschema]
    exact .inl (hwhole.trans (prefix_append _ _))

theorem createIfNotExists {before after : List SchemaRow}
    {row : SchemaRow} (hscript : before ++ row :: after = schemaV1)
    (hdone : before <+: db.schema) :
    Consistent healthy (db.createIfNotExists row) ∧ Forward db (db.createIfNotExists row) ∧
      before ++ [row] <+: (db.createIfNotExists row).schema ∧
      (db.createIfNotExists row).userVersion = db.userVersion ∧
      (db.createIfNotExists row).rows = db.rows := by
  rcases h.next_statement hscript hdone with hmore | ⟨hversion, hschema⟩
  · have hexists : db.exists? row.name = true := by
      rw [exists?_iff]
      exact mem_map_of_mem (hmore.subset (by simp))
    unfold Database.createIfNotExists
    rw [if_pos hexists]
    exact ⟨h, ⟨le_rfl, prefix_rfl⟩, hmore, rfl, rfl⟩
  · have hfresh : ¬db.exists? row.name = true := by
      intro hexists
      have hnames := schemaV1_names_nodup
      rw [← hscript, map_append, nodup_append] at hnames
      rw [exists?_iff, hschema] at hexists
      exact hnames.2.2 _ hexists _ (by simp) rfl
    unfold Database.createIfNotExists
    rw [if_neg hfresh]
    refine ⟨⟨.inl ⟨hversion, before.length + 1, ?_⟩, h.rows⟩, ⟨le_rfl, prefix_append _ _⟩, ?_,
      rfl, rfl⟩
    · rw [hschema, ← hscript]
      simp [take_append]
    · rw [hschema]

/-- `PRAGMA user_version = 1` below version 2, once the script has created everything. -/
theorem setUserVersion (hdone : schemaV1 <+: db.schema) (hversion : db.userVersion ≠ 2) :
    db.schema = schemaV1 ∧ Consistent healthy { db with userVersion := 1 } ∧
      Forward db { db with userVersion := 1 } := by
  have hschema : db.schema = schemaV1 := by
    rcases h.schema with ⟨-, k, hk⟩ | ⟨-, hschema⟩ | ⟨htwo, -⟩
    · have hprefix : db.schema <+: schemaV1 := by
        rw [hk]
        exact take_prefix _ _
      exact hprefix.eq_of_length_le hdone.length_le
    · exact hschema
    · exact absurd htwo hversion
  refine ⟨hschema, ⟨.inr (.inl ⟨rfl, hschema⟩), h.rows⟩, ?_, prefix_rfl⟩
  show db.userVersion ≤ 1
  rcases h.schema with ⟨hzero, -⟩ | ⟨hone, -⟩ | ⟨htwo, -⟩
  · omega
  · omega
  · exact absurd htwo hversion

theorem migrate (hone : 1 ≤ db.userVersion) :
    db.migrate healthy = .ok ((), ⟨2, schemaV2, db.rows⟩) := by
  by_cases htwo : db.userVersion = 2
  · have hschema := (h.at_two (by omega)).2
    rw [migrate_two htwo, ← htwo, ← hschema]
  · obtain ⟨hversion, hschema⟩ := h.at_one hone htwo
    exact migrate_one hversion hschema h.rows

theorem migrated (hone : 1 ≤ db.userVersion) :
    Consistent healthy ⟨2, schemaV2, db.rows⟩ ∧ Forward db ⟨2, schemaV2, db.rows⟩ := by
  refine ⟨⟨.inr (.inr ⟨rfl, rfl⟩), h.rows⟩, ?_, ?_⟩
  · show db.userVersion ≤ 2
    rcases h.schema with ⟨hversion, -⟩ | ⟨hversion, -⟩ | ⟨hversion, -⟩ <;> omega
  · by_cases htwo : db.userVersion = 2
    · rw [(h.at_two (by omega)).2]
    · rw [(h.at_one hone htwo).2]
      exact prefix_append _ _

theorem operate (htwo : 2 ≤ db.userVersion) (operation : RegistryOperation healthy) :
    (∃ message, db.operate healthy operation = .error (.operation message)) ∨
      ∃ rows, db.operate healthy operation = .ok ((), { db with rows := rows }) ∧
        healthy rows = true := by
  obtain ⟨hversion, hschema⟩ := h.at_two htwo
  have hverify : db.verify healthy .two = .ok () := verify_ok hversion hschema h.rows
  unfold Database.operate
  rw [hverify]
  cases hwrite : operation.write db.rows with
  | error message => exact .inl ⟨message, rfl⟩
  | ok rows => exact .inr ⟨rows, rfl, operation.keeps h.rows hwrite⟩

end Consistent

end Robata.LogicalNodes
