import Robata.LogicalNodes.SchemaStates

/-!
# Opening the registry by many processes

As long as nobody sets the version back from 2 and nobody verifies version 1 in a database that has
moved on to version 2, every construction returns, every operation finds version 2, and the registry
can be opened from every reachable state.
-/

namespace Robata.LogicalNodes

open Lib List
open Database (sameEntries schemaSql)
open Method (query transact)
open Prog (bind_assoc perform)
open RegistryCommand (checkHealth)

variable {Rows : Type} (healthy : Rows → Bool)

/-- Neither the last statement of the script nor the verification of version 1 outside a transaction
meets a database that is at version 2 already. -/
def CalmCommand : RegistryCommand healthy → Database Rows → Prop
  | .setUserVersion, db => db.userVersion ≠ 2
  | .checkVersion .one, db => db.userVersion ≠ 2
  | .checkSchema .one, db => db.userVersion ≠ 2
  | _, _ => True

variable {healthy} {db : Database Rows}

section Programs

/-- Programs over the registry that return, with `P` from then on. -/
abbrev ReturnsWith {α : Type} (P : α → Database Rows → Prop) (p : RegistryProg healthy α)
    (db : Database Rows) : Prop :=
  Safe (RegistryCommand.run healthy) (CalmCommand healthy) (openingDiscipline healthy) (Succeeds P)
    p db

theorem createStatements_returns {rows before : List SchemaRow} (hscript : before ++ rows = schemaV1)
    (hdone : before <+: db.schema) :
    ReturnsWith (fun _ later => schemaV1 <+: later.schema) (createStatements healthy rows) db := by
  induction rows generalizing before db with
  | nil =>
    intro later hlater hforward
    rw [append_nil] at hscript
    exact ⟨(), rfl, hscript ▸ hdone.trans hforward.schema⟩
  | cons row rows ih =>
    refine Safe.perform_bind ?_ ?_ ?_
    · intro later hlater hforward _
      have hcreated := Consistent.createIfNotExists hlater hscript (hdone.trans hforward.schema)
      exact ⟨hcreated.1, hcreated.2.1⟩
    · intro later _ hlater hforward _ _
      have hcreated := Consistent.createIfNotExists hlater hscript (hdone.trans hforward.schema)
      exact ih (by simpa using hscript) hcreated.2.2.1
    · intro later e hlater hforward _ hanswer
      cases hanswer

theorem runSchemaScript_returns (h : Consistent healthy db) :
    ReturnsWith (fun _ later => 1 ≤ later.userVersion) (runSchemaScript healthy) db := by
  have hcreate : ReturnsWith (fun _ later => schemaV1 <+: later.schema)
      (createStatements healthy schemaV1) db :=
    createStatements_returns (nil_append schemaV1) nil_prefix
  refine Safe.succeeds_bind h hcreate ?_
  intro _ created hcreated _ hdone
  apply Safe.perform
  refine Safe.perform_bind ?_ ?_ ?_
  · intro later hlater hforward hcalm
    exact (Consistent.setUserVersion hlater (hdone.trans hforward.schema) hcalm).2
  · intro later _ _ _ _ _ last _ hforward
    exact ⟨_, rfl, hforward.version⟩
  · intro later e _ _ _ hanswer
    cases hanswer

theorem check_returns {α : Type} {P : α → Database Rows → Prop} {c : RegistryCommand healthy}
    {f : RegistryAnswer healthy c → RegistryProg healthy α}
    {read : Database Rows → Except RegistryError (RegistryAnswer healthy c)}
    (hrun : RegistryCommand.run healthy c = query read)
    (hread : ∀ later, Consistent healthy later → Forward db later → CalmCommand healthy c later →
      ∃ a, read later = .ok a ∧ ReturnsWith P (f a) later) :
    ReturnsWith P (perform c >>= f) db := by
  refine Safe.query_bind hrun ?_ ?_
  · intro later a hlater hforward hcalm hanswer
    obtain ⟨b, hb, hrest⟩ := hread later hlater hforward hcalm
    rw [hb] at hanswer
    cases hanswer
    exact hrest
  · intro later e hlater hforward hcalm hanswer
    obtain ⟨b, hb, -⟩ := hread later hlater hforward hcalm
    rw [hb] at hanswer
    cases hanswer

theorem checkHealth_returns {P : Unit → Database Rows → Prop}
    (hP : ∀ later, Forward db later → P () later) :
    ReturnsWith P (perform (checkHealth : RegistryCommand healthy)) db := by
  apply Safe.perform
  refine check_returns rfl ?_
  intro later hlater hforward _
  refine ⟨(), checkHealth_ok hlater.rows, ?_⟩
  intro last _ hlast
  exact ⟨(), rfl, hP last ((openingDiscipline healthy).trans hforward hlast)⟩

/-- The verification of version 1: the first two reads find version 1, the others perhaps
version 2. -/
theorem verifyDatabase_one_returns (hversion : 1 ≤ db.userVersion) :
    ReturnsWith (fun _ later => 1 ≤ later.userVersion) (verifyDatabase healthy .one) db := by
  refine check_returns rfl fun first hfirst hto hcalm => ⟨(), ?_, ?_⟩
  · exact checkVersion_ok (hfirst.at_one (hversion.trans hto.version) hcalm).1
  refine check_returns rfl fun second hsecond hto' hcalm' => ⟨(), ?_, ?_⟩
  · have hone : 1 ≤ second.userVersion := hversion.trans (hto.version.trans hto'.version)
    exact checkSchema_ok (hsecond.at_one hone hcalm').2
  refine check_returns rfl fun third hthird hto'' _ => ⟨(), ?_, ?_⟩
  · have hone : 1 ≤ third.userVersion :=
      hversion.trans (hto.version.trans (hto'.version.trans hto''.version))
    by_cases htwo : third.userVersion = 2
    · exact checkTables_one_of_two (hthird.at_two (by omega)).2
    · exact checkTables_ok (hthird.at_one hone htwo).2
  · apply checkHealth_returns
    intro later hlater
    exact hversion.trans
      (hto.version.trans (hto'.version.trans (hto''.version.trans hlater.version)))

theorem verifyDatabase_two_returns (hversion : 2 ≤ db.userVersion) :
    ReturnsWith (fun _ later => 2 ≤ later.userVersion) (verifyDatabase healthy .two) db := by
  refine check_returns rfl fun first hfirst hto _ => ⟨(), ?_, ?_⟩
  · exact checkVersion_ok (hfirst.at_two (hversion.trans hto.version)).1
  refine check_returns rfl fun second hsecond hto' _ => ⟨(), ?_, ?_⟩
  · exact checkSchema_ok (hsecond.at_two (hversion.trans (hto.version.trans hto'.version))).2
  refine check_returns rfl fun third hthird hto'' _ => ⟨(), ?_, ?_⟩
  · exact checkTables_ok (hthird.at_two
      (hversion.trans (hto.version.trans (hto'.version.trans hto''.version)))).2
  · apply checkHealth_returns
    intro later hlater
    exact hversion.trans
      (hto.version.trans (hto'.version.trans (hto''.version.trans hlater.version)))

theorem upgradeDatabase_returns (h : Consistent healthy db) (hversion : 1 ≤ db.userVersion) :
    ReturnsWith (fun _ later => 2 ≤ later.userVersion) (upgradeDatabase healthy) db := by
  refine Safe.succeeds_bind h (verifyDatabase_one_returns hversion) ?_
  intro _ verified hverified _ hone
  refine Safe.transact_bind (·.migrate healthy) rfl ?_ ?_
  · intro later _ migrated hlater hforward _ hanswer
    have hone' : 1 ≤ later.userVersion := le_trans hone hforward.version
    rw [hlater.migrate hone'] at hanswer
    cases hanswer
    obtain ⟨hmigrated, hto⟩ := hlater.migrated hone'
    exact ⟨hmigrated, hto, verifyDatabase_two_returns le_rfl⟩
  · intro later e hlater hforward _ hanswer
    rw [hlater.migrate (le_trans hone hforward.version)] at hanswer
    cases hanswer

theorem initializeDatabase_returns :
    ReturnsWith (fun _ later => 2 ≤ later.userVersion) (initializeDatabase healthy) db := by
  refine check_returns rfl fun first hfirst _ _ => ⟨first.userVersion, rfl, ?_⟩
  unfold initializeFrom
  by_cases hzero : first.userVersion = 0
  · rw [if_pos hzero]
    refine Safe.succeeds_bind hfirst (runSchemaScript_returns hfirst) ?_
    intro _ later hlater _ hone
    exact upgradeDatabase_returns hlater hone
  · rw [if_neg hzero]
    by_cases hone : first.userVersion = 1
    · rw [if_pos hone]
      exact upgradeDatabase_returns hfirst (by omega)
    · have htwo : first.userVersion = 2 := by
        rcases hfirst.schema with ⟨hversion, -⟩ | ⟨hversion, -⟩ | ⟨hversion, -⟩
        · exact absurd hversion hzero
        · exact absurd hversion hone
        · exact hversion
      rw [if_neg hone, if_pos htwo]
      exact verifyDatabase_two_returns (by omega)

theorem operateAll_returns {operations : List (RegistryOperation healthy)}
    (hversion : 2 ≤ db.userVersion) :
    ReturnsWith (fun _ _ => True) (operateAll healthy operations) db := by
  induction operations generalizing db with
  | nil => exact fun later _ _ => ⟨(), rfl, trivial⟩
  | cons operation rest ih =>
    intro later hlater hforward _
    have htwo : 2 ≤ later.userVersion := hversion.trans hforward.version
    have hrun : RegistryCommand.run healthy (.operate operation) =
        transact fun db => db.operate healthy operation := rfl
    rw [hrun]
    rcases Consistent.operate hlater htwo operation with ⟨message, hanswer⟩ | ⟨rows, hanswer, hrows⟩
    · have heq : transact (·.operate healthy operation) later =
          (.error (.operation message), later) := by
        rw [transact, hanswer]
      rw [heq]
      exact ⟨hlater, (openingDiscipline healthy).refl later, ih htwo⟩
    · have heq : transact (·.operate healthy operation) later =
          (.ok (), { later with rows := rows }) := by
        rw [transact, hanswer]
      rw [heq]
      exact ⟨⟨hlater.schema, hrows⟩, ⟨le_rfl, prefix_rfl⟩, ih htwo⟩

theorem session_returns (h : Consistent healthy db) (operations : List (RegistryOperation healthy)) :
    ReturnsWith (fun _ _ => True) (session healthy operations) db := by
  refine Safe.succeeds_bind h initializeDatabase_returns ?_
  intro _ later _ _ htwo
  exact operateAll_returns htwo

end Programs

/-! ## A construction that runs alone -/

section Alone

variable (healthy)

/-- The program runs to its end with nobody else running. -/
abbrev runAlone {α : Type} (p : RegistryProg healthy α) : Method (Database Rows) RegistryError α :=
  Prog.execute (RegistryCommand.run healthy) p

variable {healthy}

theorem runAlone_bind {α β : Type} {p : RegistryProg healthy α} {f : α → RegistryProg healthy β}
    {a : α} {db' : Database Rows} (h : runAlone healthy p db = (.ok a, db')) :
    runAlone healthy (p >>= f) db = runAlone healthy (f a) db' := by
  unfold runAlone at h ⊢
  rw [Prog.execute_bind]
  exact Method.bind_of_ok h

variable {c : RegistryCommand healthy}

theorem runAlone_perform {a : RegistryAnswer healthy c}
    {db' : Database Rows} (h : RegistryCommand.run healthy c db = (.ok a, db')) :
    runAlone healthy (perform c) db = (.ok a, db') := by
  show ((RegistryCommand.run healthy c db).1, (RegistryCommand.run healthy c db).2) = _
  rw [h]

theorem runAlone_query {read : Database Rows → Except RegistryError (RegistryAnswer healthy c)}
    {a : RegistryAnswer healthy c} (hrun : RegistryCommand.run healthy c = query read)
    (h : read db = .ok a) : runAlone healthy (perform c) db = (.ok a, db) := by
  apply runAlone_perform
  rw [hrun, query, h]

theorem runAlone_fails {α : Type} {f : RegistryAnswer healthy c → RegistryProg healthy α}
    {read : Database Rows → Except RegistryError (RegistryAnswer healthy c)} {e : RegistryError}
    (hrun : RegistryCommand.run healthy c = query read) (h : read db = .error e) :
    runAlone healthy (perform c >>= f) db = (.error e, db) := by
  unfold runAlone
  rw [Prog.execute_perform_bind, hrun, query, h]

theorem createStatements_alone {rows before : List SchemaRow} (h : Consistent healthy db)
    (hscript : before ++ rows = schemaV1) (hdone : before <+: db.schema) :
    ∃ db', runAlone healthy (createStatements healthy rows) db = (.ok (), db') ∧
      Consistent healthy db' ∧ schemaV1 <+: db'.schema ∧ db'.userVersion = db.userVersion ∧
      db'.rows = db.rows := by
  induction rows generalizing before db with
  | nil =>
    rw [append_nil] at hscript
    exact ⟨db, rfl, h, hscript ▸ hdone, rfl, rfl⟩
  | cons row rows ih =>
    obtain ⟨hcreated, -, hmore, hversion, hrows⟩ := h.createIfNotExists hscript hdone
    obtain ⟨db', hrun, hfinal, hall, hversion', hrows'⟩ :=
      ih hcreated (by simpa using hscript) hmore
    refine ⟨db', ?_, hfinal, hall, hversion'.trans hversion, hrows'.trans hrows⟩
    exact hrun

theorem verifyDatabase_alone {version : ExpectedVersion} (hversion : db.userVersion = version.number)
    (hschema : db.schema = version.schema) (hrows : healthy db.rows = true) :
    runAlone healthy (verifyDatabase healthy version) db = (.ok (), db) := by
  unfold verifyDatabase
  rw [runAlone_bind (runAlone_query rfl (checkVersion_ok hversion)),
    runAlone_bind (runAlone_query rfl (checkSchema_ok hschema)),
    runAlone_bind (runAlone_query rfl (checkTables_ok hschema))]
  exact runAlone_query rfl (checkHealth_ok hrows)

theorem upgradeDatabase_alone (hversion : db.userVersion = 1) (hschema : db.schema = schemaV1)
    (hrows : healthy db.rows = true) :
    runAlone healthy (upgradeDatabase healthy) db = (.ok (), ⟨2, schemaV2, db.rows⟩) := by
  have hmigrate : RegistryCommand.run healthy .migrate db = (.ok (), ⟨2, schemaV2, db.rows⟩) := by
    show transact _ db = _
    rw [transact, migrate_one hversion hschema hrows]
  have hone : runAlone healthy (verifyDatabase healthy .one) db = (.ok (), db) :=
    verifyDatabase_alone hversion hschema hrows
  unfold upgradeDatabase
  rw [runAlone_bind hone, runAlone_bind (runAlone_perform hmigrate)]
  exact verifyDatabase_alone rfl rfl hrows

/-- A construction alone ends at version 2 with the canonical schema and leaves the rows. -/
theorem Consistent.initializeDatabase_alone (h : Consistent healthy db) :
    runAlone healthy (initializeDatabase healthy) db = (.ok (), ⟨2, schemaV2, db.rows⟩) := by
  unfold initializeDatabase
  have hread : runAlone healthy (perform RegistryCommand.userVersion) db =
      (.ok db.userVersion, db) := rfl
  rw [runAlone_bind hread]
  unfold initializeFrom
  rcases h.schema with ⟨hversion, -⟩ | ⟨hversion, hschema⟩ | ⟨hversion, hschema⟩
  · rw [if_pos hversion]
    obtain ⟨created, hcreate, hconsistent, hall, hsame, hrows⟩ :=
      createStatements_alone h (nil_append schemaV1) nil_prefix
    obtain ⟨hschema, -, -⟩ := hconsistent.setUserVersion hall (by omega)
    have hscript : runAlone healthy (runSchemaScript healthy) db =
        (.ok (), { created with userVersion := 1 }) := by
      unfold runSchemaScript
      rw [runAlone_bind hcreate]
      exact runAlone_perform rfl
    have hupgrade : runAlone healthy (upgradeDatabase healthy) { created with userVersion := 1 } =
        (.ok (), ⟨2, schemaV2, created.rows⟩) :=
      upgradeDatabase_alone rfl hschema hconsistent.rows
    rw [runAlone_bind hscript, hupgrade, hrows]
  · rw [if_neg (by omega), if_pos hversion]
    exact upgradeDatabase_alone hversion hschema h.rows
  · rw [if_neg (by omega), if_neg (by omega), if_pos hversion]
    have htwo : runAlone healthy (verifyDatabase healthy .two) db = (.ok (), db) :=
      verifyDatabase_alone hversion hschema h.rows
    rw [htwo, ← hversion, ← hschema]

end Alone

/-! ## Opening by many processes -/

/-- In every run in which neither the end of the script nor the verification of version 1 meets a
database at version 2, the version never decreases, every process that has come to an end returned,
and a further construction that runs alone leaves version 2, the canonical schema and the rows. -/
theorem opening_safe_of_calm {root : Database Rows} (hroot : Root healthy root)
    {w w' : World (Database Rows) (List (RegistryOperation healthy)) (RegistryCommand healthy)
      (RegistryAnswer healthy) RegistryError Unit}
    (hbefore : Steps (nodeRegistry healthy) (fun _ _ => True) (CalmCommand healthy)
      (World.initial root) w)
    (hafter : Steps (nodeRegistry healthy) (fun _ _ => True) (CalmCommand healthy) w w') :
    w.db.userVersion ≤ w'.db.userVersion ∧
      (∀ job ∈ w'.jobs, ∀ result, job.rest = .done result → result = .ok ()) ∧
      runAlone healthy (initializeDatabase healthy) w'.db =
        (.ok (), ⟨2, schemaV2, w'.db.rows⟩) := by
  have hsession : ∀ operations s, (openingDiscipline healthy).Inv s → True →
      Safe (nodeRegistry healthy).run (CalmCommand healthy) (openingDiscipline healthy)
        (Succeeds fun _ _ => True) ((nodeRegistry healthy).method operations) s :=
    fun operations s hs _ => session_returns hs operations
  have hkeeps : Keeps (nodeRegistry healthy) (CalmCommand healthy) (openingDiscipline healthy)
      (fun _ _ => Succeeds fun _ _ => True) w :=
    (Steps.keeps hsession (Keeps.initial hroot.consistent) hbefore).1
  obtain ⟨hkeeps', hforward⟩ := Steps.keeps hsession hkeeps hafter
  refine ⟨hforward.version, ?_, Consistent.initializeDatabase_alone hkeeps'.inv⟩
  intro job hjob result hdone
  obtain ⟨a, rfl, -⟩ := hkeeps'.returned hjob hdone
  rfl

/-! ## Two processes on a new root -/

/-- Rows without foreign keys. -/
def sampleHealthy : List String → Bool := fun _ => true

def sampleRoot : Database (List String) := ⟨0, [], ["node"]⟩

instance CalmCommand.decidable (c : RegistryCommand healthy) (db : Database Rows) :
    Decidable (CalmCommand healthy c db) :=
  match c with
  | .setUserVersion | .checkVersion .one | .checkSchema .one =>
    inferInstanceAs (Decidable (db.userVersion ≠ 2))
  | .userVersion | .createIfNotExists _ | .checkVersion .two | .checkSchema .two
  | .checkTables _ | .checkHealth | .migrate | .operate _ => inferInstanceAs (Decidable True)

def sampleOperation : RegistryOperation sampleHealthy where
  write rows := .ok (rows ++ ["revision"])
  keeps := fun _ _ => rfl

/-- Both processes read version 1 and verify it; then both migrate, verify and write a row. -/
def sampleRace : List (Choice (List (RegistryOperation sampleHealthy))) :=
  [.spawn [sampleOperation], .spawn [sampleOperation]] ++
  List.replicate 5 (.advance 0) ++ List.replicate 6 (.advance 1) ++
  List.replicate 6 (.advance 0) ++ List.replicate 5 (.advance 1)

theorem opening_safe_of_calm_raced : ∃ w, Steps (nodeRegistry sampleHealthy) (fun _ _ => True)
      (CalmCommand sampleHealthy) (World.initial ⟨1, schemaV1, ["node"]⟩) w ∧
    w.db.rows = ["node", "revision", "revision"] ∧
    (∀ job ∈ w.jobs, ∀ result, job.rest = .done result → result = .ok ()) ∧
    runAlone sampleHealthy (initializeDatabase sampleHealthy) w.db =
      (.ok (), ⟨2, schemaV2, w.db.rows⟩) := by
  have hroot : Root sampleHealthy ⟨1, schemaV1, ["node"]⟩ := .versionOne rfl
  have hplayed : (World.initial ⟨1, schemaV1, ["node"]⟩).admitsAll? (nodeRegistry sampleHealthy)
      (CalmCommand sampleHealthy) sampleRace = true ∧
      ((World.initial ⟨1, schemaV1, ["node"]⟩).play? (nodeRegistry sampleHealthy)
        sampleRace).map (·.db.rows) = some ["node", "revision", "revision"] := by
    decide +kernel
  obtain ⟨w, hw, hrows⟩ := Option.map_eq_some_iff.mp hplayed.2
  have hsteps : Steps (nodeRegistry sampleHealthy) (fun _ _ => True) (CalmCommand sampleHealthy)
      (World.initial ⟨1, schemaV1, ["node"]⟩) w :=
    steps_of_play? (allowsAll_of_admitsAll? (fun _ _ _ => trivial) hplayed.1) hw
  obtain ⟨-, hreturned, halone⟩ := opening_safe_of_calm hroot .refl hsteps
  exact ⟨w, hsteps, hrows, hreturned, halone⟩

theorem schemaV2_not_schemaV1 : sameEntries (schemaSql schemaV2) (schemaSql schemaV1) = false := by
  have hnames : ∀ row ∈ schemaV1, row.name ≠ "immutable_node_revisions" := by decide +kernel
  have hnew : "immutable_node_revisions" ∈ schemaV2.map (·.name) := by decide +kernel
  obtain ⟨new, hmem, hname⟩ := mem_map.mp hnew
  unfold sameEntries
  rw [Bool.and_eq_false_iff]
  left
  rw [all_eq_false]
  refine ⟨(new.name, new.sql), mem_map_of_mem hmem, ?_⟩
  simp only [contains_iff_mem]
  intro hold
  obtain ⟨row, hrow, hpair⟩ := mem_map.mp hold
  exact hnames row hrow ((congrArg Prod.fst hpair).trans hname)

theorem initializeDatabase_rejects (rows : Rows) :
    runAlone healthy (initializeDatabase healthy) ⟨1, schemaV2, rows⟩ =
      (.error (.integrityError "SQLite logical-node DDL does not match the canonical schema"),
        ⟨1, schemaV2, rows⟩) := by
  have hcheck : (⟨1, schemaV2, rows⟩ : Database Rows).checkSchema .one =
      .error (.integrityError "SQLite logical-node DDL does not match the canonical schema") := by
    show (if !Database.sameEntries (schemaSql schemaV2) (schemaSql schemaV1) then
      _ else _) = _
    rw [schemaV2_not_schemaV1]
    rfl
  have hversion : (⟨1, schemaV2, rows⟩ : Database Rows).checkVersion .one = .ok () :=
    checkVersion_ok rfl
  have hread : runAlone healthy (perform RegistryCommand.userVersion) ⟨1, schemaV2, rows⟩ =
      (.ok 1, ⟨1, schemaV2, rows⟩) := rfl
  unfold initializeDatabase
  rw [runAlone_bind hread]
  unfold initializeFrom
  rw [if_neg Nat.one_ne_zero, if_pos rfl]
  unfold upgradeDatabase verifyDatabase
  simp only [bind_assoc]
  rw [runAlone_bind (runAlone_query rfl hversion)]
  exact runAlone_fails rfl hcheck

theorem Consistent.runSchemaScript_at_two (h : Consistent healthy db) (htwo : db.userVersion = 2) :
    runAlone healthy (runSchemaScript healthy) db = (.ok (), { db with userVersion := 1 }) := by
  obtain ⟨created, hcreate, hconsistent, -, hversion, hrows⟩ :=
    createStatements_alone h (nil_append schemaV1) nil_prefix
  have hschema : created.schema = db.schema := by
    rw [(hconsistent.at_two (by omega)).2, (h.at_two (by omega)).2]
  unfold runSchemaScript
  rw [runAlone_bind hcreate]
  have hset : RegistryCommand.run healthy .setUserVersion created =
      (.ok (), { db with userVersion := 1 }) := by
    show (Except.ok (), Database.mk 1 created.schema created.rows) = _
    rw [hschema, hrows]
  exact runAlone_perform hset

/-- A process on the sample root, with what it still has to do. -/
abbrev sampleProcess (started : Database (List String)) (rest : RegistryProg sampleHealthy Unit) :
    Job (Database (List String)) (List (RegistryOperation sampleHealthy))
      (RegistryCommand sampleHealthy) (RegistryAnswer sampleHealthy) RegistryError Unit :=
  ⟨[], started, rest⟩

abbrev SampleSteps := Steps (nodeRegistry sampleHealthy) (fun _ _ => True) (fun _ _ => True)

/-- A process that has read version 0. -/
abbrev sampleSlower := sampleProcess sampleRoot
  (initializeFrom sampleHealthy 0 >>= fun _ => operateAll sampleHealthy [])

theorem sample_executes {β : Type} (earlier later) (started : Database (List String))
    {p : RegistryProg sampleHealthy β} (f : β → RegistryProg sampleHealthy Unit) {b : β}
    {db db' : Database (List String)} (log) (hrun : runAlone sampleHealthy p db = (.ok b, db')) :
    ∃ log', SampleSteps ⟨db, earlier ++ sampleProcess started (p >>= f) :: later, log⟩
      ⟨db', earlier ++ sampleProcess started (f b) :: later, log'⟩ :=
  Steps.execute_bind earlier later [] started f log hrun

/-- The script of the slower process sets the version back. -/
theorem opening_sets_version_back : ∃ w, SampleSteps (World.initial sampleRoot) w ∧
    w.db = ⟨1, schemaV2, ["node"]⟩ ∧
    runAlone sampleHealthy (initializeDatabase sampleHealthy) w.db =
      (.error (.integrityError "SQLite logical-node DDL does not match the canonical schema"),
        w.db) := by
  have hroot : Consistent sampleHealthy sampleRoot := Root.consistent (.new rfl)
  -- the slower process reads version 0
  have hspawn : SampleSteps (World.initial sampleRoot)
      ⟨sampleRoot, [sampleProcess sampleRoot (session sampleHealthy [])], []⟩ :=
    .single (.spawn [] trivial)
  have hsession : session sampleHealthy [] =
      perform RegistryCommand.userVersion >>= fun userVersion =>
        initializeFrom sampleHealthy userVersion >>= fun _ => operateAll sampleHealthy [] := by
    unfold session initializeDatabase
    rw [bind_assoc]
  rw [hsession] at hspawn
  have hversion : runAlone sampleHealthy (perform RegistryCommand.userVersion) sampleRoot =
      (.ok 0, sampleRoot) := rfl
  obtain ⟨log, hread⟩ := sample_executes [] [] sampleRoot (fun userVersion : Nat =>
    initializeFrom sampleHealthy userVersion >>= fun _ => operateAll sampleHealthy []) [] hversion
  -- the other one opens the registry from its beginning to its end
  have hother : SampleSteps ⟨sampleRoot, [sampleSlower], log⟩
      ⟨sampleRoot, [sampleProcess sampleRoot (session sampleHealthy []), sampleSlower], log⟩ :=
    .single (.spawn [] trivial)
  obtain ⟨log', hopen⟩ := sample_executes [] [sampleSlower] sampleRoot
    (fun _ => operateAll sampleHealthy []) log hroot.initializeDatabase_alone
  -- the slower one executes its script
  have hrest : initializeFrom sampleHealthy 0 >>= (fun _ => operateAll sampleHealthy []) =
      runSchemaScript sampleHealthy >>= fun _ => upgradeDatabase sampleHealthy >>= fun _ =>
        operateAll sampleHealthy [] := by
    unfold initializeFrom
    rw [if_pos rfl, bind_assoc]
  have htwo : Consistent sampleHealthy ⟨2, schemaV2, ["node"]⟩ := Root.consistent (.versionTwo rfl)
  obtain ⟨log'', hscript⟩ := sample_executes
    [sampleProcess sampleRoot (operateAll sampleHealthy [])] [] sampleRoot
    (fun _ => upgradeDatabase sampleHealthy >>= fun _ => operateAll sampleHealthy []) log'
    (htwo.runSchemaScript_at_two rfl)
  rw [← hrest] at hscript
  exact ⟨_, hspawn.trans (hread.trans (hother.trans (hopen.trans hscript))), rfl,
    initializeDatabase_rejects _⟩

end Robata.LogicalNodes
