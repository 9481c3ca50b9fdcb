import Robata.Perception.ArtifactStore

/-!
# Interleaved users of the artifact store

Any number of processes put and read, and any of them may stop between two file steps.  What
is read is what was put, and one key never has two payloads.  A put can be repeated unless a
process has stopped between creating one of its two files and writing it: the empty file it
leaves is taken for a complete one by every later put.
-/

namespace Robata.Perception

open Lib
open ArtifactLayout (checkedReference method putLogicalReference)
open Function (update update_of_ne update_self)
open Orderly (ended ofExcept_bind publish_bind readOr_bind)

variable {S : ArtifactLayout} {puts : ArtifactPut → Prop}

/-- The document in the reference file of a put. -/
def ArtifactPut.document (S : ArtifactLayout) (a : ArtifactPut) : ReferenceDocument :=
  LocalPerceptionArtifactReference.document ⟨a.kind, a.logicalKey, S.sha256 a.payload⟩

/-- The contents of the reference file of a put. -/
def ArtifactLayout.referenceBytes (S : ArtifactLayout) (a : ArtifactPut) : List UInt8 :=
  S.canonicalJsonBytes (a.document S)

/-- The reference file of the key names the payload of `a`. -/
def Accepted (S : ArtifactLayout) (files : Files ArtifactPath) (a : ArtifactPut) : Prop :=
  files (S.logicalReferencePath a.kind a.logicalKey) = some (S.referenceBytes a)

/-- What the digest is taken of in a run with these puts. -/
def Hashed (puts : ArtifactPut → Prop) : Set (List UInt8) :=
  {bytes | bytes = [] ∨ ∃ a, puts a ∧ (bytes = a.payload ∨ bytes = utf8 a.logicalKey)}

variable (S puts) in
/-- What a run with these puts relies on: SHA-256 does not collide, JSON is read as it was
written, and an empty text is not JSON. -/
structure Reliable : Prop where
  collisionFree : Set.InjOn S.sha256 (Hashed puts)
  roundTrip : ∀ a, puts a → S.jsonLoads (S.referenceBytes a) = some (a.document S)
  emptyText : S.jsonLoads [] = none

theorem payload_hashed {a : ArtifactPut} (ha : puts a) : a.payload ∈ Hashed puts :=
  .inr ⟨a, ha, .inl rfl⟩

theorem key_hashed {a : ArtifactPut} (ha : puts a) : utf8 a.logicalKey ∈ Hashed puts :=
  .inr ⟨a, ha, .inr rfl⟩

namespace Reliable

variable (hS : Reliable S puts) {a b : ArtifactPut} (ha : puts a) (hb : puts b)

include hS ha

theorem referenceBytes_ne_nil : S.referenceBytes a ≠ [] := by
  intro h
  have hread := hS.roundTrip a ha
  rw [h, hS.emptyText] at hread
  cases hread

include hb

theorem eq_of_referenceBytes (h : S.referenceBytes a = S.referenceBytes b) : a = b := by
  have hread := hS.roundTrip a ha
  rw [h, hS.roundTrip b hb] at hread
  have hfields : b.kind = a.kind ∧ b.logicalKey = a.logicalKey ∧
      S.sha256 b.payload = S.sha256 a.payload := by
    simpa [ArtifactPut.document, LocalPerceptionArtifactReference.document] using hread
  have hpayload := hS.collisionFree (payload_hashed hb) (payload_hashed ha) hfields.2.2
  cases b
  simp only at hfields hpayload
  rw [hfields.1, hfields.2.1, hpayload]

end Reliable

/-! ## The calls are orderly -/

/-- The bytes a put may leave in a file. -/
def LegitArtifact (S : ArtifactLayout) (puts : ArtifactPut → Prop) :
    ArtifactPath → List UInt8 → Prop
  | .object _ exactSha256, bytes => ∃ a, puts a ∧ bytes = a.payload ∧
      exactSha256 = S.sha256 a.payload
  | .logical directory keySha256, bytes => ∃ a, puts a ∧ bytes = S.referenceBytes a ∧
      directory = S.logicalDirectory a.kind ∧ keySha256 = S.sha256 (utf8 a.logicalKey)

/-- What a call that has returned has established. -/
def CallPost (S : ArtifactLayout) (puts : ArtifactPut → Prop) :
    ArtifactCall → Except ArtifactError ArtifactAnswer → Files ArtifactPath → Prop
  | .put a, .ok _, files => puts a ∧ Accepted S files a
  | .read kind logicalKey, .ok (.payload bytes), files =>
    ∃ a, puts a ∧ a.kind = kind ∧ a.logicalKey = logicalKey ∧ a.payload = bytes ∧ Accepted S files a
  | .read _ _, .ok (.digest _), _ => False
  | _, .error _, _ => True

/-- The puts of a run are among `puts`. -/
def ArtifactStarts (puts : ArtifactPut → Prop) : ArtifactCall → Files ArtifactPath → Prop
  | .put a, _ => puts a
  | .read _ _, _ => True

abbrev OrderlyCall (S : ArtifactLayout) (puts : ArtifactPut → Prop) (call : ArtifactCall) :
    FileProg ArtifactPath ArtifactError ArtifactAnswer → Files ArtifactPath → Prop :=
  Orderly .fileNotFound (LegitArtifact S puts) (CallPost S puts call) none

variable {a : ArtifactPut}

theorem put_orderly (hS : Reliable S puts) (ha : puts a) (files : Files ArtifactPath) :
    OrderlyCall S puts (.put a) (S.method (.put a)) files := by
  have hobject : LegitArtifact S puts (S.artifactPath a.kind (S.sha256 a.payload)) a.payload :=
    ⟨a, ha, rfl, rfl⟩
  have hlogical : LegitArtifact S puts (S.logicalReferencePath a.kind a.logicalKey)
      (S.referenceBytes a) := ⟨a, ha, rfl, rfl, rfl⟩
  simp only [method, ArtifactLayout.put, Prog.bind_assoc]
  refine ofExcept_bind (fun _ hvalid => ?_) fun _ _ _ _ => trivial
  have hpayload : a.payload ≠ [] := by
    split at hvalid
    · rename_i hargs
      exact hargs.2.2
    · cases hvalid
  refine publish_bind hpayload hobject (fun files₁ _ _ => ?_) (fun _ _ => trivial)
    fun _ _ => trivial
  refine publish_bind (hS.referenceBytes_ne_nil ha) hlogical (fun files₂ _ hfile => ?_)
    (fun _ _ => trivial) fun _ _ => trivial
  exact ended fun files₃ hgrow => ⟨ha, hgrow.kept (hS.referenceBytes_ne_nil ha) hfile⟩

variable {files : Files ArtifactPath}

theorem payload_of_digest (hS : Reliable S puts) (hlegit : FilesLegit (LegitArtifact S puts) files)
    {kind : String} (ha : puts a) {content : List UInt8}
    (hfile : files (S.artifactPath kind (S.sha256 a.payload)) = some content)
    (hdigest : S.sha256 content = S.sha256 a.payload) : content = a.payload := by
  have hhashed : content ∈ Hashed puts := by
    rcases hlegit _ _ hfile with hempty | ⟨b, hb, hcontent, -⟩
    · exact .inl hempty
    · rw [hcontent]
      exact payload_hashed hb
  exact hS.collisionFree hhashed (payload_hashed ha) hdigest

theorem checkedReference_eq_ok {kind logicalKey : String} {document : ReferenceDocument}
    {reference : LocalPerceptionArtifactReference}
    (h : checkedReference kind logicalKey document = .ok reference) :
    document = reference.document ∧ reference.kind = kind ∧ reference.logicalKey = logicalKey := by
  obtain ⟨indexVersion, documentKind, documentKey, exactSha256⟩ := document
  unfold checkedReference at h
  split at h
  · rename_i hentries
    split at h
    · rename_i digest hdigest
      split at h
      · cases h
        obtain ⟨hversion, hkind, hkey⟩ := hentries
        subst hversion hkind hkey hdigest
        exact ⟨rfl, rfl, rfl⟩
      · cases h
    · cases h
  · cases h

theorem read_orderly (hS : Reliable S puts) (kind logicalKey : String)
    (files : Files ArtifactPath) :
    OrderlyCall S puts (.read kind logicalKey) (S.method (.read kind logicalKey)) files := by
  simp only [method, ArtifactLayout.read, ArtifactLayout.reference, Prog.bind_assoc]
  refine ofExcept_bind (fun _ _ => ?_) fun _ _ _ _ => trivial
  refine readOr_bind (fun text files₁ hlegit₁ hgrow₁ hfile => ?_) fun _ _ => trivial
  cases hjson : S.jsonLoads text with
  | none => exact ofExcept_bind (fun _ h => (by cases h)) fun _ _ _ _ => trivial
  | some document =>
    refine ofExcept_bind (fun reference hreference => ?_) fun _ _ _ _ => trivial
    obtain ⟨hdocument, hkind, hkey⟩ := checkedReference_eq_ok hreference
    -- the text is the reference that some put has written
    obtain ⟨a, ha, hbytes, -⟩ : LegitArtifact S puts _ text := by
      refine (hlegit₁ _ _ hfile).resolve_left ?_
      rintro rfl
      rw [hS.emptyText] at hjson
      cases hjson
    have hsame : reference = ⟨a.kind, a.logicalKey, S.sha256 a.payload⟩ := by
      rw [hbytes, hS.roundTrip a ha, Option.some.injEq] at hjson
      rw [← hjson] at hdocument
      cases reference
      simpa [ArtifactPut.document, LocalPerceptionArtifactReference.document, eq_comm] using
        hdocument
    have haccepted : Accepted S files₁ a := by
      rw [Accepted, ← hbytes, ← hfile, ← hkind, ← hkey, hsame]
    refine readOr_bind (fun payload files₂ hlegit₂ hgrow₂ hobject => ?_) fun _ _ => trivial
    refine ofExcept_bind (fun bytes hchecked => ?_) fun _ _ _ _ => trivial
    split at hchecked
    · rename_i hdigest
      cases hchecked
      rw [hsame] at hobject hdigest
      have hpayload := payload_of_digest hS hlegit₂ ha hobject hdigest
      refine ended fun files₃ hgrow₃ => ⟨a, ha, ?_, ?_, hpayload.symm, ?_⟩
      · rw [← hkind, hsame]
      · rw [← hkey, hsame]
      · exact (hgrow₂.trans hgrow₃).kept (hS.referenceBytes_ne_nil ha) haccepted
    · cases hchecked

theorem method_orderly (hS : Reliable S puts) (call : ArtifactCall)
    (files : Files ArtifactPath) (_ : FilesLegit (LegitArtifact S puts) files)
    (hstarts : ArtifactStarts puts call files) :
    OrderlyCall S puts call (S.method call) files := by
  cases call with
  | put a => exact put_orderly hS hstarts files
  | read kind logicalKey => exact read_orderly hS kind logicalKey files

/-! ## Repeating a put -/

/-- The file is free or holds these bytes. -/
def Fits (files : Files ArtifactPath) (path : ArtifactPath) (bytes : List UInt8) : Prop :=
  files path = none ∨ files path = some bytes

theorem execute_publish_eq_ok {files' : Files ArtifactPath} {path : ArtifactPath}
    {bytes : List UInt8} {conflict : ArtifactError} {u : Unit} :
    (publish conflict path bytes).execute (FileCommand.run .fileNotFound) files = (.ok u, files') ↔
      Fits files path bytes ∧ update files path (some bytes) = files' := by
  rw [execute_publish, Fits]
  cases hpath : files path with
  | none => simp
  | some content =>
    by_cases hsame : content = bytes
    · subst hsame
      have hupdate : update files path (some content) = files := by
        rw [← hpath, Function.update_eq_self]
      simp [hupdate]
    · simp [hsame]

variable (S files) in
/-- The put returns when nobody else runs. -/
def Succeeds (a : ArtifactPut) : Prop :=
  ∃ digest files', (S.put a).execute (FileCommand.run .fileNotFound) files = (.ok digest, files')

theorem succeeds_iff (hvalid : a.Valid) : Succeeds S files a ↔
      Fits files (S.artifactPath a.kind (S.sha256 a.payload)) a.payload ∧
        Fits files (S.logicalReferencePath a.kind a.logicalKey) (S.referenceBytes a) := by
  -- the first publication does not touch the file of the second
  have hother : ∀ content bytes, Fits (update files
      (S.artifactPath a.kind (S.sha256 a.payload)) content)
        (S.logicalReferencePath a.kind a.logicalKey) bytes ↔
      Fits files (S.logicalReferencePath a.kind a.logicalKey) bytes := by
    intro content bytes
    have hne : S.logicalReferencePath a.kind a.logicalKey ≠
        S.artifactPath a.kind (S.sha256 a.payload) := fun hcon => (by cases hcon)
    rw [Fits, update_of_ne hne, Fits]
  unfold Succeeds ArtifactLayout.put putLogicalReference
  simp only [if_pos hvalid, Prog.execute_bind, Method.bind_eq_ok, execute_publish_eq_ok]
  constructor
  · rintro ⟨digest, files', _, files₁, hcheck, _, files₂, ⟨hobject, rfl⟩, _, files₃,
      ⟨hlogical, -⟩, -⟩
    cases hcheck
    exact ⟨hobject, (hother _ _).mp hlogical⟩
  · rintro ⟨hobject, hlogical⟩
    exact ⟨_, _, (), files, rfl, (), _, ⟨hobject, rfl⟩, (), _, ⟨(hother _ _).mpr hlogical, rfl⟩,
      rfl⟩

variable (S puts files) in
/-- Some put of the run to this kind and key has had a different payload accepted. -/
def OtherAccepted (a : ArtifactPut) : Prop :=
  ∃ b, puts b ∧ b.kind = a.kind ∧ b.logicalKey = a.logicalKey ∧ b.payload ≠ a.payload ∧
    Accepted S files b

variable (S puts files) in
/-- Neither file of the put stands there created and not written, and the reference file is
not that of a kind with the same directory. -/
structure Untorn (a : ArtifactPut) : Prop where
  object : files (S.artifactPath a.kind (S.sha256 a.payload)) ≠ some []
  logical : files (S.logicalReferencePath a.kind a.logicalKey) ≠ some []
  ownKind : ∀ b, puts b → b.kind ≠ a.kind →
    files (S.logicalReferencePath a.kind a.logicalKey) ≠ some (S.referenceBytes b)

theorem succeeds_or_iff (hS : Reliable S puts) (hlegit : FilesLegit (LegitArtifact S puts) files)
    (ha : puts a) (hvalid : a.Valid) :
    Succeeds S files a ∨ OtherAccepted S puts files a ↔
      Untorn S puts files a ∨ OtherAccepted S puts files a := by
  rw [succeeds_iff hvalid]
  constructor
  · rintro (⟨hobject, hlogical⟩ | hother)
    · refine .inl ⟨fun hempty => ?_, fun hempty => ?_, fun b hb hkind hfile => ?_⟩
      · rcases hobject with hnone | hsome
        · cases hempty.symm.trans hnone
        · exact hvalid.2.2 (Option.some.inj (hsome.symm.trans hempty))
      · rcases hlogical with hnone | hsome
        · cases hempty.symm.trans hnone
        · exact hS.referenceBytes_ne_nil ha (Option.some.inj (hsome.symm.trans hempty))
      · rcases hlogical with hnone | hsome
        · cases hfile.symm.trans hnone
        · have hsame := Option.some.inj (hfile.symm.trans hsome)
          exact hkind (congrArg ArtifactPut.kind (hS.eq_of_referenceBytes hb ha hsame))
    · exact .inr hother
  · rintro (⟨hobject, hlogical, hown⟩ | hother)
    · have hobjectFits : Fits files (S.artifactPath a.kind (S.sha256 a.payload)) a.payload := by
        cases hfile : files (S.artifactPath a.kind (S.sha256 a.payload)) with
        | none => exact .inl hfile
        | some content =>
          obtain ⟨b, hb, hcontent, hdigest⟩ : LegitArtifact S puts _ content :=
            (hlegit _ _ hfile).resolve_left fun hempty => hobject (hempty ▸ hfile)
          rw [hcontent] at hfile
          right
          rw [hfile, payload_of_digest hS hlegit ha hfile hdigest.symm]
      cases hfile : files (S.logicalReferencePath a.kind a.logicalKey) with
      | none => exact .inl ⟨hobjectFits, .inl hfile⟩
      | some content =>
        obtain ⟨b, hb, hcontent, hdirectory, hkey⟩ : LegitArtifact S puts _ content :=
          (hlegit _ _ hfile).resolve_left fun hempty => hlogical (hempty ▸ hfile)
        have hkind : b.kind = a.kind := by
          by_contra hne
          exact hown b hb hne (hcontent ▸ hfile)
        have hkeys : b.logicalKey = a.logicalKey :=
          utf8_injective (hS.collisionFree (key_hashed hb) (key_hashed ha) hkey.symm)
        by_cases hpayload : b.payload = a.payload
        · -- the reference is the one this put writes
          have hsame : b = a := by
            cases b
            simp only at hkind hkeys hpayload
            rw [hkind, hkeys, hpayload]
          rw [hsame] at hcontent
          exact .inl ⟨hobjectFits, .inr (hcontent ▸ hfile)⟩
        · refine .inr ⟨b, hb, hkind, hkeys, hpayload, ?_⟩
          rw [Accepted, hkind, hkeys, ← hcontent]
          exact hfile
    · exact .inr hother

/-! ## Whole runs -/

abbrev ArtifactWorld := FileWorld ArtifactPath ArtifactCall ArtifactError ArtifactAnswer

/-- The worlds that any schedule of these puts and of any reads leads to, from `w`. -/
abbrev ArtifactSteps (S : ArtifactLayout) (puts : ArtifactPut → Prop) :
    ArtifactWorld → ArtifactWorld → Prop :=
  Steps (fileSystem .fileNotFound S.method) (ArtifactStarts puts) fun _ _ => True

/-- A call has returned this answer. -/
def HasReturned (w : ArtifactWorld) (call : ArtifactCall) (answer : ArtifactAnswer) : Prop :=
  ∃ job ∈ w.jobs, job.op = call ∧ job.rest = .done (.ok answer)

def NoPutRuns (w : ArtifactWorld) : Prop :=
  ∀ job ∈ w.jobs, ∀ a, job.op = .put a → ∃ result, job.rest = .done result

variable (S puts) in
/-- What is read is what was put, every time the same, and a key has one payload. -/
structure ExactMap (w : ArtifactWorld) : Prop where
  readsPut : ∀ kind logicalKey bytes,
    HasReturned w (.read kind logicalKey) (.payload bytes) →
    ∃ a, puts a ∧ a.kind = kind ∧ a.logicalKey = logicalKey ∧ a.payload = bytes
  readsAgree : ∀ w', ArtifactSteps S puts w w' → ∀ kind logicalKey bytes bytes',
    HasReturned w (.read kind logicalKey) (.payload bytes) →
    HasReturned w' (.read kind logicalKey) (.payload bytes') → bytes = bytes'
  onePayload : ∀ w', ArtifactSteps S puts w w' → ∀ a b answer answer',
    HasReturned w (.put a) answer → HasReturned w' (.put b) answer' →
    a.kind = b.kind → a.logicalKey = b.logicalKey → a.payload = b.payload

abbrev StoreInOrder (S : ArtifactLayout) (puts : ArtifactPut → Prop) : ArtifactWorld → Prop :=
  InOrder .fileNotFound (LegitArtifact S puts) (CallPost S puts)

theorem storeInOrder_initial : StoreInOrder S puts (World.initial fun _ => none) :=
  InOrder.initial fun _ _ h => (by cases h)

variable {w : ArtifactWorld}

theorem HasReturned.post (h : StoreInOrder S puts w) {call : ArtifactCall} {answer : ArtifactAnswer}
    (hreturned : HasReturned w call answer) (hgrow : FilesGrow w.db files) :
    CallPost S puts call (.ok answer) files := by
  obtain ⟨job, hjob, rfl, hdone⟩ := hreturned
  exact h.returned hjob hdone hgrow

theorem Accepted.unique (hS : Reliable S puts) {b : ArtifactPut} (ha : puts a) (hb : puts b)
    (hkind : a.kind = b.kind) (hkey : a.logicalKey = b.logicalKey) (haccepted : Accepted S files a)
    (haccepted' : Accepted S files b) : a = b := by
  rw [Accepted, hkind, hkey, haccepted', Option.some.injEq] at haccepted
  exact (hS.eq_of_referenceBytes hb ha haccepted).symm

theorem exactMap_of_inOrder (hS : Reliable S puts) (h : StoreInOrder S puts w) :
    ExactMap S puts w where
  readsPut := by
    intro kind logicalKey bytes hread
    obtain ⟨a, ha, hkind, hkey, hpayload, -⟩ := hread.post h (.refl w.db)
    exact ⟨a, ha, hkind, hkey, hpayload⟩
  readsAgree := by
    intro w' hsteps kind logicalKey bytes bytes' hread hread'
    obtain ⟨h', hgrow⟩ := h.steps (method_orderly hS) hsteps
    obtain ⟨a, ha, hkind, hkey, hpayload, haccepted⟩ := hread.post h hgrow
    obtain ⟨b, hb, hkind', hkey', hpayload', haccepted'⟩ := hread'.post h' (.refl w'.db)
    have hsame := haccepted.unique hS ha hb (hkind.trans hkind'.symm) (hkey.trans hkey'.symm)
      haccepted'
    rw [← hpayload, ← hpayload', hsame]
  onePayload := by
    intro w' hsteps a b answer answer' hput hput' hkind hkey
    obtain ⟨h', hgrow⟩ := h.steps (method_orderly hS) hsteps
    obtain ⟨ha, haccepted⟩ := hput.post h hgrow
    obtain ⟨hb, haccepted'⟩ := hput'.post h' (.refl w'.db)
    rw [haccepted.unique hS ha hb hkind hkey haccepted']

/-- The worlds that are reached without a put that stops between creating a file and writing
it. -/
abbrev UntornSteps (S : ArtifactLayout) (puts : ArtifactPut → Prop) :
    ArtifactWorld → ArtifactWorld → Prop :=
  CleanSteps .fileNotFound S.method (ArtifactStarts puts)

variable (S puts) in
/-- No two kinds of the run name the same directory. -/
def OwnDirectories : Prop :=
  ∀ a b, puts a → puts b → S.logicalDirectory a.kind = S.logicalDirectory b.kind → a.kind = b.kind

theorem reference_readsOnly (kind logicalKey : String) :
    ReadsOnly (S.reference kind logicalKey) := by
  refine (ReadsOnly.ofExcept _).bind fun _ => (ReadsOnly.readOr _ _).bind fun text => ?_
  cases S.jsonLoads text with
  | none | some document => exact ReadsOnly.ofExcept _

theorem read_readsOnly (kind logicalKey : String) :
    ReadsOnly (S.method (.read kind logicalKey)) := by
  refine ReadsOnly.bind ?_ fun _ => trivial
  refine (reference_readsOnly kind logicalKey).bind fun reference => ?_
  exact (ReadsOnly.readOr _ _).bind fun payload => ReadsOnly.ofExcept _

/-- What a call in flight still does, if it reads. -/
def ReadsIfRead (call : ArtifactCall) (rest : FileProg ArtifactPath ArtifactError ArtifactAnswer) :
    Prop :=
  ∀ kind logicalKey, call = .read kind logicalKey → ReadsOnly rest

theorem no_empty_file (hS : Reliable S puts)
    (h : UntornSteps S puts (World.initial fun _ => none) w) (hquiet : NoPutRuns w)
    (path : ArtifactPath) : w.db path ≠ some [] := by
  intro hempty
  obtain ⟨-, howed⟩ := CleanSteps.allOwed (method_orderly hS) storeInOrder_initial
    (fun _ hfile => (by cases hfile)) h
  obtain ⟨job, hjob, howes⟩ := howed path hempty
  have hmethod : ∀ call, ReadsIfRead call (S.method call) := by
    rintro _ kind logicalKey rfl
    exact read_readsOnly kind logicalKey
  have hnext : ∀ call c next answer, ReadsIfRead call (.call c next) →
      ReadsIfRead call (next answer) :=
    fun call c next answer hprog kind logicalKey hop => (hprog kind logicalKey hop).next answer
  have hreads : ReadsIfRead job.op job.rest :=
    h.steps.jobs hmethod hnext (fun _ hjob => absurd hjob List.not_mem_nil) job hjob
  cases hop : job.op with
  | put a =>
    obtain ⟨result, hdone⟩ := hquiet job hjob a hop
    rw [hdone] at howes
    exact howes
  | read kind logicalKey => exact (hreads kind logicalKey hop).not_owes path howes

/-- In every run the store is an exact map, and a put can be repeated or has lost its key
exactly when neither of its files is torn; so in every run in which nobody stops between
creating a file and writing it, a put can be repeated whenever no put runs. -/
theorem artifact_store_exact (hS : Reliable S puts) :
    (∀ w, ArtifactSteps S puts (World.initial fun _ => none) w →
      ExactMap S puts w ∧ ∀ a, puts a → a.Valid →
        (Succeeds S w.db a ∨ OtherAccepted S puts w.db a ↔
          Untorn S puts w.db a ∨ OtherAccepted S puts w.db a)) ∧
      (OwnDirectories S puts → ∀ w, UntornSteps S puts (World.initial fun _ => none) w →
        NoPutRuns w → ∀ a, puts a → a.Valid → Succeeds S w.db a ∨ OtherAccepted S puts w.db a) := by
  constructor
  · intro w hsteps
    obtain ⟨h, -⟩ := storeInOrder_initial.steps (method_orderly hS) hsteps
    exact ⟨exactMap_of_inOrder hS h, fun a ha hvalid => succeeds_or_iff hS h.legit ha hvalid⟩
  · intro hdirectories w hsteps hquiet a ha hvalid
    obtain ⟨h, -⟩ := storeInOrder_initial.steps (method_orderly hS) hsteps.steps
    refine (succeeds_or_iff hS h.legit ha hvalid).mpr (.inl ⟨?_, ?_, ?_⟩)
    · exact no_empty_file hS hsteps hquiet _
    · exact no_empty_file hS hsteps hquiet _
    · intro b hb hkind hfile
      -- the reference of another kind would stand in the directory of this one
      have hlegit : LegitArtifact S puts _ (S.referenceBytes b) :=
        (h.legit _ _ hfile).resolve_left (hS.referenceBytes_ne_nil hb)
      obtain ⟨c, hc, hsame, hdirectory, -⟩ := hlegit
      rw [← hS.eq_of_referenceBytes hb hc hsame] at hdirectory
      exact hkind (hdirectories a b ha hb hdirectory).symm

namespace SampleArtifact

def sample : ArtifactPut := ⟨"event-track", "track", [1]⟩

def payloadDigest : String := "4bf5122f344554c53bde2ebb8cd2b7e3d1600ad631c385a5d7cce23c7785459a"

def keyDigest : String := "2bb8bf7259c4ea0edaef5b8552247e06dde993959d3d33e4a2b32f32e1144c0a"

def emptyDigest : String := "e3b0c44298fc1c149afbf4c8996fb92427ae41e4649b934ca495991b7852b855"

/-- A layout that behaves like the real one on the sample put. -/
def layout : ArtifactLayout where
  sha256 bytes := if bytes = [1] then payloadDigest
    else if bytes = utf8 "track" then keyDigest else emptyDigest
  objectDirectory kind := kind
  logicalDirectory kind := "_logical/" ++ kind
  canonicalJsonBytes _ := [2]
  jsonLoads text := if text = [2] then
      some ⟨some localPerceptionArtifactIndexVersion, some "event-track", some "track",
        some payloadDigest⟩
    else none

/-- What was put is read. -/
example : ((layout.put sample >>= fun _ => layout.read "event-track" "track").execute
    (FileCommand.run .fileNotFound) fun _ => none).1 = .ok [1] := by
  rfl

def objectPath : ArtifactPath := layout.artifactPath sample.kind (layout.sha256 sample.payload)

/-- The object file is created and not written. -/
def created : Files ArtifactPath := update (fun _ => none) objectPath (some [])

theorem reliable : Reliable layout (· = sample) where
  collisionFree := by
    have hmem : ∀ bytes ∈ Hashed (· = sample), bytes = [] ∨ bytes = [1] ∨ bytes = utf8 "track" := by
      rintro bytes (hempty | ⟨a, rfl, hbytes⟩)
      · exact .inl hempty
      · exact .inr hbytes
    intro bytes hbytes bytes' hbytes' hsame
    rcases hmem bytes hbytes with rfl | rfl | rfl <;>
      rcases hmem bytes' hbytes' with rfl | rfl | rfl <;> revert hsame <;> decide +kernel
  roundTrip := by
    rintro a rfl
    decide +kernel
  emptyText := rfl

end SampleArtifact

/-- A put stops after it has created its object file: it cannot be repeated, although nothing
was accepted for its key. -/
theorem stopped_put_cannot_be_repeated :
    ∃ w, ArtifactSteps SampleArtifact.layout (· = SampleArtifact.sample)
        (World.initial fun _ => none) w ∧ w.jobs = [] ∧ SampleArtifact.sample.Valid ∧
      ¬ Succeeds SampleArtifact.layout w.db SampleArtifact.sample ∧
      ∀ b, ¬ Accepted SampleArtifact.layout w.db b := by
  have hvalid : SampleArtifact.sample.Valid := by decide +kernel
  obtain ⟨next, hnext⟩ : ∃ next, SampleArtifact.layout.method (.put SampleArtifact.sample) =
      .call (.createExclusive SampleArtifact.objectPath) next := by
    exact ⟨_, rfl⟩
  let files : Files ArtifactPath := fun _ => none
  let put := ArtifactCall.put SampleArtifact.sample
  let log : List (Event (FileCommand ArtifactPath) FileCommand.Answer ArtifactError) :=
    [⟨.createExclusive SampleArtifact.objectPath, .ok true⟩]
  let begun : ArtifactWorld :=
    ⟨files, [⟨put, files, SampleArtifact.layout.method put⟩], []⟩
  let owing : ArtifactWorld := ⟨SampleArtifact.created, [⟨put, files, next (.ok true)⟩], log⟩
  refine ⟨⟨SampleArtifact.created, [], log⟩, ?_, rfl, hvalid, ?_, ?_⟩
  · have hbegin : ArtifactSteps SampleArtifact.layout (· = SampleArtifact.sample)
        (World.initial files) begun := .single (.spawn put rfl)
    have hcreate : ArtifactSteps SampleArtifact.layout (· = SampleArtifact.sample) begun owing :=
      .single (.advance (show begun.jobs = [] ++ _ :: [] from rfl) hnext trivial)
    have hstop : ArtifactSteps SampleArtifact.layout (· = SampleArtifact.sample) owing
        ⟨SampleArtifact.created, [], log⟩ :=
      .single (.crash (show owing.jobs = [] ++ _ :: [] from rfl))
    exact hbegin.trans (hcreate.trans hstop)
  · rw [succeeds_iff hvalid]
    rintro ⟨hnone | hsome, -⟩
    · have hfile : SampleArtifact.created SampleArtifact.objectPath = some [] :=
        update_self _ _ _
      cases hfile.symm.trans hnone
    · have hfile : SampleArtifact.created SampleArtifact.objectPath = some [] :=
        update_self _ _ _
      cases hfile.symm.trans hsome
  · intro b hb
    have hne : SampleArtifact.layout.logicalReferencePath b.kind b.logicalKey ≠
        SampleArtifact.objectPath := fun hcon => (by cases hcon)
    have hfile : SampleArtifact.created
        (SampleArtifact.layout.logicalReferencePath b.kind b.logicalKey) = none := by
      rw [SampleArtifact.created, update_of_ne hne]
    cases hfile.symm.trans hb

theorem artifact_store_exact_sample :
    (∀ w, ArtifactSteps SampleArtifact.layout (· = SampleArtifact.sample)
        (World.initial fun _ => none) w →
      ExactMap SampleArtifact.layout (· = SampleArtifact.sample) w) ∧
    ∀ w, UntornSteps SampleArtifact.layout (· = SampleArtifact.sample)
        (World.initial fun _ => none) w → NoPutRuns w →
      Succeeds SampleArtifact.layout w.db SampleArtifact.sample ∨
        OtherAccepted SampleArtifact.layout (· = SampleArtifact.sample) w.db
          SampleArtifact.sample := by
  obtain ⟨hall, huntorn⟩ := artifact_store_exact SampleArtifact.reliable
  refine ⟨fun w hsteps => (hall w hsteps).1, fun w hsteps hquiet => ?_⟩
  exact huntorn (by rintro a b rfl rfl _; rfl) w hsteps hquiet _ rfl (by decide +kernel)

end Robata.Perception
