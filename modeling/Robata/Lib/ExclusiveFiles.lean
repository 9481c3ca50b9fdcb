import Robata.Lib.Interleaving

/-!
# Files that are created exclusively and written once

Programs that publish a file with the exclusive creation mode: the call that finds no file
creates it, empty, and writes it in a later step; a call that finds a file reads it.  Between
the two steps the empty file is seen by everybody, and a program that stops there leaves it
behind.

`Orderly` says of a program that it writes a file only right after having created it, and
what it writes is legitimate there.  Programs that are orderly on their own are so together:
at most one of them owes a file its bytes, and the bytes of a file never change once they are
there.  In a run in which no program stops while it owes bytes, every empty file is owed its
bytes by a program still in flight.
-/

namespace Robata.Lib

open List
open Function (update update_of_ne update_self)

/-- The contents of the files that exist.  A file that is created and not yet written is
empty. -/
abbrev Files (π : Type) := π → Option (List UInt8)

inductive FileCommand (π : Type)
  | createExclusive (path : π)
  | write (path : π) (bytes : List UInt8)
  | readBytes (path : π)

namespace FileCommand

variable {π ε : Type}

abbrev Answer : FileCommand π → Type
  | createExclusive _ => Bool
  | write _ _ => Unit
  | readBytes _ => List UInt8

/-- What a command does; `missing` is the exception of reading a file that is not there. -/
def run [DecidableEq π] (missing : ε) : (c : FileCommand π) → Method (Files π) ε c.Answer
  | createExclusive path => fun files =>
    match files path with
    | none => (.ok true, update files path (some []))
    | some _ => (.ok false, files)
  | write path bytes => fun files => (.ok (), update files path (some bytes))
  | readBytes path => fun files =>
    match files path with
    | some content => (.ok content, files)
    | none => (.error missing, files)

end FileCommand

section Programs

variable {π ε α β : Type}

/-- A program over the file commands. -/
abbrev FileProg (π ε α : Type) := Prog (FileCommand π) FileCommand.Answer ε α

/-- Create the file and write it, or compare the file that is there. -/
def publish (conflict : ε) (path : π) (bytes : List UInt8) : FileProg π ε Unit := do
  let created ← Prog.perform (FileCommand.createExclusive path)
  if created then
    Prog.perform (FileCommand.write path bytes)
  else
    let content ← Prog.perform (FileCommand.readBytes path)
    Prog.ofExcept (if content = bytes then .ok () else .error conflict)

/-- Read a file, and raise `e` if it cannot be read. -/
def readOr (e : ε) (path : π) : FileProg π ε (List UInt8) :=
  .call (.readBytes path) fun
    | .ok content => .done (.ok content)
    | .error _ => .done (.error e)

/-- The program is about to write this file. -/
def Owes (path : π) : FileProg π ε α → Prop
  | .call (.write path' _) _ => path' = path
  | _ => False

/-- The program creates and writes nothing. -/
def ReadsOnly : FileProg π ε α → Prop
  | .done _ => True
  | .call (.readBytes _) next => ∀ answer, ReadsOnly (next answer)
  | .call _ _ => False

theorem ReadsOnly.not_owes {p : FileProg π ε α} (h : ReadsOnly p) (path : π) : ¬ Owes path p := by
  match p, h with
  | .done _, _ => exact id
  | .call (.readBytes _) _, _ => exact id

theorem ReadsOnly.next {c : FileCommand π} {next : Except ε c.Answer → FileProg π ε α}
    (h : ReadsOnly (.call c next)) (answer : Except ε c.Answer) : ReadsOnly (next answer) := by
  match c, next, answer, h with
  | .readBytes _, _, answer, h => exact h answer

theorem ReadsOnly.bind {p : FileProg π ε β} {f : β → FileProg π ε α} (h : ReadsOnly p)
    (hf : ∀ b, ReadsOnly (f b)) : ReadsOnly (p >>= f) := by
  induction p with
  | done result =>
    cases result with
    | ok b => exact hf b
    | error e => exact trivial
  | call c next ih =>
    match c, next, h, ih with
    | .readBytes _, _, h, ih => exact fun answer => ih answer (h answer)

theorem ReadsOnly.ofExcept (x : Except ε α) : ReadsOnly (Prog.ofExcept x : FileProg π ε α) := trivial

theorem ReadsOnly.readOr (e : ε) (path : π) : ReadsOnly (readOr e path) := by
  intro answer
  cases answer <;> exact trivial

/-- Files stay, and a file that has bytes keeps them. -/
def FilesGrow (files files' : Files π) : Prop :=
  ∀ path content, files path = some content →
    ∃ content', files' path = some content' ∧ (content ≠ [] → content' = content)

theorem FilesGrow.refl (files : Files π) : FilesGrow files files :=
  fun _ content h => ⟨content, h, fun _ => rfl⟩

variable {files : Files π}

theorem FilesGrow.trans {files' files'' : Files π} (h : FilesGrow files files')
    (h' : FilesGrow files' files'') : FilesGrow files files'' := by
  intro path content hcontent
  obtain ⟨content', hcontent', hsame⟩ := h path content hcontent
  obtain ⟨content'', hcontent'', hsame'⟩ := h' path content' hcontent'
  refine ⟨content'', hcontent'', ?_⟩
  intro hne
  rw [hsame' (hsame hne ▸ hne), hsame hne]

theorem FilesGrow.kept {files' : Files π} (h : FilesGrow files files') {path : π}
    {bytes : List UInt8} (hbytes : bytes ≠ []) (hfile : files path = some bytes) :
    files' path = some bytes := by
  obtain ⟨content, hcontent, hsame⟩ := h path bytes hfile
  rw [hcontent, hsame hbytes]

variable [DecidableEq π]

theorem FilesGrow.create {path : π} (h : files path = none) :
    FilesGrow files (update files path (some [])) := by
  intro path' content hcontent
  have hne : path' ≠ path := by
    rintro rfl
    rw [h] at hcontent
    cases hcontent
  exact ⟨content, by rw [update_of_ne hne]; exact hcontent, fun _ => rfl⟩

theorem FilesGrow.write {path : π} (h : files path = some [])
    (bytes : List UInt8) : FilesGrow files (update files path (some bytes)) := by
  intro path' content hcontent
  by_cases hpath : path' = path
  · rw [hpath, h] at hcontent
    cases hcontent
    exact ⟨bytes, by rw [hpath, update_self], fun hne => absurd rfl hne⟩
  · exact ⟨content, by rw [update_of_ne hpath]; exact hcontent, fun _ => rfl⟩

/-! ## Orderly programs -/

section Orderly

variable (missing : ε) (Legit : π → List UInt8 → Prop)

/-- Every file is empty or holds bytes that are legitimate there. -/
def FilesLegit (files : Files π) : Prop :=
  ∀ path content, files path = some content → content = [] ∨ Legit path content

/-- From these files on, whatever other orderly programs do, the program writes only the file
it owes its bytes to, and ends with `Post`, which then holds for good. -/
def Orderly (Post : Except ε α → Files π → Prop) : Option π → FileProg π ε α → Files π → Prop
  | none, .done result, files => ∀ files', FilesGrow files files' → Post result files'
  | none, .call (.createExclusive path) next, files =>
    ∀ files', FilesLegit Legit files' → FilesGrow files files' →
      (files' path = none →
        Orderly Post (some path) (next (.ok true)) (update files' path (some []))) ∧
      (files' path ≠ none → Orderly Post none (next (.ok false)) files')
  | none, .call (.readBytes path) next, files =>
    ∀ files', FilesLegit Legit files' → FilesGrow files files' →
      (∀ content, files' path = some content → Orderly Post none (next (.ok content)) files') ∧
      (files' path = none → Orderly Post none (next (.error missing)) files')
  | some owed, .call (.write path bytes) next, files =>
    path = owed ∧ bytes ≠ [] ∧ Legit path bytes ∧
      ∀ files', FilesLegit Legit files' → FilesGrow files files' → files' path = some [] →
        Orderly Post none (next (.ok ())) (update files' path (some bytes))
  | _, _, _ => False

end Orderly

variable {missing : ε} {Legit : π → List UInt8 → Prop} {Post : Except ε α → Files π → Prop}
  {files files' : Files π} {owed : Option π} {p : FileProg π ε α}

namespace Orderly

theorem later (h : Orderly missing Legit Post owed p files) (hgrow : FilesGrow files files') :
    Orderly missing Legit Post owed p files' := by
  match owed, p with
  | none, .done result => exact fun files'' h' => h files'' (hgrow.trans h')
  | none, .call (.createExclusive path) next =>
    exact fun files'' hlegit h' => h files'' hlegit (hgrow.trans h')
  | none, .call (.readBytes path) next =>
    exact fun files'' hlegit h' => h files'' hlegit (hgrow.trans h')
  | some owed, .call (.write path bytes) next =>
    obtain ⟨hpath, hbytes, hlegit, hnext⟩ := h
    exact ⟨hpath, hbytes, hlegit, fun files'' hlegit' h' => hnext files'' hlegit' (hgrow.trans h')⟩

theorem owes_iff (h : Orderly missing Legit Post owed p files) (path : π) :
    Owes path p ↔ owed = some path := by
  match owed, p with
  | none, .done result => simp [Owes]
  | none, .call (.createExclusive path') next => simp [Owes]
  | none, .call (.readBytes path') next => simp [Owes]
  | some owed, .call (.write path' bytes) next =>
    obtain ⟨rfl, -⟩ := h
    simp [Owes]

theorem ended {result : Except ε α} (h : ∀ files', FilesGrow files files' → Post result files') :
    Orderly missing Legit Post none (.done result) files := h

theorem ofExcept_bind {x : Except ε β} {f : β → FileProg π ε α}
    (hok : ∀ b, x = .ok b → Orderly missing Legit Post none (f b) files)
    (herror : ∀ e, x = .error e → ∀ files', FilesGrow files files' → Post (.error e) files') :
    Orderly missing Legit Post none (Prog.ofExcept x >>= f) files := by
  cases x with
  | ok b => exact hok b rfl
  | error e => exact herror e rfl

theorem readOr_bind {e : ε} {path : π} {f : List UInt8 → FileProg π ε α}
    (hok : ∀ content files', FilesLegit Legit files' → FilesGrow files files' →
      files' path = some content → Orderly missing Legit Post none (f content) files')
    (herror : ∀ files', FilesGrow files files' → Post (.error e) files') :
    Orderly missing Legit Post none (readOr e path >>= f) files := by
  intro files' hlegit hgrow
  refine ⟨fun content hcontent => hok content files' hlegit hgrow hcontent, ?_⟩
  intro hnone files'' hgrow'
  exact herror files'' (hgrow.trans hgrow')

theorem publish_bind {conflict : ε} {path : π} {bytes : List UInt8} {f : Unit → FileProg π ε α}
    (hbytes : bytes ≠ []) (hlegit : Legit path bytes)
    (hok : ∀ files', FilesGrow files files' → files' path = some bytes →
      Orderly missing Legit Post none (f ()) files')
    (hconflict : ∀ files', FilesGrow files files' → Post (.error conflict) files')
    (hmissing : ∀ files', FilesGrow files files' → Post (.error missing) files') :
    Orderly missing Legit Post none (publish conflict path bytes >>= f) files := by
  intro files₁ _ hgrow₁
  refine ⟨fun hfree => ?_, fun _ => ?_⟩
  · -- the file was not there: it is created, and written in the next step
    refine ⟨rfl, hbytes, hlegit, ?_⟩
    intro files₂ _ hgrow₂ hempty
    have hgrow : FilesGrow files (update files₂ path (some bytes)) :=
      hgrow₁.trans ((FilesGrow.create hfree).trans (hgrow₂.trans (.write hempty bytes)))
    exact hok _ hgrow (update_self _ _ _)
  · -- the file was there: it is compared
    intro files₂ _ hgrow₂
    have hgrow := hgrow₁.trans hgrow₂
    refine ⟨fun content hcontent => ?_, fun _ files₃ hgrow₃ => hmissing _ (hgrow.trans hgrow₃)⟩
    show Orderly missing Legit Post none
      ((Prog.ofExcept (if content = bytes then .ok () else .error conflict)).andThen f) files₂
    by_cases hsame : content = bytes
    · rw [if_pos hsame]
      exact hok files₂ hgrow (hsame ▸ hcontent)
    · rw [if_neg hsame]
      exact fun files₃ hgrow₃ => hconflict _ (hgrow.trans hgrow₃)

end Orderly
end Programs

/-! ## Orderly programs together -/

section Updates

variable {π : Type} [DecidableEq π] {Legit : π → List UInt8 → Prop} {files : Files π} {path : π}

theorem FilesLegit.update (h : FilesLegit Legit files) {content : List UInt8}
    (hcontent : content = [] ∨ Legit path content) :
    FilesLegit Legit (update files path (some content)) := by
  intro path' content' hfile
  by_cases hsame : path' = path
  · rw [hsame, update_self, Option.some.injEq] at hfile
    rw [hsame, ← hfile]
    exact hcontent
  · rw [update_of_ne hsame] at hfile
    exact h path' content' hfile

theorem update_kept {content bytes : List UInt8} {path' : π} (h : files path' = some content)
    (hother : path' = path → bytes = content) :
    update files path (some bytes) path' = some content := by
  by_cases hsame : path' = path
  · rw [hsame, update_self, hother hsame]
  · rw [update_of_ne hsame, h]

end Updates

section Composition

variable {π ω ε α : Type} [DecidableEq π] {missing : ε} {Legit : π → List UInt8 → Prop}
  {method : ω → FileProg π ε α} {starts : ω → Files π → Prop}
  {Post : ω → Except ε α → Files π → Prop}

/-- The methods over the file commands. -/
def fileSystem (missing : ε) (method : ω → FileProg π ε α) :
    System (Files π) ω (FileCommand π) FileCommand.Answer ε α where
  run := FileCommand.run missing
  method := method

abbrev FileWorld (π ω ε α : Type) := World (Files π) ω (FileCommand π) FileCommand.Answer ε α

variable (missing Legit Post) in
/-- Every call in flight is orderly, a file that is owed its bytes is empty, and it is owed
them by one call. -/
structure InOrder (w : FileWorld π ω ε α) : Prop where
  legit : FilesLegit Legit w.db
  orderly : ∀ job ∈ w.jobs, ∃ owed, Orderly missing Legit (Post job.op) owed job.rest w.db
  empty : ∀ job ∈ w.jobs, ∀ path, Owes path job.rest → w.db path = some []
  single : ∀ path, w.jobs.Pairwise fun job job' => ¬ (Owes path job.rest ∧ Owes path job'.rest)

theorem InOrder.initial {files : Files π} (h : FilesLegit Legit files) :
    InOrder missing Legit Post (World.initial files) where
  legit := h
  orderly := forall_mem_nil _
  empty := forall_mem_nil _
  single := fun _ => List.Pairwise.nil

variable {w w' : FileWorld π ω ε α}

variable {job : Job (Files π) ω (FileCommand π) FileCommand.Answer ε α}

theorem InOrder.alone (h : InOrder missing Legit Post w)
    {earlier later : List (Job (Files π) ω (FileCommand π) FileCommand.Answer ε α)}
    {other : Job (Files π) ω (FileCommand π) FileCommand.Answer ε α}
    (hjobs : w.jobs = earlier ++ job :: later) (hother : other ∈ earlier ++ later) {path : π}
    (howes : Owes path job.rest) : ¬ Owes path other.rest := by
  have hsingle := h.single path
  rw [hjobs, pairwise_append, pairwise_cons] at hsingle
  intro howes'
  rcases mem_append.mp hother with hearlier | hlater
  · exact hsingle.2.2 other hearlier job mem_cons_self ⟨howes', howes⟩
  · exact hsingle.2.1.1 other hlater ⟨howes, howes'⟩

/-- One call goes on: the files grow, and what it owes now it has just created. -/
theorem InOrder.advance (h : InOrder missing Legit Post w)
    {earlier later : List (Job (Files π) ω (FileCommand π) FileCommand.Answer ε α)}
    (hjobs : w.jobs = earlier ++ job :: later) {rest : FileProg π ε α} {files : Files π}
    {log : List (Event (FileCommand π) FileCommand.Answer ε)} (hgrow : FilesGrow w.db files)
    (hlegit : FilesLegit Legit files)
    (horderly : ∃ owed, Orderly missing Legit (Post job.op) owed rest files)
    (hnew : ∀ path, Owes path rest → w.db path = none ∧ files path = some [])
    (hkeep : ∀ path, w.db path = some [] → ¬ Owes path job.rest → files path = some []) :
    InOrder missing Legit Post ⟨files, earlier ++ ⟨job.op, job.started, rest⟩ :: later, log⟩ := by
  have hmem : ∀ other ∈ earlier ++ later, other ∈ w.jobs := by
    intro other hother
    rw [hjobs]
    simp only [mem_append] at hother ⊢
    tauto
  have hcases : ∀ other ∈ earlier ++ ⟨job.op, job.started, rest⟩ :: later,
      other ∈ earlier ++ later ∨ other = ⟨job.op, job.started, rest⟩ := by
    intro other hother
    simp only [mem_append, mem_cons] at hother ⊢
    tauto
  -- a file that is created now is owed by nobody else
  have hfresh : ∀ path, Owes path rest → ∀ other ∈ earlier ++ later, ¬ Owes path other.rest := by
    intro path howes other hother howes'
    have hempty := h.empty other (hmem other hother) path howes'
    rw [(hnew path howes).1] at hempty
    cases hempty
  refine ⟨hlegit, ?_, ?_, ?_⟩
  · intro other hother
    rcases hcases other hother with hold | rfl
    · obtain ⟨owed, howed⟩ := h.orderly other (hmem other hold)
      exact ⟨owed, howed.later hgrow⟩
    · exact horderly
  · intro other hother path howes
    rcases hcases other hother with hold | rfl
    · exact hkeep path (h.empty other (hmem other hold) path howes)
        fun hjob => h.alone hjobs hold hjob howes
    · exact (hnew path howes).2
  · intro path
    have hsingle := h.single path
    rw [hjobs, pairwise_append, pairwise_cons] at hsingle
    rw [pairwise_append, pairwise_cons]
    refine ⟨hsingle.1, ⟨?_, hsingle.2.1.2⟩, ?_⟩
    · rintro other hother ⟨hjob, howes⟩
      exact hfresh path hjob other (mem_append_right _ hother) howes
    · intro other hother job' hjob'
      rcases mem_cons.mp hjob' with rfl | hlater
      · rintro ⟨howes, hjob⟩
        exact hfresh path hjob other (mem_append_left _ hother) howes
      · exact hsingle.2.2 other hother job' (mem_cons_of_mem _ hlater)

section

variable (hmethod : ∀ op files, FilesLegit Legit files → starts op files → Orderly missing Legit
    (Post op) none (method op) files)
include hmethod

theorem InOrder.step (h : InOrder missing Legit Post w)
    (hstep : Step (fileSystem missing method) starts (fun _ _ => True) w w') :
    InOrder missing Legit Post w' ∧ FilesGrow w.db w'.db := by
  cases hstep with
  | spawn op hstarts =>
    have hstart := hmethod op w.db h.legit hstarts
    refine ⟨⟨h.legit, ?_, ?_, ?_⟩, .refl w.db⟩
    · exact forall_mem_cons.mpr ⟨⟨none, hstart⟩, h.orderly⟩
    · refine forall_mem_cons.mpr ⟨fun path howes => ?_, h.empty⟩
      cases (hstart.owes_iff path).mp howes
    · intro path
      refine pairwise_cons.mpr ⟨?_, h.single path⟩
      rintro other - ⟨howes, -⟩
      cases (hstart.owes_iff path).mp howes
  | @advance earlier later job c next hjobs hrest _ =>
    obtain ⟨owed, horderly⟩ := h.orderly job (by rw [hjobs]; simp)
    rw [hrest] at horderly
    match owed, c, next, hrest, horderly with
    | none, .createExclusive path, next, hrest, horderly =>
      obtain ⟨hfree, htaken⟩ := horderly w.db h.legit (.refl w.db)
      cases hpath : w.db path with
      | none =>
        have hrun : (fileSystem missing method).run (.createExclusive path) w.db =
            (.ok true, update w.db path (some [])) := by
          simp [fileSystem, FileCommand.run, hpath]
        rw [hrun]
        have hnext := hfree hpath
        refine ⟨h.advance hjobs (.create hpath) (h.legit.update (.inl rfl)) ⟨_, hnext⟩ ?_
          fun path' hempty _ => update_kept hempty fun _ => rfl, .create hpath⟩
        intro path' howes
        have hsame : path = path' := by simpa using (hnext.owes_iff path').mp howes
        rw [← hsame]
        exact ⟨hpath, update_self _ _ _⟩
      | some content =>
        have hrun : (fileSystem missing method).run (.createExclusive path) w.db =
            (.ok false, w.db) := by
          simp [fileSystem, FileCommand.run, hpath]
        rw [hrun]
        have hnext := htaken (by rw [hpath]; exact Option.some_ne_none content)
        refine ⟨h.advance hjobs (.refl w.db) h.legit ⟨_, hnext⟩ ?_ fun _ hempty _ => hempty,
          .refl w.db⟩
        intro path' howes
        cases (hnext.owes_iff path').mp howes
    | none, .readBytes path, next, hrest, horderly =>
      obtain ⟨hread, hmissing⟩ := horderly w.db h.legit (.refl w.db)
      have hdone : ∀ answer, (fileSystem missing method).run (.readBytes path) w.db =
          (answer, w.db) → Orderly missing Legit (Post job.op) none (next answer) w.db →
          InOrder missing Legit Post ⟨w.db, earlier ++ ⟨job.op, job.started, next answer⟩ ::
            later, ⟨.readBytes path, answer⟩ :: w.log⟩ := by
        intro answer _ hnext
        refine h.advance hjobs (.refl w.db) h.legit ⟨_, hnext⟩ ?_ fun _ hempty _ => hempty
        intro path' howes
        cases (hnext.owes_iff path').mp howes
      cases hpath : w.db path with
      | none =>
        have hrun : (fileSystem missing method).run (.readBytes path) w.db =
            (.error missing, w.db) := by
          simp [fileSystem, FileCommand.run, hpath]
        rw [hrun]
        exact ⟨hdone _ hrun (hmissing hpath), .refl w.db⟩
      | some content =>
        have hrun : (fileSystem missing method).run (.readBytes path) w.db =
            (.ok content, w.db) := by
          simp [fileSystem, FileCommand.run, hpath]
        rw [hrun]
        exact ⟨hdone _ hrun (hread content hpath), .refl w.db⟩
    | some owed, .write path bytes, next, hrest, horderly =>
      obtain ⟨rfl, hbytes, hlegit, hnext⟩ := horderly
      have howes : Owes path job.rest := by
        rw [hrest]
        rfl
      have hempty := h.empty job (by rw [hjobs]; simp) path howes
      have hafter := hnext w.db h.legit (.refl w.db) hempty
      refine ⟨h.advance hjobs (.write hempty bytes) (h.legit.update (.inr hlegit)) ⟨_, hafter⟩
        ?_ fun path' hempty' hother => update_kept hempty' ?_, .write hempty bytes⟩
      · intro path' howes'
        cases (hafter.owes_iff path').mp howes'
      · rintro rfl
        exact absurd howes hother
  | @crash earlier later job hjobs =>
    have hmem : ∀ other ∈ earlier ++ later, other ∈ w.jobs := by
      intro other hother
      rw [hjobs]
      simp only [mem_append] at hother ⊢
      tauto
    refine ⟨⟨h.legit, fun other hother => h.orderly other (hmem other hother),
      fun other hother => h.empty other (hmem other hother), ?_⟩, .refl w.db⟩
    intro path
    have hsub : (earlier ++ later).Sublist w.jobs := by
      rw [hjobs]
      exact (List.Sublist.refl earlier).append (sublist_cons_self job later)
    exact (h.single path).sublist hsub

theorem InOrder.steps (h : InOrder missing Legit Post w)
    (hsteps : Steps (fileSystem missing method) starts (fun _ _ => True) w w') :
    InOrder missing Legit Post w' ∧ FilesGrow w.db w'.db := by
  induction hsteps with
  | refl => exact ⟨h, .refl _⟩
  | tail _ hstep ih =>
    obtain ⟨hinorder, hgrow⟩ := ih.1.step hmethod hstep
    exact ⟨hinorder, ih.2.trans hgrow⟩

end

theorem InOrder.returned (h : InOrder missing Legit Post w) (hjob : job ∈ w.jobs)
    {result : Except ε α} (hdone : job.rest = .done result) {files : Files π}
    (hgrow : FilesGrow w.db files) : Post job.op result files := by
  obtain ⟨owed, horderly⟩ := h.orderly job hjob
  rw [hdone] at horderly
  match owed, horderly with
  | none, horderly => exact horderly files hgrow

/-! ## Runs in which nobody stops owing -/

/-- A call that owes a file its bytes stops for good. -/
def StopsOwing (w w' : FileWorld π ω ε α) : Prop :=
  ∃ earlier job later path, w.jobs = earlier ++ job :: later ∧ Owes path job.rest ∧
    w' = ⟨w.db, earlier ++ later, w.log⟩

/-- The worlds that are reached without such a stop. -/
def CleanSteps (missing : ε) (method : ω → FileProg π ε α) (starts : ω → Files π → Prop) :
    FileWorld π ω ε α → FileWorld π ω ε α → Prop :=
  Relation.ReflTransGen fun w w' =>
    Step (fileSystem missing method) starts (fun _ _ => True) w w' ∧ ¬ StopsOwing w w'

theorem CleanSteps.steps (h : CleanSteps missing method starts w w') :
    Steps (fileSystem missing method) starts (fun _ _ => True) w w' :=
  Relation.ReflTransGen.mono (fun _ _ (hstep : _ ∧ _) => hstep.1) _ _ h

/-- Every empty file is owed its bytes by a call in flight. -/
def AllOwed (w : FileWorld π ω ε α) : Prop :=
  ∀ path, w.db path = some [] → ∃ job ∈ w.jobs, Owes path job.rest

theorem AllOwed.step (h : InOrder missing Legit Post w) (howed : AllOwed w)
    (hstep : Step (fileSystem missing method) starts (fun _ _ => True) w w')
    (hclean : ¬ StopsOwing w w') : AllOwed w' := by
  cases hstep with
  | spawn op _ =>
    intro path hempty
    obtain ⟨job, hjob, howes⟩ := howed path hempty
    exact ⟨job, mem_cons_of_mem _ hjob, howes⟩
  | @advance earlier later job c next hjobs hrest _ =>
    obtain ⟨owed, horderly⟩ := h.orderly job (by rw [hjobs]; simp)
    rw [hrest] at horderly
    -- whoever owes a file other than the one written now goes on owing it
    have hother : ∀ path answer, w.db path = some [] → ¬ Owes path job.rest →
        ∃ other ∈ earlier ++ ⟨job.op, job.started, next answer⟩ :: later, Owes path other.rest := by
      intro path answer hempty hnot
      obtain ⟨other, hmem, howes⟩ := howed path hempty
      have hne : other ≠ job := by
        rintro rfl
        exact hnot howes
      rw [hjobs] at hmem
      refine ⟨other, ?_, howes⟩
      simp only [mem_append, mem_cons] at hmem ⊢
      tauto
    intro path hempty
    match owed, c, next, hrest, horderly, hother, hempty with
    | none, .createExclusive created, next, hrest, horderly, hother, hempty =>
      have hnot : ¬ Owes path job.rest := by
        rw [hrest]
        exact id
      cases hcreated : w.db created with
      | none =>
        have hrun : (fileSystem missing method).run (.createExclusive created) w.db =
            (.ok true, update w.db created (some [])) := by
          simp [fileSystem, FileCommand.run, hcreated]
        rw [hrun] at hempty ⊢
        by_cases hsame : path = created
        · -- the call has just created this file
          refine ⟨⟨job.op, job.started, next (.ok true)⟩, by simp, ?_⟩
          have hnext := (horderly w.db h.legit (.refl w.db)).1 hcreated
          exact (hnext.owes_iff path).mpr (by rw [hsame])
        · have hbefore : update w.db created (some []) path = some [] := hempty
          rw [update_of_ne hsame] at hbefore
          exact hother path _ hbefore hnot
      | some content =>
        have hrun : (fileSystem missing method).run (.createExclusive created) w.db =
            (.ok false, w.db) := by
          simp [fileSystem, FileCommand.run, hcreated]
        rw [hrun] at hempty ⊢
        exact hother path _ hempty hnot
    | none, .readBytes _, next, hrest, horderly, hother, hempty =>
      have hnot : ¬ Owes path job.rest := by
        rw [hrest]
        exact id
      have hsame : ∀ read : π,
          ((fileSystem missing method).run (FileCommand.readBytes read) w.db).2 = w.db := by
        intro read
        simp only [fileSystem, FileCommand.run]
        split <;> rfl
      rw [hsame] at hempty
      exact hother path _ hempty hnot
    | some _, .write written bytes, next, hrest, horderly, hother, hempty =>
      obtain ⟨rfl, hbytes, -⟩ := horderly
      have hne : path ≠ written := by
        rintro rfl
        have hcontent : update w.db path (some bytes) path = some [] := hempty
        rw [update_self, Option.some.injEq] at hcontent
        exact hbytes hcontent
      have hbefore : w.db path = some [] := by
        have hcontent : update w.db written (some bytes) path = some [] := hempty
        rwa [update_of_ne hne] at hcontent
      refine hother path _ hbefore ?_
      rw [hrest]
      exact fun hcon => hne hcon.symm
  | @crash earlier later job hjobs =>
    intro path hempty
    obtain ⟨other, hmem, howes⟩ := howed path hempty
    have hne : other ≠ job := by
      rintro rfl
      exact hclean ⟨earlier, other, later, path, hjobs, howes, rfl⟩
    rw [hjobs] at hmem
    refine ⟨other, ?_, howes⟩
    simp only [mem_append, mem_cons] at hmem ⊢
    tauto

theorem CleanSteps.allOwed
    (hmethod : ∀ op files, FilesLegit Legit files → starts op files →
      Orderly missing Legit (Post op) none (method op) files)
    (h : InOrder missing Legit Post w) (howed : AllOwed w)
    (hsteps : CleanSteps missing method starts w w') :
    InOrder missing Legit Post w' ∧ AllOwed w' := by
  induction hsteps with
  | refl => exact ⟨h, howed⟩
  | tail _ hstep ih =>
    exact ⟨(ih.1.step hmethod hstep.1).1, ih.2.step ih.1 hstep.1 hstep.2⟩

theorem execute_publish (conflict : ε) (path : π) (bytes : List UInt8) (files : Files π) :
    (publish conflict path bytes).execute (FileCommand.run missing) files = match files path with
      | none => (.ok (), update files path (some bytes))
      | some content => if content = bytes then (.ok (), files) else (.error conflict, files) := by
  unfold publish
  rw [Prog.execute_perform_bind]
  cases hpath : files path with
  | none =>
    have hcreate : FileCommand.run missing (.createExclusive path) files =
        (.ok true, update files path (some [])) := by
      simp [FileCommand.run, hpath]
    rw [hcreate]
    show (Except.ok (), update (update files path (some [])) path _) = _
    rw [Function.update_idem]
  | some content =>
    have hcreate : FileCommand.run missing (.createExclusive path) files = (.ok false, files) := by
      simp [FileCommand.run, hpath]
    have hread : FileCommand.run missing (.readBytes path) files = (.ok content, files) := by
      simp [FileCommand.run, hpath]
    rw [hcreate]
    show Prog.execute _ (Prog.perform (FileCommand.readBytes path) >>= _) files = _
    rw [Prog.execute_perform_bind, hread]
    by_cases hsame : content = bytes <;> simp [hsame]

end Composition

end Robata.Lib
