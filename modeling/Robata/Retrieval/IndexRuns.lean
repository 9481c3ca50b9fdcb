import Robata.Retrieval.EventIndex

/-!
# Runs of the event index

No call takes a revision, the facts of a decision or a membership away.  The selection that a
membership names is the one thing a later projection may replace.
-/

namespace Robata.Retrieval

open Contracts Lib
open Dict (get?_set get?_set_self)
open Method (wp_assign wp_bind wp_iff wp_mono wp_ofExcept wp_raiseIf wp_self)

/-- What no call takes away. -/
structure IndexGrows (s s' : EventIndex) : Prop where
  revisions : ∀ k r, s.revisions.get? k = some r → s'.revisions.get? k = some r
  decisions : ∀ d facts, s.selectionById.get? d = some facts → s'.selectionById.get? d = some facts
  memberships : ∀ k m, s.memberships.get? k = some m → ∃ m', s'.memberships.get? k = some m' ∧
    m'.revisionSemanticSha256 = m.revisionSemanticSha256

/-- The index grows and no membership is touched. -/
structure KeepsMemberships (s s' : EventIndex) : Prop extends IndexGrows s s' where
  same : s'.memberships = s.memberships

namespace IndexGrows

variable {s s' s'' : EventIndex}

theorem refl (s : EventIndex) : IndexGrows s s where
  revisions := fun _ _ h => h
  decisions := fun _ _ h => h
  memberships := fun _ m h => ⟨m, h, rfl⟩

theorem trans (h : IndexGrows s s') (h' : IndexGrows s' s'') : IndexGrows s s'' where
  revisions := fun k r hr => h'.revisions k r (h.revisions k r hr)
  decisions := fun d facts hd => h'.decisions d facts (h.decisions d facts hd)
  memberships := by
    intro k m hm
    obtain ⟨m', hm', hsame⟩ := h.memberships k m hm
    obtain ⟨m'', hm'', hsame'⟩ := h'.memberships k m' hm'
    exact ⟨m'', hm'', hsame'.trans hsame⟩

theorem setMembership {key : String × String} {m : EventIndexMembership}
    (h : ∀ m', s.memberships.get? key = some m' →
      m.revisionSemanticSha256 = m'.revisionSemanticSha256) :
    IndexGrows s { s with memberships := s.memberships.set key m } where
  revisions := fun _ _ hr => hr
  decisions := fun _ _ hd => hd
  memberships := by
    intro k m' hm'
    simp only [get?_set]
    split
    · rename_i hk
      subst hk
      exact ⟨m, rfl, h m' hm'⟩
    · exact ⟨m', hm', rfl⟩

end IndexGrows

namespace KeepsMemberships

variable {s s' s'' : EventIndex}

theorem refl (s : EventIndex) : KeepsMemberships s s := ⟨.refl s, rfl⟩

theorem trans (h : KeepsMemberships s s') (h' : KeepsMemberships s' s'') : KeepsMemberships s s'' :=
  ⟨h.toIndexGrows.trans h'.toIndexGrows, h'.same.trans h.same⟩

theorem openHistory (eventId : String) : KeepsMemberships s (openHistory eventId s) := by
  unfold Retrieval.openHistory
  split
  · exact refl s
  · exact ⟨⟨fun _ _ h => h, fun _ _ h => h, fun _ m h => ⟨m, h, rfl⟩⟩, rfl⟩

theorem appendSelection (h : KeepsMemberships s s') (eventId revisionId decisionId : String)
    (sequence : Int) :
    KeepsMemberships s (appendSelection eventId revisionId decisionId sequence s') :=
  ⟨⟨h.revisions, h.decisions, h.memberships⟩, h.same⟩

theorem addRevision {row : IndexedRow} (h : s.revisions.get? row.eventRevisionId = none) :
    KeepsMemberships s (addRevision row s) where
  revisions := by
    intro k r hr
    have hne : k ≠ row.eventRevisionId := by
      rintro rfl
      rw [h] at hr
      cases hr
    exact (Dict.get?_set_of_ne _ _ hne).trans hr
  decisions := fun _ _ hd => hd
  memberships := fun _ m hm => ⟨m, hm, rfl⟩
  same := rfl

theorem recordDecision (h : KeepsMemberships s s') {decisionId : String}
    (hfresh : s.selectionById.get? decisionId = none) (eventId revisionId : String)
    (sequence : Int) :
    KeepsMemberships s (recordDecision eventId revisionId decisionId sequence s') where
  revisions := h.revisions
  decisions := by
    intro d facts hd
    have hne : d ≠ decisionId := by
      rintro rfl
      rw [hfresh] at hd
      cases hd
    exact (Dict.get?_set_of_ne _ _ hne).trans (h.decisions d facts hd)
  memberships := h.memberships
  same := h.same

end KeepsMemberships

/-! ## However a method ends -/

/-- What holds of the index that a method leaves. -/
abbrev Leaves {α : Type} (method : IndexMethod α) (P : EventIndex → Prop) (s : EventIndex) : Prop :=
  method.wp (fun _ s' => P s') (fun _ s' => P s') s

theorem Leaves.after {α : Type} {x : IndexMethod α} {P : EventIndex → Prop} {s : EventIndex}
    (h : Leaves x P s) : P (x s).2 := by
  unfold Leaves Method.wp at h
  rcases hx : x s with ⟨_ | _, t⟩ <;> rw [hx] at h <;> exact h

theorem Leaves.bind {α β : Type} {R : EventIndex → EventIndex → Prop}
    (htrans : ∀ {a b c}, R a b → R b c → R a c) {x : IndexMethod α} {f : α → IndexMethod β}
    {s : EventIndex} (hx : Leaves x (R s) s) (hf : ∀ a s', Leaves (f a) (R s') s') :
    Leaves (x >>= f) (R s) s := by
  rw [Leaves, wp_bind]
  refine wp_mono hx (fun a s' h => ?_) fun _ _ h => h
  exact wp_mono (hf a s') (fun _ _ h' => htrans h h') fun _ _ h' => htrans h h'

theorem Leaves.ofExcept {α : Type} {P : EventIndex → Prop} {s : EventIndex} (hs : P s)
    (x : Except IndexFailure α) : Leaves (Method.ofExcept x) P s := by
  simp only [wp_ofExcept]
  exact ⟨fun _ _ => hs, fun _ _ => hs⟩

/-! ## What an index keeps consistent -/

/-- A membership is filed under its own event and revision, and names the sequence that the index
recorded for its decision. -/
structure IndexInv (s : EventIndex) : Prop where
  keyed : ∀ key m, s.memberships.get? key = some m → (m.eventId, m.eventRevisionId) = key
  selected : ∀ key m d, s.memberships.get? key = some m → m.selectionDecisionId = some d →
    ∃ n, s.selectionById.get? d = some (key.1, key.2, n) ∧ m.selectionSequence = some n
  unselected : ∀ key m, s.memberships.get? key = some m → m.selectionDecisionId = none →
    m.selectionSequence = none

theorem indexInv_empty : IndexInv .empty where
  keyed := fun _ _ h => (by cases h)
  selected := fun _ _ _ h => (by cases h)
  unselected := fun _ _ h => (by cases h)

namespace IndexInv

variable {s s' : EventIndex}

theorem keeps (inv : IndexInv s) (h : KeepsMemberships s s') : IndexInv s' where
  keyed := by
    rw [h.same]
    exact inv.keyed
  selected := by
    rw [h.same]
    intro key m d hm hd
    obtain ⟨n, hfacts, hn⟩ := inv.selected key m d hm hd
    exact ⟨n, h.decisions _ _ hfacts, hn⟩
  unselected := by
    rw [h.same]
    exact inv.unselected

theorem setMembership (inv : IndexInv s) {key : String × String} {m : EventIndexMembership}
    (hkeyed : (m.eventId, m.eventRevisionId) = key)
    (hselected : ∀ d, m.selectionDecisionId = some d →
      ∃ n, s.selectionById.get? d = some (key.1, key.2, n) ∧ m.selectionSequence = some n)
    (hunselected : m.selectionDecisionId = none → m.selectionSequence = none) :
    IndexInv { s with memberships := s.memberships.set key m } where
  keyed := by
    intro k m' hm'
    simp only [get?_set] at hm'
    split at hm'
    · rename_i hk
      cases hm'
      exact hkeyed.trans hk.symm
    · exact inv.keyed k m' hm'
  selected := by
    intro k m' d hm' hd
    simp only [get?_set] at hm'
    split at hm'
    · rename_i hk
      cases hm'
      rw [hk]
      exact hselected d hd
    · exact inv.selected k m' d hm' hd
  unselected := by
    intro k m' hm'
    simp only [get?_set] at hm'
    split at hm'
    · cases hm'
      exact hunselected
    · exact inv.unselected k m' hm'

end IndexInv

/-- The decision that the membership of a revision names. -/
def EventIndex.decisionAt (s : EventIndex) (key : String × String) : Option String :=
  (s.memberships.get? key).bind (·.selectionDecisionId)

def ProjectedSelection.key (s : ProjectedSelection) : String × String := (s.eventId, s.revisionId)

/-- The decision that a list of selections gives a revision last. -/
def lastDecision : List ProjectedSelection → String × String → Option String
  | [], _ => none
  | s :: rest, key => (lastDecision rest key).or (if key = s.key then some s.decisionId else none)

/-- The index grows, and the memberships name the decisions given. -/
structure Decides (decided : String × String → Option String) (s s' : EventIndex) : Prop
    extends IndexGrows s s' where
  inv : IndexInv s'
  at_key : ∀ key, s'.decisionAt key = (decided key).or (s.decisionAt key)

theorem Decides.refl {s : EventIndex} (inv : IndexInv s) : Decides (fun _ => none) s s :=
  ⟨.refl s, inv, fun _ => rfl⟩

theorem Decides.keeps {s s' : EventIndex} (inv : IndexInv s) (h : KeepsMemberships s s') :
    Decides (fun _ => none) s s' where
  toIndexGrows := h.toIndexGrows
  inv := inv.keeps h
  at_key := by
    intro key
    unfold EventIndex.decisionAt
    rw [h.same, Option.none_or]

theorem Decides.trans {f g : String × String → Option String} {s s' s'' : EventIndex}
    (h : Decides f s s') (h' : Decides g s' s'') :
    Decides (fun key => (g key).or (f key)) s s'' where
  toIndexGrows := h.toIndexGrows.trans h'.toIndexGrows
  inv := h'.inv
  at_key := fun key => by rw [h'.at_key, h.at_key, Option.or_assoc]

/-! ## What a projection leaves -/

/-- What holds of the answer and the index of a method that returns. -/
abbrev Answers {α : Type} (method : IndexMethod α) (Q : α → EventIndex → Prop) (s : EventIndex) :
    Prop :=
  method.wp Q (fun _ _ => True) s

/-- A stored row is a revision of its event, and has a membership of its digest. -/
def RowSettled (services : IndexServices) (revision : JsonValue) (s : EventIndex) : Prop :=
  ∃ fields nested row, splitRow revision = .ok (fields, nested) ∧
    normalise services fields = .ok row ∧
    (∃ r, s.revisions.get? row.eventRevisionId = some r ∧ r.eventId = row.eventId ∧
      r.row.semanticDigest = row.semanticDigest) ∧
    ∃ m, s.memberships.get? (row.eventId, row.eventRevisionId) = some m ∧
      m.revisionSemanticSha256 = row.revisionSemanticSha256

/-- A selection that was made: its revision, its decision and a membership are there. -/
structure SelectionSettled (selection : ProjectedSelection) (s : EventIndex) : Prop where
  owned : ∃ r, s.revisions.get? selection.revisionId = some r ∧ r.eventId = selection.eventId
  known : ∃ n, s.selectionById.get? selection.decisionId =
      some (selection.eventId, selection.revisionId, n) ∧
    (selection.sequence.isNull = true ∨ selection.sequence.equalsInt n = true)
  filed : ∃ m, s.memberships.get? selection.key = some m

theorem RowSettled.mono {services : IndexServices} {revision : JsonValue} {s s' : EventIndex}
    (h : RowSettled services revision s) (hgrows : IndexGrows s s') :
    RowSettled services revision s' := by
  obtain ⟨fields, nested, row, hsplit, hrow, ⟨r, hr, hsame⟩, m, hm, hdigest⟩ := h
  obtain ⟨m', hm', hdigest'⟩ := hgrows.memberships _ m hm
  exact ⟨fields, nested, row, hsplit, hrow, ⟨r, hgrows.revisions _ r hr, hsame⟩, m', hm',
    hdigest'.trans hdigest⟩

theorem SelectionSettled.mono {selection : ProjectedSelection} {s s' : EventIndex}
    (h : SelectionSettled selection s) (hgrows : IndexGrows s s') :
    SelectionSettled selection s' where
  owned := by
    obtain ⟨r, hr, hevent⟩ := h.owned
    exact ⟨r, hgrows.revisions _ r hr, hevent⟩
  known := by
    obtain ⟨n, hn, hsequence⟩ := h.known
    exact ⟨n, hgrows.decisions _ _ hn, hsequence⟩
  filed := by
    obtain ⟨m, hm⟩ := h.filed
    obtain ⟨m', hm', _⟩ := hgrows.memberships _ m hm
    exact ⟨m', hm'⟩

section Answers

variable {s : EventIndex}

theorem storeRevision_stores (row : IndexedRow) :
    Answers (storeRevision true row) (fun _ s' => KeepsMemberships s s' ∧
      ∃ r, s'.revisions.get? row.eventRevisionId = some r ∧ r.eventId = row.eventId ∧
        r.row.semanticDigest = row.semanticDigest) s := by
  simp only [storeRevision, raiseIndexIf, wp_bind, wp_self]
  split
  · rename_i existing hexisting
    simp only [wp_bind, wp_raiseIf, Bool.true_and, bne_eq_false_iff_eq, implies_true, true_and]
    exact fun howner hdigest => ⟨.refl s, existing, hexisting, howner, hdigest⟩
  · rename_i hfresh
    exact ⟨.addRevision hfresh, _, get?_set_self _ _ _, rfl, rfl⟩

theorem fileMembership_files (inv : IndexInv s) (row : IndexedRow) :
    Answers (fileMembership row) (fun m s' => Decides (fun _ => none) s s' ∧
      s'.memberships.get? (row.eventId, row.eventRevisionId) = some m ∧
      m.revisionSemanticSha256 = row.revisionSemanticSha256) s := by
  simp only [fileMembership, raiseIndexIf, wp_bind, wp_raiseIf, wp_assign, implies_true, true_and]
  intro hsame
  cases hprior : s.memberships.get? (row.eventId, row.eventRevisionId) with
  | some prior =>
    -- the receipt that is there is filed again
    rw [hprior, Option.any_some, bne_eq_false_iff_eq] at hsame
    rw [Option.getD_some, Dict.set_self hprior]
    exact ⟨.refl inv, hprior, hsame⟩
  | none =>
    refine ⟨⟨.setMembership fun m' hm' => (by cases hprior.symm.trans hm'),
      inv.setMembership rfl (fun _ h => (by cases h)) fun _ => rfl, fun key => ?_⟩, get?_set_self _ _ _, rfl⟩
    simp only [EventIndex.decisionAt, get?_set]
    split
    · rename_i hkey
      rw [hkey, hprior]
      rfl
    · rfl

theorem applyProjectedRevision_settles (services : IndexServices) (inv : IndexInv s)
    {revision : JsonValue} {fields : JsonObject} {nested : Option JsonObject}
    (hsplit : splitRow revision = .ok (fields, nested)) :
    Answers (applyProjectedRevision services fields) (fun m s' => Decides (fun _ => none) s s' ∧
      RowSettled services revision s' ∧
      s'.memberships.get? (m.eventId, m.eventRevisionId) = some m) s := by
  simp only [applyProjectedRevision, wp_bind, wp_ofExcept, implies_true, and_true]
  intro row hrow
  refine wp_mono (storeRevision_stores row) (fun _ s₁ h₁ => ?_) fun _ _ _ => trivial
  obtain ⟨hkeeps, hstored⟩ := h₁
  refine wp_mono (fileMembership_files (inv.keeps hkeeps) row) (fun m s₂ h₂ => ?_)
    fun _ _ _ => trivial
  obtain ⟨hdecides, hfiled, hdigest⟩ := h₂
  obtain ⟨r, hr, hsame⟩ := hstored
  refine ⟨(Decides.keeps inv hkeeps).trans hdecides, ⟨fields, nested, row, hsplit, hrow,
    ⟨r, hdecides.revisions _ r hr, hsame⟩, m, hfiled, hdigest⟩, ?_⟩
  rwa [hdecides.inv.keyed _ m hfiled]

/-- The inline selections of a list of rows. -/
def nestedSelections (revisions : List JsonValue) : List JsonObject :=
  revisions.flatMap fun revision =>
    match splitRow revision with
    | .ok (_, nested) => nested.toList
    | .error _ => []

theorem applyRows_settles (services : IndexServices) (revisions : List JsonValue) :
    ∀ {s : EventIndex}, IndexInv s → Answers (applyRows services revisions) (fun found s' =>
      Decides (fun _ => none) s s' ∧ found.1 = nestedSelections revisions ∧
      (∀ revision ∈ revisions, RowSettled services revision s') ∧
      ∀ m ∈ found.2, ∃ m', s'.memberships.get? (m.eventId, m.eventRevisionId) = some m') s := by
  induction revisions with
  | nil =>
    intro s inv
    exact ⟨.refl inv, rfl, List.forall_mem_nil _,
      List.forall_mem_nil _⟩
  | cons revision rest ih =>
    intro s inv
    simp only [applyRows, wp_bind, wp_ofExcept, implies_true, and_true]
    rintro ⟨fields, nested⟩ hsplit
    refine wp_mono (applyProjectedRevision_settles services inv hsplit)
      (fun m s₁ h₁ => ?_) fun _ _ _ => trivial
    obtain ⟨hdecides, hsettled, hfiled⟩ := h₁
    refine wp_mono (ih hdecides.inv) (fun found s₂ h₂ => ?_) fun _ _ _ => trivial
    obtain ⟨hrest, hnested, hrows, hreceipts⟩ := h₂
    refine ⟨hdecides.trans hrest, ?_, ?_, ?_⟩
    · rw [nestedSelections, List.flatMap_cons, hsplit]
      exact congrArg (nested.toList ++ ·) hnested
    · exact List.forall_mem_cons.mpr ⟨hsettled.mono hrest.toIndexGrows, hrows⟩
    · refine List.forall_mem_cons.mpr ⟨?_, hreceipts⟩
      obtain ⟨m'', hm'', _⟩ := hrest.memberships _ _ hfiled
      exact ⟨m'', hm''⟩

end Answers

section Selections

variable {s : EventIndex}

/-- The facts that a decision stands for once it was made. -/
def SelectionKnown (selection : ProjectedSelection) (n : Int) (s : EventIndex) : Prop :=
  (∃ r, s.revisions.get? selection.revisionId = some r ∧ r.eventId = selection.eventId) ∧
    s.selectionById.get? selection.decisionId = some (selection.eventId, selection.revisionId, n) ∧
    (selection.sequence.isNull = true ∨ selection.sequence.equalsInt n = true)

theorem applyIdempotentSelection_decides (selection : ProjectedSelection) :
    Answers (applyIdempotentSelection selection) (fun n s' => KeepsMemberships s s' ∧
      SelectionKnown selection n s') s := by
  simp only [applyIdempotentSelection, raiseIndexIf, wp_bind, wp_raiseIf, implies_true, true_and]
  intro howned
  have howned : ∃ r, s.revisions.get? selection.revisionId = some r ∧
      r.eventId = selection.eventId := by
    simpa [Option.any_eq_true] using howned
  split
  · -- a decision that is known
    rename_i eventId revisionId n hfacts
    simp only [wp_bind, wp_raiseIf, implies_true, true_and]
    intro hsame
    simp only [Bool.or_eq_false_iff, bne_eq_false_iff_eq, Bool.and_eq_false_iff,
      Bool.not_eq_false'] at hsame
    obtain ⟨⟨rfl, rfl⟩, hsequence⟩ := hsame
    exact ⟨.refl s, howned, hfacts, hsequence⟩
  · -- a fresh one
    rename_i hfresh
    have hopen := KeepsMemberships.openHistory (s := s) selection.eventId
    simp only [selectFresh, raiseIndexIf, wp_bind, wp_raiseIf, implies_true, true_and]
    intro _ hexpected
    refine ⟨(hopen.appendSelection _ _ _ _).recordDecision hfresh _ _ _, ?_, ?_, ?_⟩
    · obtain ⟨r, hr, hevent⟩ := howned
      exact ⟨r, hopen.revisions _ r hr, hevent⟩
    · exact get?_set_self _ _ _
    · cases hnull : selection.sequence.isNull with
      | true => exact .inl rfl
      | false =>
        rw [hnull, Bool.not_false, Bool.true_and, bne_eq_false_iff_eq] at hexpected
        exact .inr (JsonValue.equalsInt_of_asInt? hexpected)

theorem applySelection_decides (inv : IndexInv s) (value : JsonValue) :
    Answers (applySelection value) (fun m s' => ∃ selection, readSelection value = .ok selection ∧
      Decides (fun key => if key = selection.key then some selection.decisionId else none) s s' ∧
      SelectionSettled selection s' ∧
      s'.memberships.get? (m.eventId, m.eventRevisionId) = some m) s := by
  simp only [applySelection, wp_bind, wp_ofExcept, implies_true, and_true]
  intro selection hread
  refine wp_mono (applyIdempotentSelection_decides selection) (fun n s₁ h₁ => ?_)
    fun _ _ _ => trivial
  obtain ⟨hkeeps, howned, hfacts, hsequence⟩ := h₁
  have inv₁ := inv.keeps hkeeps
  have hkey : ((selectedMembership selection n s₁).eventId,
      (selectedMembership selection n s₁).eventRevisionId) = selection.key := by
    unfold selectedMembership
    cases hm : s₁.memberships.get? (selection.eventId, selection.revisionId) with
    | none => rfl
    | some m => exact inv₁.keyed _ m hm
  have hgrows : IndexGrows s₁ { s₁ with
      memberships := s₁.memberships.set selection.key (selectedMembership selection n s₁) } := by
    refine .setMembership fun m hm => ?_
    unfold selectedMembership
    rw [show s₁.memberships.get? (selection.eventId, selection.revisionId) = some m from hm,
      Option.getD_some]
  refine ⟨selection, hread, ⟨hkeeps.toIndexGrows.trans hgrows, ?_, fun key => ?_⟩,
    ⟨howned, ⟨n, hfacts, hsequence⟩, _, get?_set_self _ _ _⟩, ?_⟩
  · refine inv₁.setMembership hkey (fun d hd => ?_) fun hnone => (by cases hnone)
    cases hd
    exact ⟨n, hfacts, rfl⟩
  · simp only [EventIndex.decisionAt, get?_set]
    split
    · rename_i hk
      rw [if_pos (show key = selection.key from hk)]
      rfl
    · rename_i hk
      rw [if_neg (show key ≠ selection.key from hk), hkeeps.same, Option.none_or]
  · rw [hkey]
    exact get?_set_self _ _ _

/-- The selections that a list of values holds. -/
def readSelections (values : List JsonValue) : List ProjectedSelection :=
  values.filterMap fun value => (readSelection value).toOption

theorem applySelections_decides (values : List JsonValue) :
    ∀ {s : EventIndex}, IndexInv s → Answers (applySelections values) (fun updated s' =>
      Decides (lastDecision (readSelections values)) s s' ∧
      (∀ value ∈ values, ∃ selection, readSelection value = .ok selection ∧
        SelectionSettled selection s') ∧
      ∀ m ∈ updated, ∃ m', s'.memberships.get? (m.eventId, m.eventRevisionId) = some m') s := by
  induction values with
  | nil =>
    intro s inv
    exact ⟨.refl inv, List.forall_mem_nil _, List.forall_mem_nil _⟩
  | cons value rest ih =>
    intro s inv
    simp only [applySelections, wp_bind]
    refine wp_mono (applySelection_decides inv value) (fun m s₁ h₁ => ?_) fun _ _ _ => trivial
    obtain ⟨selection, hread, hdecides, hsettled, hfiled⟩ := h₁
    refine wp_mono (ih hdecides.inv) (fun updated s₂ h₂ => ?_) fun _ _ _ => trivial
    obtain ⟨hrest, hsettledRest, hupdated⟩ := h₂
    have hselections : readSelections (value :: rest) = selection :: readSelections rest := by
      rw [readSelections, List.filterMap_cons, hread]
      rfl
    refine ⟨hselections ▸ hdecides.trans hrest, ?_, ?_⟩
    · exact List.forall_mem_cons.mpr
        ⟨⟨selection, hread, hsettled.mono hrest.toIndexGrows⟩, hsettledRest⟩
    · refine List.forall_mem_cons.mpr ⟨?_, hupdated⟩
      obtain ⟨m'', hm'', _⟩ := hrest.memberships _ _ hfiled
      exact ⟨m'', hm''⟩

end Selections

/-! ## A projection -/

section Restoring

variable {α : Type} {x : IndexMethod α} {s s' : EventIndex}

theorem restoring_eq_ok {a : α} : restoring x s = (.ok a, s') ↔ x s = (.ok a, s') := by
  unfold restoring
  rcases x s with ⟨_ | _, t⟩ <;> simp

theorem restoring_eq_error {e : IndexFailure} (h : restoring x s = (.error e, s')) : s' = s := by
  unfold restoring at h
  rcases hx : x s with ⟨_ | _, t⟩ <;> rw [hx] at h <;> cases h
  rfl

end Restoring

section Projections

variable (services : IndexServices)

/-- The selections of a projection, in the order in which they are made. -/
def projectedSelections (projection : JsonObject) : List ProjectedSelection :=
  match readProjection services projection with
  | .ok (revisions, selections) =>
    readSelections ((nestedSelections revisions).map .object ++ selections)
  | .error _ => []

/-- Every row and every selection of the projection was applied. -/
def ProjectionSettled (projection : JsonObject) (s : EventIndex) : Prop :=
  ∃ revisions selections, readProjection services projection = .ok (revisions, selections) ∧
    (∀ revision ∈ revisions, RowSettled services revision s) ∧
    ∀ value ∈ (nestedSelections revisions).map .object ++ selections,
      ∃ selection, readSelection value = .ok selection ∧ SelectionSettled selection s

variable {projection : JsonObject}

theorem ProjectionSettled.mono {services : IndexServices}
    {s s' : EventIndex} (h : ProjectionSettled services projection s) (hgrows : IndexGrows s s') :
    ProjectionSettled services projection s' := by
  obtain ⟨revisions, selections, hread, hrows, hselections⟩ := h
  refine ⟨revisions, selections, hread, fun r hr => (hrows r hr).mono hgrows, fun v hv => ?_⟩
  obtain ⟨selection, hv, hsettled⟩ := hselections v hv
  exact ⟨selection, hv, hsettled.mono hgrows⟩

/-- An accepted projection is settled, and its selections name the decisions. -/
theorem applyProjection_settles {s s' : EventIndex}
    {answer : List EventIndexMembership} (inv : IndexInv s)
    (h : applyProjection services projection s = (.ok answer, s')) :
    Decides (lastDecision (projectedSelections services projection)) s s' ∧
      ProjectionSettled services projection s' := by
  unfold applyProjection at h
  rw [Method.bind_eq_ok] at h
  obtain ⟨⟨revisions, selections⟩, s₁, hread, h⟩ := h
  rw [Method.ofExcept_eq_ok] at hread
  obtain ⟨hread, rfl⟩ := hread
  rw [restoring_eq_ok] at h
  have hspec : Answers (applyProjectionBody services revisions selections) (fun _ s' =>
      Decides (lastDecision (readSelections
        ((nestedSelections revisions).map .object ++ selections))) s s' ∧
      (∀ revision ∈ revisions, RowSettled services revision s') ∧
      ∀ value ∈ (nestedSelections revisions).map .object ++ selections,
        ∃ selection, readSelection value = .ok selection ∧ SelectionSettled selection s') s := by
    simp only [applyProjectionBody, wp_bind]
    refine wp_mono (applyRows_settles services revisions inv) (fun found s₁ h₁ => ?_)
      fun _ _ _ => trivial
    obtain ⟨hrows, hnested, hsettled, _⟩ := h₁
    rw [hnested]
    refine wp_mono (applySelections_decides _ hrows.inv) (fun updated s₂ h₂ => ?_)
      fun _ _ _ => trivial
    obtain ⟨hdecides, hselections, _⟩ := h₂
    simp only [wp_ofExcept, implies_true, and_true]
    intro _ _
    refine ⟨?_, fun r hr => (hsettled r hr).mono hdecides.toIndexGrows, hselections⟩
    have htrans := hrows.trans hdecides
    simpa only [Option.or_none] using htrans
  obtain ⟨hdecides, hrows, hselections⟩ := (wp_iff.mp hspec).1 _ _ h
  have hprojected : projectedSelections services projection =
      readSelections ((nestedSelections revisions).map .object ++ selections) := by
    unfold projectedSelections
    rw [hread]
  rw [hprojected]
  exact ⟨hdecides, revisions, selections, hread, hrows, hselections⟩

theorem applyProjection_restores {s s' : EventIndex} {e : IndexFailure}
    (h : applyProjection services projection s = (.error e, s')) : s' = s := by
  have hspec : (applyProjection services projection).wp (fun _ _ => True) (fun _ s' => s' = s) s := by
    simp only [applyProjection, wp_bind, wp_ofExcept, implies_true, and_true]
    intro found _
    exact wp_iff.mpr ⟨fun _ _ _ => trivial, fun _ _ hraise => restoring_eq_error hraise⟩
  exact (wp_iff.mp hspec).2 _ _ h

end Projections

end Robata.Retrieval
