import Robata.Admission.AdmissionLedger

/-!
# The evidence an admission binds

Aliases, source decisions and alignment decisions arrive in any order, and a call that raises
changes nothing.  An append answers with the decision stored under the same logical key, and an
evaluation reads the alignment filed under the manifest id of the current source decision.  The
first is the decision that was handed in when the ids outside the projection agree; the second
was made for the selected digest as long as no source decision selects a manifest id anew, with
another digest, over a usable alignment.
-/

namespace Robata.Admission

open Contracts Lib List
open AdmissionLedger (appendAlignmentDecision appendSourceDecision currentAlignment currentSource
  evaluatePrimary refusal selectsManifest sourceDecision)
open AlignmentDecisionValues (projection selectedIds)
open KeyedTable (find?_upsert key_of_find? mem_of_find? rows_upsert_of_none)
open Option (bind_some)

variable {hashing : AdmissionHashing}

/-- The calls that write a ledger. -/
inductive AdmissionCall (hashing : AdmissionHashing)
  | observeAlias (observation : SourceAliasObservation hashing)
  | appendSource (decision : SourceAdmissionDecision hashing)
  | appendAlignment (decision : AlignmentAdmissionDecision hashing)

/-- The ledger that a call leaves when it returns. -/
def runAdmission : AdmissionCall hashing → AdmissionLedger hashing →
    Except AdmissionFailure (AdmissionLedger hashing)
  | .observeAlias observation, ledger => (ledger.observeAlias observation).map Prod.snd
  | .appendSource decision, ledger => (ledger.appendSourceDecision decision).map Prod.snd
  | .appendAlignment decision, ledger => (ledger.appendAlignmentDecision decision).map Prod.snd

/-- The ledger after a list of calls. -/
def ledgerAfter (calls : List (AdmissionCall hashing)) : AdmissionLedger hashing :=
  replay runAdmission calls .empty

/-- An append that returns gives back its argument, but for the instant. -/
def GivesBack : AdmissionCall hashing → AdmissionLedger hashing → Prop
  | .observeAlias _, _ => True
  | .appendSource decision, ledger => ∀ returned ledger',
      ledger.appendSourceDecision decision = .ok (returned, ledger') →
        { returned with decidedAt := decision.decidedAt } = decision
  | .appendAlignment decision, ledger => ∀ returned ledger',
      ledger.appendAlignmentDecision decision = .ok (returned, ledger') →
        { returned with decidedAt := decision.decidedAt } = decision

/-- A call of the list has appended the alignment decision. -/
def AppendedIn (calls : List (AdmissionCall hashing))
    (alignment : AlignmentAdmissionDecision hashing) : Prop :=
  ∃ front back ledger', calls = front ++ .appendAlignment alignment :: back ∧
    (ledgerAfter front).appendAlignmentDecision alignment = .ok (alignment, ledger')

/-- An admissible evaluation rests on an alignment that was appended for the manifest id and the
manifest digest of the current source decision. -/
def EvaluationsAreBound (calls : List (AdmissionCall hashing)) : Prop :=
  ∀ recordingIdentity policy evaluation,
    (ledgerAfter calls).evaluatePrimary recordingIdentity policy = .ok evaluation →
    evaluation.admissible = true →
    ∃ source alignment, (ledgerAfter calls).currentSource recordingIdentity = some source ∧
      source.outcome = .ready ∧
      evaluation.readyManifestId.bind (ledgerAfter calls).currentAlignment = some alignment ∧
      AppendedIn calls alignment ∧
      source.readyManifestId = some alignment.readyManifestId ∧
      source.readyManifestSemanticSha256 = some alignment.readyManifestSemanticSha256

/-- Both, at every point of a list of calls. -/
def AdmissionBinds (calls : List (AdmissionCall hashing)) : Prop :=
  Admitted runAdmission GivesBack calls .empty ∧
    ∀ front, front <+: calls → EvaluationsAreBound front

/-- The source decision does not select, with another digest, the manifest id of an alignment
that a policy may admit. -/
def KeepsDigest (decision : SourceAdmissionDecision hashing) (ledger : AdmissionLedger hashing) :
    Prop :=
  ∀ readyManifestId alignment, decision.outcome = .ready →
    decision.readyManifestId = some readyManifestId →
    ledger.currentAlignment readyManifestId = some alignment → alignment.outcome.allowed = true →
    decision.readyManifestSemanticSha256 = some alignment.readyManifestSemanticSha256

/-- A decision that is stored under the same logical key selects the same ids, and a source
decision that is appended keeps the digest. -/
def FaithfulCall : AdmissionCall hashing → AdmissionLedger hashing → Prop
  | .observeAlias _, _ => True
  | .appendSource decision, ledger =>
    (∀ existing, ledger.sourceDecisions.find? decision.decisionLogicalKey = some existing →
      existing.selectedIds = decision.selectedIds) ∧
    (ledger.sourceDecisions.find? decision.decisionLogicalKey = none →
      ledger.sourceGuards decision = .ok () → KeepsDigest decision ledger)
  | .appendAlignment decision, ledger =>
    ∀ existing, ledger.alignmentDecisions.find? decision.decisionLogicalKey = some existing →
      existing.selectedIds = decision.selectedIds

instance (decision : SourceAdmissionDecision hashing) (ledger : AdmissionLedger hashing) :
    Decidable (KeepsDigest decision ledger) :=
  decidable_of_iff
    (decision.outcome = .ready → ∀ m ∈ decision.readyManifestId,
      ∀ alignment ∈ ledger.currentAlignment m, alignment.outcome.allowed = true →
        decision.readyManifestSemanticSha256 = some alignment.readyManifestSemanticSha256)
    ⟨fun h m alignment hready hm halignment => h hready m hm alignment halignment,
      fun h hready m hm alignment halignment => h m alignment hready hm halignment⟩

instance (call : AdmissionCall hashing) (ledger : AdmissionLedger hashing) :
    Decidable (FaithfulCall call ledger) :=
  match call with
  | .observeAlias _ => inferInstanceAs (Decidable True)
  | .appendSource decision =>
    inferInstanceAs (Decidable
      ((∀ existing ∈ ledger.sourceDecisions.find? decision.decisionLogicalKey,
          existing.selectedIds = decision.selectedIds) ∧
        (ledger.sourceDecisions.find? decision.decisionLogicalKey = none →
          ledger.sourceGuards decision = .ok () → KeepsDigest decision ledger)))
  | .appendAlignment decision =>
    inferInstanceAs (Decidable
      (∀ existing ∈ ledger.alignmentDecisions.find? decision.decisionLogicalKey,
        existing.selectedIds = decision.selectedIds))

/-- The digested projections of the decisions of a list of calls. -/
def digested (calls : List (AdmissionCall hashing)) : Set AdmissionPayload :=
  { payload | ∃ call ∈ calls, match call with
    | .observeAlias _ => False
    | .appendSource decision => payload = .sourceDecision decision.projection
    | .appendAlignment decision => payload = .alignmentDecision decision.projection }

theorem digested_append {calls : List (AdmissionCall hashing)} {call : AdmissionCall hashing}
    {payload : AdmissionPayload} (h : payload ∈ digested calls) :
    payload ∈ digested (calls ++ [call]) := by
  obtain ⟨c, hc, h⟩ := h
  exact ⟨c, mem_append_left _ hc, h⟩

/-! ## What a call can do -/

section Steps

variable {ledger ledger' : AdmissionLedger hashing}

theorem appendSource_cases {decision returned : SourceAdmissionDecision hashing}
    (h : ledger.appendSourceDecision decision = .ok (returned, ledger')) :
    (ledger.sourceDecisions.find? decision.decisionLogicalKey = some returned ∧ ledger' = ledger) ∨
      (ledger.sourceDecisions.find? decision.decisionLogicalKey = none ∧
        ledger.sourceGuards decision = .ok () ∧ returned = decision ∧
        ledger' = ledger.recordSource decision) := by
  unfold appendSourceDecision at h
  split at h
  · rename_i existing hfind
    cases h
    exact .inl ⟨hfind, rfl⟩
  · rename_i hfind
    obtain ⟨_, hguards, h⟩ := bind_eq_ok.mp h
    cases h
    exact .inr ⟨hfind, hguards, rfl, rfl⟩

theorem appendAlignment_cases {decision returned : AlignmentAdmissionDecision hashing}
    (h : ledger.appendAlignmentDecision decision = .ok (returned, ledger')) :
    (ledger.alignmentDecisions.find? decision.decisionLogicalKey = some returned ∧
        ledger' = ledger) ∨
      (ledger.alignmentDecisions.find? decision.decisionLogicalKey = none ∧
        ledger.alignmentGuards decision = .ok () ∧ returned = decision ∧
        ledger' = ledger.recordAlignment decision) := by
  unfold appendAlignmentDecision at h
  split at h
  · rename_i existing hfind
    cases h
    exact .inl ⟨hfind, rfl⟩
  · rename_i hfind
    obtain ⟨_, hguards, h⟩ := bind_eq_ok.mp h
    cases h
    exact .inr ⟨hfind, hguards, rfl, rfl⟩

theorem observeAlias_cases {observation returned : SourceAliasObservation hashing}
    (h : ledger.observeAlias observation = .ok (returned, ledger')) :
    ledger'.sourceDecisions = ledger.sourceDecisions ∧
      ledger'.sourceCurrent = ledger.sourceCurrent ∧
      ledger'.alignmentDecisions = ledger.alignmentDecisions ∧
      ledger'.alignmentCurrent = ledger.alignmentCurrent := by
  simp only [AdmissionLedger.observeAlias, bind_eq_ok] at h
  obtain ⟨_, _, h⟩ := h
  split at h <;> cases h <;> exact ⟨rfl, rfl, rfl, rfl⟩

theorem runAdmission_eq_ok {α : Type} {x : Except AdmissionFailure (α × AdmissionLedger hashing)}
    (h : x.map Prod.snd = .ok ledger') : ∃ returned, x = .ok (returned, ledger') := by
  cases x with
  | error e => cases h
  | ok answer =>
    cases h
    exact ⟨answer.1, rfl⟩

end Steps

/-! ## The indexes of a ledger -/

/-- Every stored decision was an argument, and the current keys lead to decisions of their
subjects. -/
structure LedgerInv (calls : List (AdmissionCall hashing)) (ledger : AdmissionLedger hashing) :
    Prop where
  sources : ∀ d ∈ ledger.sourceDecisions.rows, .appendSource d ∈ calls
  alignments : ∀ a ∈ ledger.alignmentDecisions.rows, AppendedIn calls a
  sourceIndex : ∀ r key, ledger.sourceCurrent.get? r = some key →
    ∃ d, ledger.sourceDecisions.find? key = some d
  alignmentIndex : ∀ m key, ledger.alignmentCurrent.get? m = some key →
    ∃ a, ledger.alignmentDecisions.find? key = some a ∧ a.readyManifestId = m

theorem ledgerInv_empty : LedgerInv ([] : List (AdmissionCall hashing)) .empty where
  sources := forall_mem_nil _
  alignments := forall_mem_nil _
  sourceIndex := fun _ _ h => (by cases h)
  alignmentIndex := fun _ _ h => (by cases h)

theorem AppendedIn.append {calls : List (AdmissionCall hashing)}
    {alignment : AlignmentAdmissionDecision hashing} (h : AppendedIn calls alignment)
    (call : AdmissionCall hashing) : AppendedIn (calls ++ [call]) alignment := by
  obtain ⟨front, back, ledger', rfl, hrun⟩ := h
  exact ⟨front, back ++ [call], ledger', by simp, hrun⟩

namespace LedgerInv

variable {calls : List (AdmissionCall hashing)} {ledger ledger' : AdmissionLedger hashing}

theorem unchanged (inv : LedgerInv calls ledger) (call : AdmissionCall hashing)
    (hsources : ledger'.sourceDecisions = ledger.sourceDecisions)
    (hcurrent : ledger'.sourceCurrent = ledger.sourceCurrent)
    (halignments : ledger'.alignmentDecisions = ledger.alignmentDecisions)
    (hselected : ledger'.alignmentCurrent = ledger.alignmentCurrent) :
    LedgerInv (calls ++ [call]) ledger' where
  sources := by
    intro d hd
    rw [hsources] at hd
    exact mem_append_left _ (inv.sources d hd)
  alignments := by
    intro a ha
    rw [halignments] at ha
    exact (inv.alignments a ha).append call
  sourceIndex := by
    rw [hsources, hcurrent]
    exact inv.sourceIndex
  alignmentIndex := by
    rw [halignments, hselected]
    exact inv.alignmentIndex

theorem recordSource (inv : LedgerInv calls ledger) {decision : SourceAdmissionDecision hashing}
    (hfresh : ledger.sourceDecisions.find? decision.decisionLogicalKey = none) :
    LedgerInv (calls ++ [.appendSource decision]) (ledger.recordSource decision) where
  sources := by
    intro d hd
    have hrows : (ledger.recordSource decision).sourceDecisions.rows =
        ledger.sourceDecisions.rows ++ [decision] := rows_upsert_of_none hfresh
    rw [hrows, mem_append, mem_singleton] at hd
    rcases hd with hd | rfl
    · exact mem_append_left _ (inv.sources d hd)
    · exact mem_append_right _ (mem_singleton_self _)
  alignments := fun a ha => (inv.alignments a ha).append _
  sourceIndex := by
    intro r key hkey
    show ∃ d, (ledger.sourceDecisions.upsert decision).find? key = some d
    rw [find?_upsert]
    by_cases hsame : key = decision.decisionLogicalKey
    · exact ⟨decision, if_pos hsame⟩
    · rw [if_neg hsame]
      have hkey : (ledger.sourceCurrent.set decision.recordingIdentity
          decision.decisionLogicalKey).get? r = some key := hkey
      rw [Dict.get?_set] at hkey
      split at hkey
      · exact absurd (Option.some.inj hkey).symm hsame
      · exact inv.sourceIndex r key hkey
  alignmentIndex := inv.alignmentIndex

theorem recordAlignment {decision : AlignmentAdmissionDecision hashing}
    (inv : LedgerInv calls (ledgerAfter calls))
    (hfresh : (ledgerAfter calls).alignmentDecisions.find? decision.decisionLogicalKey = none)
    (hreturn : (ledgerAfter calls).appendAlignmentDecision decision = .ok (decision, ledger')) :
    LedgerInv (calls ++ [.appendAlignment decision]) ((ledgerAfter calls).recordAlignment decision)
    where
  sources := fun d hd => mem_append_left _ (inv.sources d hd)
  alignments := by
    intro a ha
    have hrows : ((ledgerAfter calls).recordAlignment decision).alignmentDecisions.rows =
        (ledgerAfter calls).alignmentDecisions.rows ++ [decision] :=
      rows_upsert_of_none hfresh
    rw [hrows, mem_append, mem_singleton] at ha
    rcases ha with ha | rfl
    · exact (inv.alignments a ha).append _
    · exact ⟨calls, [], ledger', rfl, hreturn⟩
  sourceIndex := inv.sourceIndex
  alignmentIndex := by
    intro m key hkey
    show ∃ a, ((ledgerAfter calls).alignmentDecisions.upsert decision).find? key = some a ∧ _
    have hkey : ((ledgerAfter calls).alignmentCurrent.set decision.readyManifestId
        decision.decisionLogicalKey).get? m = some key := hkey
    rw [Dict.get?_set] at hkey
    rw [find?_upsert]
    split at hkey
    · rename_i hm
      exact ⟨decision, if_pos (Option.some.inj hkey).symm, hm.symm⟩
    · obtain ⟨a, ha, hmanifest⟩ := inv.alignmentIndex m key hkey
      have hne : key ≠ decision.decisionLogicalKey := by
        rintro rfl
        rw [hfresh] at ha
        cases ha
      rw [if_neg hne]
      exact ⟨a, ha, hmanifest⟩

end LedgerInv

theorem ledgerAfter_append (calls : List (AdmissionCall hashing)) (call : AdmissionCall hashing) :
    ledgerAfter (calls ++ [call]) =
      commit (ledgerAfter calls) (runAdmission call (ledgerAfter calls)) :=
  replay_append calls call _

theorem ledgerInv_run (calls : List (AdmissionCall hashing)) :
    LedgerInv calls (ledgerAfter calls) := by
  induction calls using reverseRecOn with
  | nil => exact ledgerInv_empty
  | append_singleton calls call ih =>
    rw [ledgerAfter_append]
    cases hrun : runAdmission call (ledgerAfter calls) with
    | error e => exact ih.unchanged call rfl rfl rfl rfl
    | ok ledger' =>
      cases call with
      | observeAlias observation =>
        obtain ⟨_, hreturn⟩ := runAdmission_eq_ok hrun
        obtain ⟨hsources, hcurrent, halignments, hselected⟩ := observeAlias_cases hreturn
        exact ih.unchanged _ hsources hcurrent halignments hselected
      | appendSource decision =>
        obtain ⟨_, hreturn⟩ := runAdmission_eq_ok hrun
        rcases appendSource_cases hreturn with ⟨_, rfl⟩ | ⟨hfresh, _, _, rfl⟩
        · exact ih.unchanged _ rfl rfl rfl rfl
        · exact ih.recordSource hfresh
      | appendAlignment decision =>
        obtain ⟨_, hreturn⟩ := runAdmission_eq_ok hrun
        rcases appendAlignment_cases hreturn with ⟨_, rfl⟩ | ⟨hfresh, _, rfl, rfl⟩
        · exact ih.unchanged _ rfl rfl rfl rfl
        · exact ih.recordAlignment hfresh hreturn

/-! ## Reading the current decisions -/

section Current

variable {calls : List (AdmissionCall hashing)} {ledger : AdmissionLedger hashing}

theorem currentSource_recordSource (inv : LedgerInv calls ledger)
    {decision : SourceAdmissionDecision hashing}
    (hfresh : ledger.sourceDecisions.find? decision.decisionLogicalKey = none) (r : Sha256Digest) :
    (ledger.recordSource decision).currentSource r =
      if r = decision.recordingIdentity then some decision else ledger.currentSource r := by
  show ((ledger.sourceCurrent.set decision.recordingIdentity decision.decisionLogicalKey).get?
    r).bind (ledger.sourceDecisions.upsert decision).find? = _
  rw [Dict.get?_set]
  by_cases hr : r = decision.recordingIdentity
  · rw [if_pos hr, if_pos hr, bind_some, find?_upsert, if_pos rfl]
  · rw [if_neg hr, if_neg hr]
    unfold currentSource
    cases hkey : ledger.sourceCurrent.get? r with
    | none => rfl
    | some key =>
      obtain ⟨d, hd⟩ := inv.sourceIndex r key hkey
      have hne : key ≠ decision.decisionLogicalKey := by
        rintro rfl
        rw [hfresh] at hd
        cases hd
      rw [bind_some, bind_some, find?_upsert, if_neg hne]

theorem currentAlignment_recordAlignment (inv : LedgerInv calls ledger)
    {decision : AlignmentAdmissionDecision hashing}
    (hfresh : ledger.alignmentDecisions.find? decision.decisionLogicalKey = none)
    (m : OpaqueUuid) :
    (ledger.recordAlignment decision).currentAlignment m =
      if m = decision.readyManifestId then some decision else ledger.currentAlignment m := by
  show ((ledger.alignmentCurrent.set decision.readyManifestId decision.decisionLogicalKey).get?
    m).bind (ledger.alignmentDecisions.upsert decision).find? = _
  rw [Dict.get?_set]
  by_cases hm : m = decision.readyManifestId
  · rw [if_pos hm, if_pos hm, bind_some, find?_upsert, if_pos rfl]
  · rw [if_neg hm, if_neg hm]
    unfold currentAlignment
    cases hkey : ledger.alignmentCurrent.get? m with
    | none => rfl
    | some key =>
      obtain ⟨a, ha, _⟩ := inv.alignmentIndex m key hkey
      have hne : key ≠ decision.decisionLogicalKey := by
        rintro rfl
        rw [hfresh] at ha
        cases ha
      rw [bind_some, bind_some, find?_upsert, if_neg hne]

theorem currentAlignment_appended (inv : LedgerInv calls ledger) {m : OpaqueUuid}
    {alignment : AlignmentAdmissionDecision hashing}
    (h : ledger.currentAlignment m = some alignment) :
    AppendedIn calls alignment ∧ alignment.readyManifestId = m := by
  obtain ⟨key, hkey, hfind⟩ := Option.bind_eq_some_iff.mp h
  obtain ⟨a, ha, hmanifest⟩ := inv.alignmentIndex m key hkey
  cases hfind.symm.trans ha
  exact ⟨inv.alignments alignment (mem_of_find? hfind), hmanifest⟩

/-- An alignment is appended for the digest of every READY decision that selects its manifest. -/
theorem digest_of_alignmentGuards {decision : AlignmentAdmissionDecision hashing}
    (h : ledger.alignmentGuards decision = .ok ()) {r : Sha256Digest}
    {source : SourceAdmissionDecision hashing} (hsource : ledger.currentSource r = some source)
    (hready : source.outcome = .ready)
    (hmanifest : source.readyManifestId = some decision.readyManifestId) :
    source.readyManifestSemanticSha256 = some decision.readyManifestSemanticSha256 := by
  simp only [AdmissionLedger.alignmentGuards, AdmissionLedger.sourceForReadyManifest,
    bind_eq_ok] at h
  obtain ⟨owner, ⟨selected, hselected, _, hunique, howner⟩, h⟩ := h
  cases howner
  -- the source is among the decisions that select the manifest, so it is the only one
  obtain ⟨key, hkey, hfind⟩ := Option.bind_eq_some_iff.mp hsource
  have hmem : source ∈ selected := by
    have hcell : key ∈ ledger.sourceCurrent.values := Dict.mem_values_iff.mpr ⟨r, hkey⟩
    obtain ⟨d, hd, hlookup⟩ := mem_results_of_mapM hselected hcell
    unfold sourceDecision at hlookup
    rw [hfind] at hlookup
    cases hlookup
    exact hd
  have hfound : source ∈ selected.filter (selectsManifest decision.readyManifestId) := by
    rw [mem_filter]
    exact ⟨hmem, by simp [selectsManifest, hready, hmanifest]⟩
  cases hfiltered : selected.filter (selectsManifest decision.readyManifestId) with
  | nil =>
    rw [hfiltered] at hfound
    exact absurd hfound not_mem_nil
  | cons head rest =>
    rw [hfiltered] at hfound hunique h
    have hrest : rest = [] := length_eq_zero_iff.mp (by simpa using hunique)
    subst hrest
    rw [mem_singleton.mp hfound]
    simp only [head?_cons, bind_eq_ok, refuseIf_eq_ok, bne_eq_false_iff_eq] at h
    obtain ⟨_, hdigest, _⟩ := h
    exact hdigest

end Current

/-! ## Evaluations -/

/-- Every alignment that a READY recording reads, and that a policy may admit, carries the digest
the recording selects. -/
def CurrentBound (ledger : AdmissionLedger hashing) : Prop :=
  ∀ r source m alignment, ledger.currentSource r = some source → source.outcome = .ready →
    source.readyManifestId = some m → ledger.currentAlignment m = some alignment →
    alignment.outcome.allowed = true →
    source.readyManifestSemanticSha256 = some alignment.readyManifestSemanticSha256

section Evaluations

variable {ledger : AdmissionLedger hashing}

theorem evaluation_of_check {e e' : PrimaryAdmissionEvaluation} (h : e.check = .ok e') :
    e' = e := by
  simp only [PrimaryAdmissionEvaluation.check, bind_eq_ok] at h
  obtain ⟨_, _, _, _, _, _, _, _, h⟩ := h
  cases h
  rfl

theorem evaluatePrimary_admissible {r : Sha256Digest} {policy : PrimaryAdmissionPolicy hashing}
    {e : PrimaryAdmissionEvaluation} (h : ledger.evaluatePrimary r policy = .ok e)
    (hadmissible : e.admissible = true) :
    ∃ source m alignment, ledger.currentSource r = some source ∧ source.outcome = .ready ∧
      source.readyManifestId = some m ∧ ledger.currentAlignment m = some alignment ∧
      alignment.outcome.allowed = true ∧ e.readyManifestId = some m := by
  -- every other return carries a refusal
  have hrefusal : ∀ source alignment reason,
      (refusal r policy source alignment reason).check ≠ .ok e := by
    intro source alignment reason hcheck
    rw [evaluation_of_check hcheck] at hadmissible
    cases hadmissible
  unfold evaluatePrimary at h
  split at h
  · exact absurd h (hrefusal _ _ _)
  · rename_i source hsource
    split at h
    · exact absurd h (hrefusal _ _ _)
    · rename_i hready
      split at h
      · cases h
      · rename_i m hmanifest
        split at h
        · exact absurd h (hrefusal _ _ _)
        · rename_i alignment halignment
          split at h
          · exact absurd h (hrefusal _ _ _)
          · rename_i houtcome
            rw [not_not] at hready houtcome
            rw [evaluation_of_check h]
            exact ⟨source, m, alignment, hsource, hready, hmanifest, halignment,
              policy.allowed _ houtcome, hmanifest⟩

/-- The policy that admits all it may. -/
def widestPolicy (hashing : AdmissionHashing) : PrimaryAdmissionPolicy hashing where
  version := "1.0"
  semanticSha256 := hashing.semanticSha256 (.primaryPolicy ⟨"1.0", [.valid, .degraded]⟩)
  admissibleAlignmentOutcomes := [.valid, .degraded]
  nonempty := by decide
  nodup := by decide
  allowed := by decide
  digest := rfl

/-- A recording that is READY and reads a usable alignment is admitted by the widest policy. -/
theorem evaluatePrimary_widest {r : Sha256Digest} {m : OpaqueUuid}
    {source : SourceAdmissionDecision hashing} {alignment : AlignmentAdmissionDecision hashing}
    (hsource : ledger.currentSource r = some source) (hready : source.outcome = .ready)
    (hmanifest : source.readyManifestId = some m)
    (halignment : ledger.currentAlignment m = some alignment)
    (hallowed : alignment.outcome.allowed = true) :
    ∃ e, ledger.evaluatePrimary r (widestPolicy hashing) = .ok e ∧ e.admissible = true ∧
      e.readyManifestId = some m := by
  have hmem : alignment.outcome ∈ (widestPolicy hashing).admissibleAlignmentOutcomes := by
    show alignment.outcome ∈ [.valid, .degraded]
    simpa [AlignmentAdmissionOutcome.allowed] using hallowed
  have hpair := source.paired
  have hsome := alignment.selects_alignment hallowed
  rw [hmanifest] at hpair
  let e : PrimaryAdmissionEvaluation :=
    { recordingIdentity := r
      readyManifestId := some m
      readyManifestSemanticSha256 := source.readyManifestSemanticSha256
      sourceOutcome := some .ready
      alignmentOutcome := some alignment.outcome
      alignmentId := alignment.alignmentId
      alignmentSemanticSha256 := alignment.alignmentSemanticSha256
      policyVersion := (widestPolicy hashing).version
      policySha256 := (widestPolicy hashing).semanticSha256
      admissible := true
      reasonCode := "ADMISSIBLE" }
  have hcheck : e.check = .ok e := by
    simp [PrimaryAdmissionEvaluation.check, requirePair, invalidIf, e, ← hpair,
      ← alignment.paired, hallowed, Option.isNone_eq_false_iff.mpr hsome]
  refine ⟨e, ?_, rfl, rfl⟩
  unfold evaluatePrimary
  simp only [hsource, hready, hmanifest, halignment, hmem]
  exact hcheck

theorem evaluationsAreBound_iff (calls : List (AdmissionCall hashing)) :
    EvaluationsAreBound calls ↔ CurrentBound (ledgerAfter calls) := by
  have inv := ledgerInv_run calls
  constructor
  · intro h r source m alignment hsource hready hmanifest halignment hallowed
    obtain ⟨e, heval, hadmissible, hread⟩ :=
      evaluatePrimary_widest hsource hready hmanifest halignment hallowed
    obtain ⟨source', alignment', hsource', _, hrests, _, _, hdigest⟩ := h r _ e heval hadmissible
    rw [hread, bind_some, halignment] at hrests
    cases hsource.symm.trans hsource'
    cases hrests
    exact hdigest
  · intro h r policy e heval hadmissible
    obtain ⟨source, m, alignment, hsource, hready, hmanifest, halignment, hallowed, hread⟩ :=
      evaluatePrimary_admissible heval hadmissible
    obtain ⟨happended, hid⟩ := currentAlignment_appended inv halignment
    refine ⟨source, alignment, hsource, hready, ?_, happended, ?_, ?_⟩
    · rw [hread, bind_some, halignment]
    · rw [hmanifest, hid]
    · exact h r source m alignment hsource hready hmanifest halignment hallowed

end Evaluations

/-! ## What a call preserves -/

section Preservation

variable {calls : List (AdmissionCall hashing)} {ledger : AdmissionLedger hashing}

/-- A source decision keeps the evaluations bound exactly when it keeps the digest. -/
theorem currentBound_recordSource (inv : LedgerInv calls ledger) (h : CurrentBound ledger)
    {decision : SourceAdmissionDecision hashing}
    (hfresh : ledger.sourceDecisions.find? decision.decisionLogicalKey = none) :
    CurrentBound (ledger.recordSource decision) ↔ KeepsDigest decision ledger := by
  constructor
  · intro hbound m alignment hready hmanifest halignment hallowed
    refine hbound decision.recordingIdentity decision m alignment ?_ hready hmanifest halignment
      hallowed
    rw [currentSource_recordSource inv hfresh, if_pos rfl]
  · intro hkeeps r source m alignment hsource hready hmanifest halignment hallowed
    rw [currentSource_recordSource inv hfresh] at hsource
    split at hsource
    · cases hsource
      exact hkeeps m alignment hready hmanifest halignment hallowed
    · exact h r source m alignment hsource hready hmanifest halignment hallowed

theorem currentBound_recordAlignment (inv : LedgerInv calls ledger) (h : CurrentBound ledger)
    {decision : AlignmentAdmissionDecision hashing}
    (hfresh : ledger.alignmentDecisions.find? decision.decisionLogicalKey = none)
    (hguards : ledger.alignmentGuards decision = .ok ()) :
    CurrentBound (ledger.recordAlignment decision) := by
  intro r source m alignment hsource hready hmanifest halignment hallowed
  rw [currentAlignment_recordAlignment inv hfresh] at halignment
  split at halignment
  · rename_i hm
    cases halignment
    rw [hm] at hmanifest
    exact digest_of_alignmentGuards hguards hsource hready hmanifest
  · exact h r source m alignment hsource hready hmanifest halignment hallowed

variable (hfree : Set.InjOn hashing.semanticSha256 (digested calls))
include hfree

theorem source_projection_eq {d e : SourceAdmissionDecision hashing} (hd : .appendSource d ∈ calls)
    (he : .appendSource e ∈ calls) (hkey : d.decisionLogicalKey = e.decisionLogicalKey) :
    d.projection = e.projection := by
  rw [d.logicalKey, e.logicalKey, String.append_right_inj, d.digest, e.digest] at hkey
  exact AdmissionPayload.sourceDecision.inj (hfree ⟨_, hd, rfl⟩ ⟨_, he, rfl⟩ hkey)

theorem alignment_projection_eq
    {d e : AlignmentAdmissionDecision hashing} (hd : .appendAlignment d ∈ calls)
    (he : .appendAlignment e ∈ calls) (hkey : d.decisionLogicalKey = e.decisionLogicalKey) :
    d.projection = e.projection := by
  rw [d.logicalKey, e.logicalKey, String.append_right_inj, d.digest, e.digest] at hkey
  exact AdmissionPayload.alignmentDecision.inj (hfree ⟨_, hd, rfl⟩ ⟨_, he, rfl⟩ hkey)

end Preservation

theorem SourceDecisionValues.ext_projection {v w : SourceDecisionValues}
    (hprojection : v.projection = w.projection) (hids : v.selectedIds = w.selectedIds) :
    v = w := by
  cases v
  cases w
  simp only [SourceDecisionValues.projection, SourceDecisionProjection.mk.injEq,
    SourceDecisionValues.selectedIds, Prod.mk.injEq] at hprojection hids
  simp only [SourceDecisionValues.mk.injEq]
  tauto

theorem AlignmentDecisionValues.ext_projection {v w : AlignmentDecisionValues}
    (hprojection : v.projection = w.projection) (hids : v.selectedIds = w.selectedIds) :
    v = w := by
  cases v
  cases w
  simp only [projection, AlignmentDecisionProjection.mk.injEq,
    selectedIds, Prod.mk.injEq] at hprojection hids
  simp only [AlignmentDecisionValues.mk.injEq]
  tauto

variable {calls : List (AdmissionCall hashing)}

theorem AppendedIn.mem
    {alignment : AlignmentAdmissionDecision hashing} (h : AppendedIn calls alignment) :
    .appendAlignment alignment ∈ calls := by
  obtain ⟨front, back, _, rfl, _⟩ := h
  simp

theorem givesBack_source {ledger : AdmissionLedger hashing} (inv : LedgerInv calls ledger)
    {decision : SourceAdmissionDecision hashing}
    (hfree : Set.InjOn hashing.semanticSha256 (digested (calls ++ [.appendSource decision]))) :
    GivesBack (.appendSource decision) ledger ↔
      ∀ existing, ledger.sourceDecisions.find? decision.decisionLogicalKey = some existing →
        existing.selectedIds = decision.selectedIds := by
  constructor
  · intro h existing hfind
    have hreturn : ledger.appendSourceDecision decision = .ok (existing, ledger) := by
      unfold appendSourceDecision
      rw [hfind]
    have hsame := h existing ledger hreturn
    rw [← hsame]
  · intro h returned ledger' hreturn
    rcases appendSource_cases hreturn with ⟨hfind, _⟩ | ⟨_, _, rfl, _⟩
    · have hstored := inv.sources returned (mem_of_find? hfind)
      have hprojection := source_projection_eq hfree (mem_append_left _ hstored)
        (mem_append_right _ (mem_singleton_self _))
        (key_of_find? hfind :)
      have hvalues := SourceDecisionValues.ext_projection hprojection (h returned hfind)
      exact SourceAdmissionDecision.eq_of_values hvalues rfl
    · rfl

theorem givesBack_alignment {ledger : AdmissionLedger hashing} (inv : LedgerInv calls ledger)
    {decision : AlignmentAdmissionDecision hashing}
    (hfree : Set.InjOn hashing.semanticSha256 (digested (calls ++ [.appendAlignment decision]))) :
    GivesBack (.appendAlignment decision) ledger ↔
      ∀ existing, ledger.alignmentDecisions.find? decision.decisionLogicalKey = some existing →
        existing.selectedIds = decision.selectedIds := by
  constructor
  · intro h existing hfind
    have hreturn : ledger.appendAlignmentDecision decision = .ok (existing, ledger) := by
      unfold appendAlignmentDecision
      rw [hfind]
    have hsame := h existing ledger hreturn
    rw [← hsame]
  · intro h returned ledger' hreturn
    rcases appendAlignment_cases hreturn with ⟨hfind, _⟩ | ⟨_, _, rfl, _⟩
    · have hstored := (inv.alignments returned (mem_of_find? hfind)).mem
      have hprojection := alignment_projection_eq hfree (mem_append_left _ hstored)
        (mem_append_right _ (mem_singleton_self _))
        (key_of_find? hfind :)
      have hvalues := AlignmentDecisionValues.ext_projection hprojection (h returned hfind)
      exact AlignmentAdmissionDecision.eq_of_values hvalues rfl
    · rfl

/-- A call meets the condition exactly when it gives its argument back and leaves the
evaluations bound. -/
theorem faithfulCall_iff {call : AdmissionCall hashing}
    (hfree : Set.InjOn hashing.semanticSha256 (digested (calls ++ [call])))
    (h : CurrentBound (ledgerAfter calls)) :
    FaithfulCall call (ledgerAfter calls) ↔
      GivesBack call (ledgerAfter calls) ∧ CurrentBound (ledgerAfter (calls ++ [call])) := by
  have inv := ledgerInv_run calls
  rw [ledgerAfter_append]
  cases call with
  | observeAlias observation =>
    -- no dictionary that an evaluation reads is written
    refine iff_of_true trivial ⟨trivial, ?_⟩
    cases hrun : runAdmission (.observeAlias observation) (ledgerAfter calls) with
    | error e => exact h
    | ok ledger' =>
      obtain ⟨_, hreturn⟩ := runAdmission_eq_ok hrun
      obtain ⟨hsources, hcurrent, halignments, hselected⟩ := observeAlias_cases hreturn
      rw [commit_ok]
      unfold CurrentBound currentSource currentAlignment at *
      rwa [hsources, hcurrent, halignments, hselected]
  | appendSource decision =>
    rw [givesBack_source inv hfree]
    refine and_congr_right fun _ => ?_
    cases hfind : (ledgerAfter calls).sourceDecisions.find? decision.decisionLogicalKey with
    | some existing =>
      have hrun : runAdmission (.appendSource decision) (ledgerAfter calls) =
          .ok (ledgerAfter calls) := by
        simp [runAdmission, appendSourceDecision, hfind, Except.map]
      rw [hrun]
      exact iff_of_true (fun hnone => (by cases hnone)) h
    | none =>
      cases hguards : (ledgerAfter calls).sourceGuards decision with
      | error e =>
        have hrun : runAdmission (.appendSource decision) (ledgerAfter calls) = .error e := by
          simp [runAdmission, appendSourceDecision, hfind, hguards, Except.map]
        rw [hrun]
        exact iff_of_true (fun _ hok => (by cases hok)) h
      | ok u =>
        have hrun : runAdmission (.appendSource decision) (ledgerAfter calls) =
            .ok ((ledgerAfter calls).recordSource decision) := by
          simp [runAdmission, appendSourceDecision, hfind, hguards, Except.map, Except.pure]
        rw [hrun, commit_ok, currentBound_recordSource inv h hfind]
        exact ⟨fun hkeeps => hkeeps rfl rfl, fun hkeeps _ _ => hkeeps⟩
  | appendAlignment decision =>
    rw [givesBack_alignment inv hfree]
    refine (and_iff_left ?_).symm
    cases hrun : runAdmission (.appendAlignment decision) (ledgerAfter calls) with
    | error e => exact h
    | ok ledger' =>
      obtain ⟨_, hreturn⟩ := runAdmission_eq_ok hrun
      rcases appendAlignment_cases hreturn with ⟨_, rfl⟩ | ⟨hfresh, hguards, _, rfl⟩
      · exact h
      · exact currentBound_recordAlignment inv h hfresh hguards

theorem currentBound_empty : CurrentBound (AdmissionLedger.empty : AdmissionLedger hashing) :=
  fun _ _ _ _ hsource => (by cases hsource)

theorem admissionBinds_append {call : AdmissionCall hashing} : AdmissionBinds (calls ++ [call]) ↔
      AdmissionBinds calls ∧ GivesBack call (ledgerAfter calls) ∧
        EvaluationsAreBound (calls ++ [call]) := by
  unfold AdmissionBinds
  rw [admitted_append]
  constructor
  · rintro ⟨⟨hcalls, hcall⟩, hfronts⟩
    exact ⟨⟨hcalls, fun front hfront => hfronts front (hfront.trans (prefix_append _ _))⟩,
      hcall, hfronts _ prefix_rfl⟩
  · rintro ⟨⟨hcalls, hfronts⟩, hcall, hall⟩
    refine ⟨⟨hcalls, hcall⟩, fun front hfront => ?_⟩
    rcases prefix_concat_iff.mp hfront with rfl | hfront
    · exact hall
    · exact hfronts front hfront

variable (calls) in
/-- Every append of a run gives its argument back, and every admissible evaluation rests on an
alignment of the selected READY manifest, exactly when every call is faithful. -/
theorem admission_binds_exact (hfree : Set.InjOn hashing.semanticSha256 (digested calls)) :
    AdmissionBinds calls ↔ Admitted runAdmission FaithfulCall calls .empty := by
  induction calls using reverseRecOn with
  | nil =>
    refine iff_of_true ⟨trivial, fun front hfront => ?_⟩ trivial
    rw [prefix_nil.mp hfront, evaluationsAreBound_iff]
    exact currentBound_empty
  | append_singleton calls call ih =>
    have hcalls : Set.InjOn hashing.semanticSha256 (digested calls) :=
      hfree.mono fun _ hdigested => digested_append hdigested
    rw [admissionBinds_append, admitted_append, ← ih hcalls, evaluationsAreBound_iff]
    refine and_congr_right fun hbinds => ?_
    have hbound := (evaluationsAreBound_iff calls).mp (hbinds.2 calls prefix_rfl)
    exact (faithfulCall_iff hfree hbound).symm

/-! ## A run that binds, and two that do not -/

namespace SampleAdmission

/-- Digests that spell the subject and the sequence. -/
def spelled : AdmissionHashing where
  semanticSha256
    | .sourceAlias p => "alias " ++ p.sourceUri
    | .sourceDecision p => "source " ++ p.recordingIdentity ++ toString p.sequence
    | .alignmentDecision p =>
      "alignment " ++ p.readyManifestSemanticSha256 ++ toString p.sequence
    | .primaryPolicy p => "policy " ++ p.version
  stableUuid kind digest := kind ++ ":" ++ digest

def source (values : SourceDecisionValues) (checked : values.check = .ok ()) :
    SourceAdmissionDecision spelled :=
  ⟨values, _, _, _, "2026-01-01T00:00:00Z", checked, rfl, rfl, rfl⟩

def alignment (values : AlignmentDecisionValues) (checked : values.check = .ok ()) :
    AlignmentAdmissionDecision spelled :=
  ⟨values, _, _, _, "2026-01-01T00:00:00Z", checked, rfl, rfl, rfl⟩

/-- The first decision about a recording. -/
def pending (recording : Sha256Digest) : SourceAdmissionDecision spelled :=
  source ⟨recording, recording ++ " content", 0, .pending, none, none, none, none, "1.0", "policy",
    none, none⟩ (by rfl)

/-- A READY decision for a manifest id and digest. -/
def ready (predecessor : SourceAdmissionDecision spelled) (manifest digest : String) :
    SourceAdmissionDecision spelled :=
  source ⟨predecessor.recordingIdentity, predecessor.sourceContentSha256,
    predecessor.sequence + 1, .ready, some "report", some "report digest", some manifest,
    some digest, "1.0", "policy", none, some predecessor.decisionLogicalKey⟩ (by rfl)

def notScheduled (manifest : String) : AlignmentAdmissionDecision spelled :=
  alignment ⟨manifest, "digest one", 0, .notScheduled, none, none, none, "1.0", "policy", none,
    none⟩ (by rfl)

def valid : AlignmentAdmissionDecision spelled :=
  alignment ⟨"manifest", "digest one", 1, .valid, some "alignment", some "alignment digest",
    some "evidence", "1.0", "policy", none, some (notScheduled "manifest").decisionLogicalKey⟩
    (by rfl)

def selected : SourceAdmissionDecision spelled := ready (pending "left") "manifest" "digest one"

/-- One recording is aligned and admitted. -/
def aligned : List (AdmissionCall spelled) :=
  [.appendSource (pending "left"), .appendSource selected,
    .appendAlignment (notScheduled "manifest"), .appendAlignment valid]

/-- The same manifest id is selected again, with another digest. -/
def reselected : SourceAdmissionDecision spelled := ready selected "manifest" "digest two"

def stale : List (AdmissionCall spelled) := aligned ++ [.appendSource reselected]

/-- A second recording selects the same digest under another manifest id, and its alignment is
scheduled. -/
def crossed : List (AdmissionCall spelled) :=
  (aligned ++ [.appendSource (pending "right"),
    .appendSource (ready (pending "right") "other manifest" "digest one")]) ++
    [.appendAlignment (notScheduled "other manifest")]

/-- The projections that a list of calls digests. -/
def payloads (calls : List (AdmissionCall spelled)) : List AdmissionPayload :=
  calls.filterMap fun
    | .observeAlias _ => none
    | .appendSource decision => some (.sourceDecision decision.projection)
    | .appendAlignment decision => some (.alignmentDecision decision.projection)

theorem mem_payloads {calls : List (AdmissionCall spelled)} {payload : AdmissionPayload}
    (h : payload ∈ digested calls) : payload ∈ payloads calls := by
  obtain ⟨call, hcall, h⟩ := h
  rw [payloads, mem_filterMap]
  refine ⟨call, hcall, ?_⟩
  cases call with
  | observeAlias _ => exact h.elim
  | appendSource _ | appendAlignment _ => exact congrArg some h.symm

theorem injOn_digested {calls : List (AdmissionCall spelled)}
    (h : ∀ p ∈ payloads calls, ∀ q ∈ payloads calls,
      spelled.semanticSha256 p = spelled.semanticSha256 q → p = q) :
    Set.InjOn spelled.semanticSha256 (digested calls) :=
  fun p hp q hq => h p (mem_payloads hp) q (mem_payloads hq)

end SampleAdmission

open SampleAdmission in
theorem admission_binds_exact_sample :
    AdmissionBinds aligned ∧
      ((ledgerAfter aligned).evaluatePrimary "left" (widestPolicy spelled)).map
        PrimaryAdmissionEvaluation.admissible = .ok true :=
  ⟨(admission_binds_exact aligned (injOn_digested (by decide +kernel))).mpr (by decide +kernel),
    by decide +kernel⟩

open SampleAdmission in
/-- After the second READY decision the evaluation still rests on the first digest, and the
alignment of the second recording is answered with that of the first. -/
theorem admission_does_not_bind :
    (Set.InjOn spelled.semanticSha256 (digested stale) ∧ ¬ AdmissionBinds stale) ∧
      (Set.InjOn spelled.semanticSha256 (digested crossed) ∧ ¬ AdmissionBinds crossed) := by
  refine ⟨⟨injOn_digested (by decide +kernel), fun h => ?_⟩,
    injOn_digested (by decide +kernel), fun h => ?_⟩
  · have hbound := (evaluationsAreBound_iff stale).mp (h.2 stale prefix_rfl)
    have hdigest := hbound "left" reselected "manifest" valid (by decide +kernel) rfl rfl
      (by decide +kernel) rfl
    exact absurd hdigest (by decide +kernel)
  · have hback := ((admitted_append _ _ _).mp h.1).2
    have hsame := hback (notScheduled "manifest") _ (by rfl)
    exact absurd hsame (by decide +kernel)

end Robata.Admission
