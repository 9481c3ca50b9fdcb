import Robata.Admission.BoundEvidence
import Robata.Lib.Grouping
import Robata.Lib.Sorting

/-!
# The chains of a ledger

The decisions of one recording, and those of one manifest, form a chain: sequences without a gap,
each decision naming the one before it.  The ledger keeps the chains as a table of decisions, with
a history and a current key for each subject; `rebuild_current_projections` derives the current
keys from the table alone, and both reconcile functions count by them.
-/

namespace Robata.Admission

open Contracts Lib
open Dict (get?_set)
open KeyedTable (mem_rows_iff rows_upsert_of_none upsert)

/-- What a chain reads of a decision, and the outcomes it may start with. -/
structure Chained (δ κ : Type) where
  subject : δ → κ
  sequence : δ → Nat
  predecessor : δ → Option NodeLogicalKey
  key : δ → NodeLogicalKey
  genesis : δ → Bool

namespace Chained

variable {δ κ : Type} (C : Chained δ κ)

/-! ## Rebuilding -/

/-- The loop over `pairwise(ordered)`. -/
def checkLinks : δ → List δ → Except AdmissionFailure Unit
  | _, [] => .ok ()
  | previous, current :: rest => do
    refuseIf (C.sequence current != C.sequence previous + 1)
      "decision chain sequence is not contiguous"
    refuseIf (C.predecessor current != some (C.key previous))
      "decision chain predecessor is invalid"
    checkLinks current rest

/-- The last key of the decisions of one subject, of which there is at least one. -/
def rebuildSubject (history : List δ) : Except AdmissionFailure NodeLogicalKey :=
  match sortedBy C.sequence history with
  | [] => .error .assertion
  | first :: rest => do
    refuseIf (C.sequence first != 0 || (C.predecessor first).isSome)
      "decision chain has no valid genesis"
    C.checkLinks first rest
    pure (C.key (rest.getLast?.getD first))

def rebuildProjection [DecidableEq κ] (records : List δ) :
    Except AdmissionFailure (Dict κ NodeLogicalKey) :=
  (grouped C.subject records).rows.foldlM (fun projection entry => do
    let key ← C.rebuildSubject entry.2
    pure (projection.set entry.1 key)) KeyedTable.empty

/-! ## One chain -/

/-- The first decision may start a chain, and each of the others follows the one before it. -/
structure IsChain (history : List δ) : Prop where
  starts : ∀ d ∈ history.head?, C.sequence d = 0 ∧ C.predecessor d = none ∧ C.genesis d = true
  follows : history.IsChain fun d e => C.sequence e = C.sequence d + 1 ∧
    C.predecessor e = some (C.key d)

variable {C} {history : List δ} {d : δ}

/-- `_verify_chain_append` lets a decision extend the chain of its subject. -/
theorem IsChain.append (h : C.IsChain history) {text : String}
    (hverify : verifyChainAppend (history.getLast?.map fun c => (C.sequence c, C.key c))
      (C.sequence d) (C.predecessor d) (C.genesis d) text = .ok ()) :
    C.IsChain (history ++ [d]) := by
  unfold verifyChainAppend at hverify
  cases hlast : history.getLast? with
  | none =>
    rw [hlast] at hverify
    rw [List.getLast?_eq_none_iff.mp hlast]
    refine ⟨?_, List.isChain_singleton d⟩
    simpa [and_assoc] using hverify
  | some last =>
    rw [hlast, Option.map_some] at hverify
    have hne : history ≠ [] := by
      rintro rfl
      cases hlast
    refine ⟨?_, h.follows.append (List.isChain_singleton d) ?_⟩
    · rw [List.head?_append_of_ne_nil _ hne]
      exact h.starts
    · dsimp only at hverify
      split at hverify
      · cases hverify
      · split at hverify
        · cases hverify
        · simp_all

theorem IsChain.sequences (h : C.IsChain history) :
    history.map C.sequence = List.range history.length := by
  have hplace : ∀ i (hi : i < history.length), C.sequence history[i] = i := by
    intro i
    induction i with
    | zero =>
      intro hi
      exact (h.starts _ (List.head?_eq_getElem? ▸ List.getElem?_eq_getElem hi)).1
    | succ i ih =>
      intro hi
      rw [(List.isChain_iff_getElem.mp h.follows i hi).1, ih (by omega)]
  apply List.ext_getElem
  · simp
  · intro i hi _
    rw [List.getElem_map, List.getElem_range]
    exact hplace i (List.length_map _ ▸ hi)

theorem checkLinks_ok {first : δ} {rest : List δ}
    (h : (first :: rest).IsChain fun d e => C.sequence e = C.sequence d + 1 ∧
      C.predecessor e = some (C.key d)) : C.checkLinks first rest = .ok () := by
  induction rest generalizing first with
  | nil => rfl
  | cons next rest ih =>
    rw [List.isChain_cons_cons] at h
    simp [checkLinks, refuseIf, h.1.1, h.1.2, ih h.2]

theorem IsChain.rebuildSubject (h : C.IsChain history) (hlast : history.getLast? = some d) :
    C.rebuildSubject history = .ok (C.key d) := by
  have hsorted : sortedBy C.sequence history = history := by
    apply sortedBy_of_pairwise
    rw [← List.pairwise_map, h.sequences]
    exact List.pairwise_le_range
  unfold Chained.rebuildSubject
  rw [hsorted]
  cases history with
  | nil => cases hlast
  | cons first rest =>
    obtain ⟨hsequence, hpredecessor, _⟩ := h.starts first rfl
    rw [List.getLast?_cons] at hlast
    simp [refuseIf, hsequence, hpredecessor, checkLinks_ok h.follows, Option.some.inj hlast]

/-! ## All chains of a table -/

variable [DecidableEq κ]

/-- The histories and the current keys that belong to the decisions of a table. -/
structure Kept (C : Chained δ κ) (rows : List δ) (history : Dict κ (List NodeLogicalKey))
    (current : Dict κ NodeLogicalKey) : Prop where
  subjects : current.rows.map Prod.fst = (grouped C.subject rows).rows.map Prod.fst
  current : ∀ k, current.get? k = (inBucket C.subject rows k).getLast?.map C.key
  history : ∀ k, (history.get? k).getD [] = (inBucket C.subject rows k).map C.key
  chain : ∀ k, C.IsChain (inBucket C.subject rows k)

namespace Kept

variable {rows : List δ} {histories : Dict κ (List NodeLogicalKey)} {current : Dict κ NodeLogicalKey}

theorem empty : C.Kept [] KeyedTable.empty KeyedTable.empty :=
  ⟨rfl, fun _ => rfl, fun _ => rfl, fun _ => ⟨fun _ h => (by cases h), List.IsChain.nil⟩⟩

theorem append (h : C.Kept rows histories current) {text : String}
    (hverify : verifyChainAppend
      ((inBucket C.subject rows (C.subject d)).getLast?.map fun c => (C.sequence c, C.key c))
      (C.sequence d) (C.predecessor d) (C.genesis d) text = .ok ()) :
    C.Kept (rows ++ [d]) (histories.append (C.subject d) (C.key d))
      (current.set (C.subject d) (C.key d)) where
  subjects := by
    rw [grouped_concat, Dict.append, Dict.keys_set_eq, Dict.keys_set_eq, h.subjects]
  current := by
    intro k
    rw [get?_set]
    split
    · rename_i hk
      rw [inBucket_concat_self hk.symm]
      simp
    · rename_i hk
      rw [inBucket_concat_ne (Ne.symm hk)]
      exact h.current k
  history := by
    intro k
    rw [Dict.append, get?_set]
    split
    · rename_i hk
      subst hk
      rw [inBucket_concat_self rfl, h.history, List.map_append]
      rfl
    · rename_i hk
      rw [inBucket_concat_ne (Ne.symm hk)]
      exact h.history k
  chain := by
    intro k
    by_cases hk : C.subject d = k
    · subst hk
      rw [inBucket_concat_self rfl]
      exact (h.chain _).append hverify
    · rw [inBucket_concat_ne hk]
      exact h.chain k

theorem foldlM_set {entries : List (κ × List δ)} {f : κ → NodeLogicalKey}
    (h : ∀ entry ∈ entries, C.rebuildSubject entry.2 = .ok (f entry.1)) :
    ∀ projection : Dict κ NodeLogicalKey, entries.foldlM (fun projection entry => do
        let key ← C.rebuildSubject entry.2
        pure (projection.set entry.1 key)) projection =
      .ok ((entries.map fun entry => (entry.1, f entry.1)).foldl upsert projection) := by
  induction entries with
  | nil => exact fun _ => rfl
  | cons entry rest ih =>
    intro projection
    rw [List.forall_mem_cons] at h
    rw [List.foldlM_cons, h.1]
    exact ih h.2 _

/-- Rebuilding finds the current keys again, in their order. -/
theorem rebuildProjection (h : C.Kept rows histories current) :
    C.rebuildProjection rows = .ok current := by
  have hlast : ∀ entry ∈ (grouped C.subject rows).rows,
      C.rebuildSubject entry.2 = .ok ((current.get? entry.1).getD "") := by
    intro entry hentry
    obtain ⟨hbucket, hne⟩ := mem_rows_grouped.mp hentry
    obtain ⟨d, hd⟩ := Option.isSome_iff_exists.mp (List.getLast?_isSome.mpr hne)
    have hchain := h.chain entry.1
    rw [← hbucket] at hchain
    rw [hchain.rebuildSubject hd, h.current, ← hbucket, hd]
    rfl
  unfold Chained.rebuildProjection
  rw [foldlM_set (f := fun k => (current.get? k).getD "") hlast]
  congr 1
  apply KeyedTable.ext
  have hkeys : ∀ f : κ → κ × NodeLogicalKey,
      (grouped C.subject rows).rows.map (fun entry => f entry.1) =
        current.rows.map fun entry => f entry.1 := by
    intro f
    have hmap := congrArg (List.map f) h.subjects
    rw [List.map_map, List.map_map] at hmap
    exact hmap.symm
  rw [hkeys fun k => (k, (current.get? k).getD "")]
  have hsame : current.rows.map (fun entry => (entry.1, (current.get? entry.1).getD "")) =
      current.rows := by
    refine (List.map_congr_left ?_).trans (List.map_id _)
    rintro ⟨k, key⟩ hentry
    rw [Dict.get?_eq_some_iff.mpr hentry]
    rfl
  rw [hsame, KeyedTable.rows_foldl_upsert current.nodup fun _ _ => rfl]
  rfl

/-- The current decision of a subject is the last one of its chain. -/
theorem currentDecision (h : C.Kept rows histories current)
    {find? : NodeLogicalKey → Option δ} (hfind : ∀ d ∈ rows, find? (C.key d) = some d) (k : κ) :
    (current.get? k).bind find? = (inBucket C.subject rows k).getLast? := by
  rw [h.current]
  cases hlast : (inBucket C.subject rows k).getLast? with
  | none => rfl
  | some d => exact hfind d (mem_inBucket.mp (List.mem_of_getLast? hlast)).1

end Kept

end Chained

/-! ## The ledger -/

variable {hashing : AdmissionHashing}

abbrev sourceChain (hashing : AdmissionHashing) :
    Chained (SourceAdmissionDecision hashing) Sha256Digest where
  subject := (·.recordingIdentity)
  sequence := (·.sequence)
  predecessor := (·.predecessorLogicalKey)
  key := (·.decisionLogicalKey)
  genesis := (·.outcome == .pending)

abbrev alignmentChain (hashing : AdmissionHashing) :
    Chained (AlignmentAdmissionDecision hashing) OpaqueUuid where
  subject := (·.readyManifestId)
  sequence := (·.sequence)
  predecessor := (·.predecessorLogicalKey)
  key := (·.decisionLogicalKey)
  genesis := (·.outcome == .notScheduled)

structure SourceAdmissionReconciliation where
  (discoveredUniqueContent aliasObservations : Nat)
  (pending ready invalid failedValidation quarantined : Nat)

structure AlignmentReconciliation where
  readyManifestCohort : Nat
  (notScheduled queued running valid degraded invalid failed cancelled : Nat)

/-- The validator of `SourceAdmissionReconciliation`. -/
def SourceAdmissionReconciliation.reconcile (r : SourceAdmissionReconciliation) :
    Except AdmissionFailure SourceAdmissionReconciliation := do
  let total := r.pending + r.ready + r.invalid + r.failedValidation + r.quarantined
  invalidIf (total != r.discoveredUniqueContent) "source outcome counts do not reconcile"
  pure r

/-- The validator of `AlignmentReconciliation`. -/
def AlignmentReconciliation.reconcile (r : AlignmentReconciliation) :
    Except AdmissionFailure AlignmentReconciliation := do
  let total := r.notScheduled + r.queued + r.running + r.valid + r.degraded + r.invalid +
    r.failed + r.cancelled
  invalidIf (total != r.readyManifestCohort) "alignment outcome counts do not reconcile"
  pure r

namespace AdmissionLedger

variable (ledger : AdmissionLedger hashing)

/-- `self._alignment_decisions[key]`. -/
def alignmentDecision (key : NodeLogicalKey) :
    Except AdmissionFailure (AlignmentAdmissionDecision hashing) :=
  match ledger.alignmentDecisions.find? key with
  | some decision => .ok decision
  | none => .error (.key key)

def sourceHistoryOf (recordingIdentity : Sha256Digest) :
    Except AdmissionFailure (List (SourceAdmissionDecision hashing)) :=
  ((ledger.sourceHistory.get? recordingIdentity).getD []).mapM ledger.sourceDecision

def alignmentHistoryOf (readyManifestId : OpaqueUuid) :
    Except AdmissionFailure (List (AlignmentAdmissionDecision hashing)) :=
  ((ledger.alignmentHistory.get? readyManifestId).getD []).mapM ledger.alignmentDecision

def reconcileSources : Except AdmissionFailure SourceAdmissionReconciliation := do
  let selected ← ledger.sourceCurrent.values.mapM ledger.sourceDecision
  let counts := fun outcome => (selected.map (·.outcome)).count outcome
  SourceAdmissionReconciliation.reconcile
    { discoveredUniqueContent := ledger.sourceCurrent.rows.length
      aliasObservations := ledger.aliases.rows.length
      pending := counts .pending
      ready := counts .ready
      invalid := counts .invalid
      failedValidation := counts .failedValidation
      quarantined := counts .quarantined }

def reconcileAlignments : Except AdmissionFailure AlignmentReconciliation := do
  let selected ← ledger.alignmentCurrent.values.mapM ledger.alignmentDecision
  let counts := fun outcome => (selected.map (·.outcome)).count outcome
  AlignmentReconciliation.reconcile
    { readyManifestCohort := ledger.alignmentCurrent.rows.length
      notScheduled := counts .notScheduled
      queued := counts .queued
      running := counts .running
      valid := counts .valid
      degraded := counts .degraded
      invalid := counts .invalid
      failed := counts .failed
      cancelled := counts .cancelled }

def rebuildCurrentProjections : Except AdmissionFailure (AdmissionLedger hashing) := do
  let sources ← (sourceChain hashing).rebuildProjection ledger.sourceDecisions.rows
  let alignments ← (alignmentChain hashing).rebuildProjection ledger.alignmentDecisions.rows
  pure { ledger with sourceCurrent := sources, alignmentCurrent := alignments }

end AdmissionLedger

/-- What every call keeps: the chains of both kinds, the recording and the content that belong
together, and the binding of each alias. -/
structure Recorded (ledger : AdmissionLedger hashing) : Prop where
  sources : (sourceChain hashing).Kept ledger.sourceDecisions.rows ledger.sourceHistory
    ledger.sourceCurrent
  alignments : (alignmentChain hashing).Kept ledger.alignmentDecisions.rows
    ledger.alignmentHistory ledger.alignmentCurrent
  recording : ∀ d ∈ ledger.sourceDecisions.rows,
    ledger.contentRecording.get? d.sourceContentSha256 = some d.recordingIdentity
  content : ∀ d ∈ ledger.sourceDecisions.rows, ∀ e ∈ ledger.sourceDecisions.rows,
    d.recordingIdentity = e.recordingIdentity → d.sourceContentSha256 = e.sourceContentSha256
  aliases : ∀ o ∈ ledger.aliases.rows, ledger.aliasBindings.get? (o.sourceUri, o.sourceVersion) =
    some (o.sourceContentSha256, o.recordingIdentity)

namespace Recorded

variable {ledger ledger' : AdmissionLedger hashing}

variable (h : Recorded ledger)
include h

theorem currentSource (r : Sha256Digest) : ledger.currentSource r =
    (inBucket (·.recordingIdentity) ledger.sourceDecisions.rows r).getLast? :=
  h.sources.currentDecision (fun _ hd => mem_rows_iff.mp hd) r

theorem currentAlignment (m : OpaqueUuid) : ledger.currentAlignment m =
    (inBucket (·.readyManifestId) ledger.alignmentDecisions.rows m).getLast? :=
  h.alignments.currentDecision (fun _ hd => mem_rows_iff.mp hd) m

theorem observeAlias {o returned : SourceAliasObservation hashing}
    (hrun : ledger.observeAlias o = .ok (returned, ledger')) :
    Recorded ledger' ∧ ledger.aliasBindings.Le ledger'.aliasBindings := by
  simp only [AdmissionLedger.observeAlias, bind_eq_ok, refuseIf_eq_ok] at hrun
  obtain ⟨_, hbound, hrun⟩ := hrun
  split at hrun
  · cases hrun
    exact ⟨h, Dict.Le.refl _⟩
  · rename_i hfresh
    cases hrun
    -- the alias and version were free, or bound as they are now
    have hle : ledger.aliasBindings.Le (ledger.aliasBindings.set (o.sourceUri, o.sourceVersion)
        (o.sourceContentSha256, o.recordingIdentity)) := by
      intro j w hw
      rw [get?_set]
      split
      · rename_i hj
        rw [← hj, hw, Option.any_some, bne_eq_false_iff_eq] at hbound
        rw [hbound]
      · exact hw
    refine ⟨{ h with aliases := ?_ }, hle⟩
    intro p hp
    rw [show (ledger.aliases.upsert o).rows = _ from rows_upsert_of_none hfresh,
      List.mem_append, List.mem_singleton] at hp
    rcases hp with hp | rfl
    · exact hle (h.aliases p hp)
    · exact Dict.get?_set_self ..

theorem recordSource {d : SourceAdmissionDecision hashing}
    (hfresh : ledger.sourceDecisions.find? d.decisionLogicalKey = none)
    (hguards : ledger.sourceGuards d = .ok ()) : Recorded (ledger.recordSource d) := by
  simp only [AdmissionLedger.sourceGuards, bind_eq_ok, refuseIf_eq_ok] at hguards
  obtain ⟨_, hbound, _, hverify, hcontent⟩ := hguards
  rw [h.currentSource] at hverify hcontent
  have hrows : (ledger.recordSource d).sourceDecisions.rows = ledger.sourceDecisions.rows ++ [d] :=
    rows_upsert_of_none hfresh
  have hsame : ∀ e ∈ ledger.sourceDecisions.rows, e.recordingIdentity = d.recordingIdentity →
      e.sourceContentSha256 = d.sourceContentSha256 := by
    intro e he hrecording
    have hmem : e ∈ inBucket (·.recordingIdentity) ledger.sourceDecisions.rows
        d.recordingIdentity := mem_inBucket.mpr ⟨he, hrecording⟩
    obtain ⟨c, hc⟩ := Option.isSome_iff_exists.mp
      (List.getLast?_isSome.mpr (List.ne_nil_of_mem hmem))
    obtain ⟨hcmem, hcrecording⟩ := mem_inBucket.mp (List.mem_of_getLast? hc)
    rw [hc, Option.any_some, bne_eq_false_iff_eq] at hcontent
    rw [← hcontent]
    exact h.content e he c hcmem (hrecording.trans hcrecording.symm)
  constructor
  · rw [hrows]
    exact h.sources.append hverify
  · exact h.alignments
  · intro e he
    show (ledger.contentRecording.set d.sourceContentSha256 d.recordingIdentity).get? _ = _
    rw [hrows, List.mem_append, List.mem_singleton] at he
    rw [get?_set]
    rcases he with he | rfl
    · split
      · rename_i hcontent
        rw [← hcontent, h.recording e he, Option.any_some, bne_eq_false_iff_eq] at hbound
        rw [hbound]
      · exact h.recording e he
    · rw [if_pos rfl]
  · rw [hrows]
    intro e he e' he' hrecording
    rw [List.mem_append, List.mem_singleton] at he he'
    rcases he with he | rfl <;> rcases he' with he' | rfl
    · exact h.content e he e' he' hrecording
    · exact hsame e he hrecording
    · exact (hsame e' he' hrecording.symm).symm
    · rfl
  · exact h.aliases

theorem recordAlignment {a : AlignmentAdmissionDecision hashing}
    (hfresh : ledger.alignmentDecisions.find? a.decisionLogicalKey = none)
    (hguards : ledger.alignmentGuards a = .ok ()) : Recorded (ledger.recordAlignment a) := by
  simp only [AdmissionLedger.alignmentGuards, bind_eq_ok] at hguards
  obtain ⟨owner, _, hguards⟩ := hguards
  cases owner with
  | none => cases hguards
  | some source =>
    simp only [bind_eq_ok] at hguards
    obtain ⟨_, _, hverify⟩ := hguards
    rw [h.currentAlignment] at hverify
    refine { h with alignments := ?_ }
    rw [show (ledger.recordAlignment a).alignmentDecisions.rows = _ from
      rows_upsert_of_none hfresh]
    exact h.alignments.append hverify

/-- A call that returns keeps the records, and every binding of an alias. -/
theorem run {call : AdmissionCall hashing} (hrun : runAdmission call ledger = .ok ledger') :
    Recorded ledger' ∧ ledger.aliasBindings.Le ledger'.aliasBindings := by
  cases call with
  | observeAlias o =>
    obtain ⟨_, hreturn⟩ := runAdmission_eq_ok hrun
    exact h.observeAlias hreturn
  | appendSource d =>
    obtain ⟨_, hreturn⟩ := runAdmission_eq_ok hrun
    rcases appendSource_cases hreturn with ⟨_, rfl⟩ | ⟨hfresh, hguards, _, rfl⟩
    · exact ⟨h, Dict.Le.refl _⟩
    · exact ⟨h.recordSource hfresh hguards, Dict.Le.refl _⟩
  | appendAlignment a =>
    obtain ⟨_, hreturn⟩ := runAdmission_eq_ok hrun
    rcases appendAlignment_cases hreturn with ⟨_, rfl⟩ | ⟨hfresh, hguards, _, rfl⟩
    · exact ⟨h, Dict.Le.refl _⟩
    · exact ⟨h.recordAlignment hfresh hguards, Dict.Le.refl _⟩

theorem replay (calls : List (AdmissionCall hashing)) :
    Recorded (Lib.replay runAdmission calls ledger) ∧
      ledger.aliasBindings.Le (Lib.replay runAdmission calls ledger).aliasBindings := by
  induction calls using List.reverseRecOn with
  | nil => exact ⟨h, Dict.Le.refl _⟩
  | append_singleton calls call ih =>
    rw [replay_append]
    cases hrun : runAdmission call (Lib.replay runAdmission calls ledger) with
    | error e => exact ih
    | ok ledger' =>
      obtain ⟨hnext, hle⟩ := ih.1.run hrun
      exact ⟨hnext, fun k v hv => hle (ih.2 hv)⟩

end Recorded

/-! ## What holds in every reachable ledger -/

namespace Chained.Kept

variable {δ κ : Type} [DecidableEq κ] {C : Chained δ κ} {rows : List δ}
  {histories : Dict κ (List NodeLogicalKey)} {current : Dict κ NodeLogicalKey}
  {read : NodeLogicalKey → Except AdmissionFailure δ}

theorem readHistory (h : C.Kept rows histories current)
    (hread : ∀ d ∈ rows, read (C.key d) = .ok d) (k : κ) :
    ((histories.get? k).getD []).mapM read = .ok (inBucket C.subject rows k) := by
  rw [h.history, List.mapM_map]
  have hmem : ∀ d ∈ inBucket C.subject rows k, (read ∘ C.key) d = .ok (id d) :=
    fun d hd => hread d (mem_inBucket.mp hd).1
  rw [mapM_of_forall hmem, List.map_id]

theorem readCurrent (h : C.Kept rows histories current)
    (hread : ∀ d ∈ rows, read (C.key d) = .ok d) :
    ∃ selected, current.values.mapM read = .ok selected ∧
      selected.length = current.rows.length := by
  have hall : ∀ key ∈ current.values, ∃ d, read key = .ok d ∧ True := by
    intro key hkey
    obtain ⟨k, hk⟩ := Dict.mem_values_iff.mp hkey
    rw [h.current] at hk
    obtain ⟨d, hd, rfl⟩ := Option.map_eq_some_iff.mp hk
    exact ⟨d, hread d (mem_inBucket.mp (List.mem_of_getLast? hd)).1, trivial⟩
  obtain ⟨selected, hselected, _⟩ := mapM_completes hall
  refine ⟨selected, hselected, ?_⟩
  rw [← (mapM_forall₂ hselected).length_eq, Dict.values, List.length_map]

end Chained.Kept

theorem sourceOutcomes_counted (outcomes : List SourceAdmissionOutcome) :
    outcomes.count .pending + outcomes.count .ready + outcomes.count .invalid +
      outcomes.count .failedValidation + outcomes.count .quarantined = outcomes.length := by
  induction outcomes with
  | nil => rfl
  | cons outcome rest ih =>
    cases outcome <;> simp <;> omega

theorem alignmentOutcomes_counted (outcomes : List AlignmentAdmissionOutcome) :
    outcomes.count .notScheduled + outcomes.count .queued + outcomes.count .running +
      outcomes.count .valid + outcomes.count .degraded + outcomes.count .invalid +
      outcomes.count .failed + outcomes.count .cancelled = outcomes.length := by
  induction outcomes with
  | nil => rfl
  | cons outcome rest ih =>
    cases outcome <;> simp <;> omega

namespace Recorded

variable {ledger : AdmissionLedger hashing}

theorem readSource (d : SourceAdmissionDecision hashing) (hd : d ∈ ledger.sourceDecisions.rows) :
    ledger.sourceDecision d.decisionLogicalKey = .ok d := by
  unfold AdmissionLedger.sourceDecision
  rw [mem_rows_iff.mp hd]

theorem readAlignment (a : AlignmentAdmissionDecision hashing)
    (ha : a ∈ ledger.alignmentDecisions.rows) :
    ledger.alignmentDecision a.decisionLogicalKey = .ok a := by
  unfold AdmissionLedger.alignmentDecision
  rw [mem_rows_iff.mp ha]

theorem reconcileSources (h : Recorded ledger) : ∃ counts, ledger.reconcileSources = .ok counts := by
  obtain ⟨selected, hselected, hlength⟩ := h.sources.readCurrent readSource
  have hcounted := sourceOutcomes_counted (selected.map (·.outcome))
  rw [List.length_map, hlength] at hcounted
  unfold AdmissionLedger.reconcileSources SourceAdmissionReconciliation.reconcile
  rw [hselected]
  simp [invalidIf, hcounted, Except.pure]

theorem reconcileAlignments (h : Recorded ledger) :
    ∃ counts, ledger.reconcileAlignments = .ok counts := by
  obtain ⟨selected, hselected, hlength⟩ := h.alignments.readCurrent readAlignment
  have hcounted := alignmentOutcomes_counted (selected.map (·.outcome))
  rw [List.length_map, hlength] at hcounted
  unfold AdmissionLedger.reconcileAlignments AlignmentReconciliation.reconcile
  rw [hselected]
  simp [invalidIf, hcounted, Except.pure]

theorem rebuilds (h : Recorded ledger) : ledger.rebuildCurrentProjections = .ok ledger := by
  unfold AdmissionLedger.rebuildCurrentProjections
  rw [h.sources.rebuildProjection, h.alignments.rebuildProjection]
  rfl

end Recorded

/-- The history of each subject is a chain with the sequences `0..n`, and the current decision is
its last element. -/
def HoldsChains {δ κ : Type} (C : Chained δ κ) (historyOf : κ → Except AdmissionFailure (List δ))
    (currentOf : κ → Option δ) : Prop :=
  ∀ k, ∃ history, historyOf k = .ok history ∧ C.IsChain history ∧
    history.map C.sequence = List.range history.length ∧ currentOf k = history.getLast?

/-- Admission history is a set of chains that rebuild exactly, whatever calls have been made. -/
theorem admission_history_rebuilds (calls : List (AdmissionCall hashing)) :
    HoldsChains (sourceChain hashing) (ledgerAfter calls).sourceHistoryOf
        (ledgerAfter calls).currentSource ∧
      HoldsChains (alignmentChain hashing) (ledgerAfter calls).alignmentHistoryOf
        (ledgerAfter calls).currentAlignment ∧
      (ledgerAfter calls).rebuildCurrentProjections = .ok (ledgerAfter calls) ∧
      (∀ d ∈ (ledgerAfter calls).sourceDecisions.rows,
        ∀ e ∈ (ledgerAfter calls).sourceDecisions.rows,
        d.sourceContentSha256 = e.sourceContentSha256 ↔ d.recordingIdentity = e.recordingIdentity) ∧
      (∀ o ∈ (ledgerAfter calls).aliases.rows, ∀ later,
        (ledgerAfter (calls ++ later)).aliasBindings.get? (o.sourceUri, o.sourceVersion) =
          some (o.sourceContentSha256, o.recordingIdentity) ∧
        ∀ o' ∈ (ledgerAfter (calls ++ later)).aliases.rows, o'.sourceUri = o.sourceUri →
          o'.sourceVersion = o.sourceVersion →
          o'.sourceContentSha256 = o.sourceContentSha256 ∧
            o'.recordingIdentity = o.recordingIdentity) ∧
      (∃ counts, (ledgerAfter calls).reconcileSources = .ok counts) ∧
      (∃ counts, (ledgerAfter calls).reconcileAlignments = .ok counts) ∧
      ∀ call e, runAdmission call (ledgerAfter calls) = .error e →
        ledgerAfter (calls ++ [call]) = ledgerAfter calls := by
  have hstart : Recorded (.empty : AdmissionLedger hashing) :=
    ⟨.empty, .empty, List.forall_mem_nil _, List.forall_mem_nil _,
      List.forall_mem_nil _⟩
  have h : Recorded (ledgerAfter calls) := (hstart.replay calls).1
  refine ⟨?_, ?_, h.rebuilds, ?_, ?_, h.reconcileSources, h.reconcileAlignments, ?_⟩
  · exact fun r => ⟨_, h.sources.readHistory Recorded.readSource r, h.sources.chain r,
      (h.sources.chain r).sequences, h.currentSource r⟩
  · exact fun m => ⟨_, h.alignments.readHistory Recorded.readAlignment m, h.alignments.chain m,
      (h.alignments.chain m).sequences, h.currentAlignment m⟩
  · intro d hd e he
    refine ⟨fun hcontent => ?_, h.content d hd e he⟩
    have hrecording := h.recording d hd
    rw [hcontent, h.recording e he, Option.some.injEq] at hrecording
    exact hrecording.symm
  · intro o ho later
    have hafter : ledgerAfter (calls ++ later) = replay runAdmission later (ledgerAfter calls) :=
      List.foldl_append ..
    rw [hafter]
    obtain ⟨hlater, hle⟩ := h.replay later
    refine ⟨hle (h.aliases o ho), ?_⟩
    intro o' ho' huri hversion
    have hbinding := hlater.aliases o' ho'
    rw [huri, hversion, hle (h.aliases o ho), Option.some.injEq, Prod.mk.injEq] at hbinding
    exact ⟨hbinding.1.symm, hbinding.2.symm⟩
  · intro call e hraise
    rw [ledgerAfter_append, hraise, commit_error]

end Robata.Admission
