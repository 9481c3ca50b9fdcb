import Robata.Orchestration.AttemptHistory

/-!
# Duplicate deliveries

Deliveries of one logical invocation, of the same or of different attempts, over one ledger: the
gate admits them and the adapter answers every dispatch with the same success.  They overlap in
any way, and each reads its own clock.

A delivery that has passed the terminal lookup appends a terminal with its own times.  It raises
exactly when another delivery of the same attempt has stored a terminal with other times; every
other delivery returns the selected terminal and its selection.
-/

namespace Robata.Orchestration

open Contracts Lib InMemoryInferenceLedger List
open Orchestrator (isSelectable)
open JsonObject (getD_set)
open Method (wp wp_bind wp_mono wp_ofExcept wp_pure wp_self)
open Orchestrator (answersOf buildIntent enterGate judge keepWinner newCall openAttempt prepare
  revalidate runSection sameSemantics selectedTerminal selectionOf settle)

/-- The arguments of an attempt of the same invocation. -/
def OrchestrateArguments.withAttempt (a : OrchestrateArguments) (attempt retryCount : Nat) :
    OrchestrateArguments :=
  { a with attempt, retryCount }

/-- What is delivered: valid arguments with their preparation, the attempts and retries that a run
delivers, the capabilities and the outcome that the adapter gives, which matches the request.  The
attempts have canonical JSON, and different ones have different identities. -/
structure Delivery (O : Orchestrator) where
  arguments : OrchestrateArguments
  delivered : List (Nat × Nat)
  capabilities : ModelCapabilities
  given : VisionInferenceSuccess
  prepared : PreparedCall
  inputConfig : JsonObject
  invocation : Invocation
  unshadowed : arguments.shadow = false
  prepares : O.prepare (arguments.withAttempt 1 0) = .ok prepared
  checks : checkCapabilities prepared capabilities = .ok inputConfig
  identifies : identify O.hashing prepared capabilities inputConfig = .ok invocation
  binds : validateInputPlanBinding (invocation.request O.hashing) = .ok ()
  answer : O.Matches (invocation.request O.hashing) given
  exact : ∀ d ∈ delivered, d.2 < d.1 ∧ d.1 ≤ exactLimit
  attempts : ∀ d ∈ delivered, ∀ d' ∈ delivered,
    stableUuid O.hashing "inference-attempt"
        (O.hashing.semanticSha256 (.attempt invocation.logicalDigest d.1 d.2 false)) =
      stableUuid O.hashing "inference-attempt"
        (O.hashing.semanticSha256 (.attempt invocation.logicalDigest d'.1 d'.2 false)) →
    d = d'

/-- The call has ended with an error. -/
def OrchestratedCall.Raised (c : OrchestratedCall) : Prop := ∃ e, c.state = .ended (.error e)

namespace Delivery

variable {O : Orchestrator} (D : Delivery O)

/-! ## The attempts of one invocation -/

def preparedAt (n r : Nat) : PreparedCall :=
  { D.prepared with arguments := D.arguments.withAttempt n r }

def invocationAt (n r : Nat) : Invocation := { D.invocation with prepared := D.preparedAt n r }

def inferenceIdAt (n r : Nat) : OpaqueUuid := (D.invocationAt n r).inferenceId O.hashing

def intentAt (n r : Nat) (queuedAt createdAt : Rfc3339Timestamp) : InferenceIntent :=
  (D.invocationAt n r).intent O.hashing queuedAt createdAt

def terminalAt (i : InferenceIntent) (startedAt completedAt : Rfc3339Timestamp) : ModelInference :=
  terminalOf i startedAt completedAt (acceptedOutput D.given)

def policyVersion : SchemaVersion := D.prepared.policy.selectionPolicyVersion

theorem prepared_eq : D.prepared = D.preparedAt 1 0 := by
  have harguments := (prepare_prepared D.prepares).2
  unfold preparedAt
  rw [← harguments]

theorem invocation_eq : D.invocation = ⟨D.prepared, D.capabilities, D.inputConfig,
    D.invocation.packageInputSetSha256, D.invocation.logicalDigest,
    D.invocation.logicalInvocationId⟩ := by
  have h := D.identifies
  unfold identify at h
  simp only [bind_eq_ok] at h
  obtain ⟨_, -, h⟩ := h
  injection h with h
  rw [← h]

theorem invocationAt_eq (n r : Nat) : D.invocationAt n r = ⟨D.preparedAt n r, D.capabilities,
    D.inputConfig, D.invocation.packageInputSetSha256, D.invocation.logicalDigest,
    D.invocation.logicalInvocationId⟩ := by
  unfold invocationAt
  rw [D.invocation_eq]

theorem invocation_eq_at : D.invocation = D.invocationAt 1 0 := by
  rw [invocationAt_eq, ← D.prepared_eq]
  exact D.invocation_eq

theorem prepare_at {n r : Nat} (h : r < n) :
    O.prepare (D.arguments.withAttempt n r) = .ok (D.preparedAt n r) := by
  have hbase := D.prepares
  unfold prepare at hbase ⊢
  simp only [bind_eq_ok] at hbase
  obtain ⟨_, hvalid, _, hinputs, rendered, hrendered, config, hconfig, metadata, hmetadata, policy,
    hpolicy, _, hadapter, compiled, hcompiled, hprepared⟩ := hbase
  have hvalid' : validateArguments (D.arguments.withAttempt n r) = .ok () := by
    unfold validateArguments at hvalid ⊢
    simp only [bind_eq_ok, refuse_eq_ok] at hvalid ⊢
    obtain ⟨_, hstart, _, -, _, -, hshadow⟩ := hvalid
    refine ⟨(), hstart, (), ?_, (), ?_, hshadow⟩
    · exact decide_eq_false (show ¬ n < 1 by omega)
    · exact decide_eq_false (show ¬ r ≥ n by omega)
  simp only [bind_eq_ok]
  refine ⟨_, hvalid', _, hinputs, rendered, hrendered, config, hconfig, metadata, hmetadata, policy,
    hpolicy, _, hadapter, compiled, hcompiled, ?_⟩
  injection hprepared with hprepared
  unfold preparedAt
  rw [← hprepared]
  rfl

theorem checks_at (n r : Nat) :
    checkCapabilities (D.preparedAt n r) D.capabilities = .ok D.inputConfig := by
  rw [← D.checks, D.prepared_eq]
  rfl

theorem identifies_at (n r : Nat) :
    identify O.hashing (D.preparedAt n r) D.capabilities D.inputConfig =
      .ok (D.invocationAt n r) := by
  have h := D.identifies
  rw [D.prepared_eq, D.invocation_eq_at] at h
  unfold identify at h ⊢
  simp only [bind_eq_ok] at h ⊢
  obtain ⟨_, hcanonical, h⟩ := h
  refine ⟨(), hcanonical, ?_⟩
  rw [invocationAt_eq] at h ⊢
  injection h with h
  injection h with _ _ _ hpackages hdigest hlogical
  rw [← hpackages, ← hdigest, ← hlogical]
  rfl

theorem binds_at (n r : Nat) :
    validateInputPlanBinding ((D.invocationAt n r).request O.hashing) = .ok () := by
  have h := D.binds
  rw [D.invocation_eq_at] at h
  exact h

theorem answer_at (n r : Nat) : O.Matches ((D.invocationAt n r).request O.hashing) D.given := by
  have h := D.answer
  rw [D.invocation_eq_at] at h
  exact ⟨h.identity, h.envelope, h.schema⟩

theorem attempt_eq {n r n' r' : Nat} (hd : (n, r) ∈ D.delivered) (hd' : (n', r') ∈ D.delivered)
    (h : D.inferenceIdAt n r = D.inferenceIdAt n' r') : n = n' ∧ r = r' := by
  refine Prod.mk.inj (D.attempts _ hd _ hd' ?_)
  unfold inferenceIdAt Invocation.inferenceId Invocation.attemptDigest at h
  rw [invocationAt_eq, invocationAt_eq] at h
  have hshadow : ∀ m k, (D.arguments.withAttempt m k).shadow = false := fun _ _ => D.unshadowed
  simp only [preparedAt, hshadow] at h
  exact h

theorem policy_at : O.policy D.arguments.task = .ok D.prepared.policy := by
  have h := (prepare_prepared D.prepares).1.policy
  rw [(prepare_prepared D.prepares).2] at h
  exact h

theorem dependency_bound : JsonObject.getD D.inputConfig "logical_dependency_sha256" =
    match D.arguments.logicalDependencySha256 with
    | some digest => .text digest
    | none => .null := by
  have hbase := D.prepares
  unfold prepare at hbase
  simp only [bind_eq_ok] at hbase
  obtain ⟨_, -, _, -, rendered, -, config, hconfig, metadata, -, policy, -, _, -, _, -, hprepared⟩ :=
    hbase
  injection hprepared with hprepared
  have hdependency : JsonObject.getD D.prepared.inputConfig "logical_dependency_sha256" =
      match D.arguments.logicalDependencySha256 with
      | some digest => .text digest
      | none => .null := by
    rw [← hprepared]
    unfold bindDependency at hconfig
    have harguments : (D.arguments.withAttempt 1 0).logicalDependencySha256 =
        D.arguments.logicalDependencySha256 := rfl
    rw [harguments] at hconfig
    cases hdigest : D.arguments.logicalDependencySha256 with
    | none =>
      simp only [hdigest, bind_eq_ok, refuse_eq_ok] at hconfig
      obtain ⟨_, hhas, hconfig⟩ := hconfig
      cases hconfig
      exact JsonObject.getD_of_has hhas
    | some digest =>
      simp only [hdigest, bind_eq_ok] at hconfig
      obtain ⟨_, -, hconfig⟩ := hconfig
      cases hconfig
      rw [getD_set, if_pos rfl]
  rw [← hdependency]
  have hchecks := D.checks
  unfold checkCapabilities at hchecks
  simp only [bind_eq_ok] at hchecks
  obtain ⟨merged, hmerged, _, -, hchecks⟩ := hchecks
  injection hchecks with hchecks
  rw [← hchecks]
  unfold measuredConfig at hmerged
  split at hmerged
  · injection hmerged with hmerged
    rw [← hmerged]
  · rename_i plan _
    obtain ⟨_, -, hmerged⟩ := bind_eq_ok.mp hmerged
    -- none of the measurements is called like the dependency
    have hkeys : ∀ m ∈ inputMeasurements plan D.prepared.part,
        m.1 ≠ "logical_dependency_sha256" := by
      have hnames : (inputMeasurements plan D.prepared.part).map Prod.fst =
          ["input_images", "max_pixels_per_image", "payload_bytes", "input_tokens"] := by
        unfold inputMeasurements
        split <;> rfl
      intro m hm
      have hname := mem_map_of_mem (f := Prod.fst) hm
      rw [hnames] at hname
      have hall : ∀ name ∈ ["input_images", "max_pixels_per_image", "payload_bytes",
          "input_tokens"], name ≠ "logical_dependency_sha256" := by decide
      exact hall m.1 hname
    have hkept := foldlM_invariant (fun rest config =>
        (∀ m ∈ rest, m.1 ≠ "logical_dependency_sha256") ∧
        JsonObject.getD config "logical_dependency_sha256" =
          JsonObject.getD D.prepared.inputConfig "logical_dependency_sha256")
      (fun m rest config config' hbefore hmerge => by
        unfold mergeMeasurement at hmerge
        simp only [bind_eq_ok] at hmerge
        obtain ⟨_, -, hmerge⟩ := hmerge
        cases hmerge
        obtain ⟨hne, hbefore⟩ := hbefore
        refine ⟨fun m' hm' => hne m' (mem_cons_of_mem _ hm'), ?_⟩
        rw [getD_set, if_neg (hne m mem_cons_self).symm, hbefore])
      _ _ _ ⟨hkeys, rfl⟩ hmerged
    exact hkept.2

/-! ## The ledger of the deliveries -/

/-- Everything in the ledger comes from deliveries of the invocation. -/
structure Delivers (outcomes : List (VisionInferenceRequest × AdapterOutcome))
    (l : InMemoryInferenceLedger) : Prop extends LedgerInv O outcomes l where
  intentsAt : ∀ {id i}, l.intents.get? id = some i → ∃ n r q c, (n, r) ∈ D.delivered ∧
    i = D.intentAt n r q c
  terminalsAt : ∀ {id t}, l.terminals.get? id = some t →
    ∃ i s e, l.intents.get? id = some i ∧ t = D.terminalAt i s e

def Selected (l : InMemoryInferenceLedger) (selection : InferenceAttemptSelection) : Prop :=
  l.selections.get? (D.invocation.logicalInvocationId, D.policyVersion) = some selection

section Ledger

variable {D} {outcomes : List (VisionInferenceRequest × AdapterOutcome)}
  {l : InMemoryInferenceLedger}

variable {q e : Rfc3339Timestamp}

theorem isSelectable_terminalAt {n r : Nat} {c s : Rfc3339Timestamp} :
    isSelectable (D.terminalAt (D.intentAt n r q c) s e) = true := by
  have hshadow : (D.terminalAt (D.intentAt n r q c) s e).shadow = false := D.unshadowed
  unfold Orchestrator.isSelectable
  rw [hshadow]
  rfl

variable {t : ModelInference} {id : OpaqueUuid} {selection : InferenceAttemptSelection}

theorem logical_terminalAt {n r : Nat} {c s : Rfc3339Timestamp} :
    (D.terminalAt (D.intentAt n r q c) s e).logicalInvocationId =
      D.invocation.logicalInvocationId := rfl

theorem payload_terminalAt {n r : Nat} {c s : Rfc3339Timestamp} :
    (D.terminalAt (D.intentAt n r q c) s e).normalizedOutput.getD [] =
      D.given.normalizedOutput.payload := rfl

theorem revalidate_selectionOf {P : SchemaVersion} {at' : Rfc3339Timestamp} :
    O.revalidate (O.selectionOf t P at') = .ok () := by
  simp [revalidate, selectionOf]

theorem selectionWinner_selectionOf {P : SchemaVersion} {at' : Rfc3339Timestamp} :
    O.selectionWinner (O.selectionOf t P at') t.logicalInvocationId P =
      .ok (O.selectionOf t P at') := by
  unfold Orchestrator.selectionWinner
  rw [revalidate_selectionOf, ok_bind, bind_eq_ok]
  refine ⟨(), ?_, rfl⟩
  simp [selectionOf]

theorem schema_accepts : ∃ compiled, O.schemas D.prepared.policy.outputSchema = .ok compiled ∧
    compiled.validate D.given.normalizedOutput.payload = .valid := (D.answer_at 1 0).schema

theorem sameSemantics_terminalAt {n r n' r' : Nat} {c s : Rfc3339Timestamp} :
    sameSemantics (D.invocationAt n r) (D.terminalAt (D.intentAt n' r' q c) s e) = true := by
  have hdependency := D.dependency_bound
  unfold sameSemantics terminalAt intentAt
  rw [invocationAt_eq, invocationAt_eq]
  cases hlogical : D.arguments.logicalDependencySha256 <;>
    simp [terminalOf, Invocation.intent, Invocation.request, preparedAt,
      OrchestrateArguments.withAttempt, hdependency, hlogical]

/-- The stored selection of the invocation, with the terminal that it names. -/
def Returned (D : Delivery O) (l : InMemoryInferenceLedger)
    (result : Except OrchestrationError CallResult) : Prop :=
  ∃ selection t, D.Selected l selection ∧ l.terminals.get? selection.inferenceId = some t ∧
    result = .ok (.attempt ⟨t, some selection⟩)

theorem Returned.grows {l' : InMemoryInferenceLedger}
    {result : Except OrchestrationError CallResult} (h : D.Returned l result)
    (hgrows : LedgerGrows l l') : D.Returned l' result := by
  obtain ⟨selection, t, hselection, ht, rfl⟩ := h
  exact ⟨selection, t, hgrows.selections hselection, hgrows.terminals ht, rfl⟩

variable (h : D.Delivers outcomes l)
include h

theorem Delivers.terminal_eq (ht : l.terminals.get? id = some t) :
    ∃ n r q c s e, l.intents.get? id = some (D.intentAt n r q c) ∧
      t = D.terminalAt (D.intentAt n r q c) s e := by
  obtain ⟨i, s, e, hi, rfl⟩ := h.terminalsAt ht
  obtain ⟨n, r, q, c, -, rfl⟩ := h.intentsAt hi
  exact ⟨n, r, q, c, s, e, hi, rfl⟩

theorem Delivers.selected_of_terminal (ht : l.terminals.get? id = some t) :
    ∃ selection, D.Selected l selection := by
  obtain ⟨n, r, q, c, s, e, -, rfl⟩ := h.terminal_eq ht
  obtain ⟨policy, hpolicy, hsome⟩ := h.selected ht isSelectable_terminalAt
  cases hpolicy.symm.trans D.policy_at
  exact Option.isSome_iff_exists.mp hsome

variable (hselection : D.Selected l selection)
include hselection

theorem Delivers.selection_eq : ∃ t, l.terminals.get? selection.inferenceId = some t ∧
    selection = O.selectionOf t D.policyVersion selection.selectedAt := by
  obtain ⟨t, ht, -, hkey, heq⟩ := h.selections hselection
  rw [← (Prod.mk.inj hkey).2] at heq
  exact ⟨t, ht, heq⟩

theorem Delivers.revalidate : O.revalidate selection = .ok () := by
  obtain ⟨t, -, heq⟩ := h.selection_eq hselection
  rw [heq]
  exact revalidate_selectionOf

theorem Delivers.selectionWinner :
    O.selectionWinner selection D.invocation.logicalInvocationId D.policyVersion =
      .ok selection := by
  obtain ⟨t, ht, heq⟩ := h.selection_eq hselection
  obtain ⟨n, r, q, c, s, e, -, rfl⟩ := h.terminal_eq ht
  rw [heq]
  exact selectionWinner_selectionOf

theorem Delivers.checkSelected (n r : Nat) :
    ∃ t, l.terminals.get? selection.inferenceId = some t ∧
      O.checkSelected (D.invocationAt n r) l selection = .ok t := by
  obtain ⟨t, ht, heq⟩ := h.selection_eq hselection
  have hid : selection.inferenceId = t.inferenceId := by rw [heq]; rfl
  obtain ⟨n', r', q, c, s, e, -, rfl⟩ := h.terminal_eq ht
  refine ⟨_, ht, ?_⟩
  unfold Orchestrator.checkSelected
  rw [h.revalidate hselection, ok_bind]
  refine bind_eq_ok.mpr ⟨(), ?_, ?_⟩
  · rw [heq]
    simp [selectionOf, logical_terminalAt, policyVersion, invocationAt, preparedAt]
  obtain ⟨compiled, hcompiled, hvalid⟩ := D.schema_accepts
  rw [ht]
  refine bind_eq_ok.mpr ⟨(), bind_eq_ok.mpr ⟨(), ?_, bind_eq_ok.mpr ⟨compiled, hcompiled, ?_⟩⟩, rfl⟩
  · have hshadow : (D.terminalAt (D.intentAt n' r' q c) s e).shadow = false := D.unshadowed
    rw [sameSemantics_terminalAt, hshadow, hid]
    simp [terminalAt, terminalOf, acceptedOutput]
  · rw [payload_terminalAt, hvalid]

theorem Delivers.selectSuccess (ht : l.terminals.get? id = some t) {s : Section}
    (hs : s.ledger = l) (clock : Clock) {E : OrchestrationError → Section → Prop} :
    wp (O.selectSuccess clock t D.policyVersion)
      (fun selected s' => selected = some selection ∧
        s' = { s with selection := some selection }) E s := by
  obtain ⟨n, r, q, c, a, e, -, rfl⟩ := h.terminal_eq ht
  subst hs
  unfold Orchestrator.selectSuccess
  rw [isSelectable_terminalAt, if_neg Bool.true_eq_false_eq_False, wp_bind,
    wp_findSelection, logical_terminalAt]
  have hfind : s.ledger.selections.get? (D.invocation.logicalInvocationId, D.policyVersion) =
    some selection := hselection
  rw [hfind]
  show wp (O.keepWinner selection _ D.policyVersion) _ _ s
  unfold keepWinner
  rw [logical_terminalAt, h.selectionWinner hselection]
  simp only [wp_bind, wp_ofExcept, reduceCtorEq, false_implies, implies_true, and_true]
  rintro winner ⟨⟩
  exact ⟨rfl, rfl⟩

/-! ## What a call returns -/

theorem Delivers.validateSelection (ht : l.terminals.get? selection.inferenceId = some t) :
    O.validateOrchestratedSelection D.arguments.task t selection = .ok () := by
  obtain ⟨t', ht', heq⟩ := h.selection_eq hselection
  cases ht.symm.trans ht'
  obtain ⟨n, r, q, c, a, e, -, rfl⟩ := h.terminal_eq ht
  unfold Orchestrator.validateOrchestratedSelection
  obtain ⟨compiled, hcompiled, hvalid⟩ := D.schema_accepts
  rw [D.policy_at, ok_bind, h.revalidate hselection, ok_bind]
  refine bind_eq_ok.mpr ⟨(), ?_, bind_eq_ok.mpr ⟨compiled, hcompiled, ?_⟩⟩
  · rw [heq]
    have hshadow : (D.terminalAt (D.intentAt n r q c) a e).shadow = false := D.unshadowed
    rw [hshadow]
    simp [selectionOf, policyVersion, terminalAt, terminalOf, acceptedOutput, intentAt,
      Invocation.intent, Invocation.request, invocationAt, preparedAt,
      OrchestrateArguments.withAttempt]
  · rw [payload_terminalAt, hvalid]

/-- A stored terminal is returned as the selected terminal and its selection. -/
theorem Delivers.withSelection (ht : l.terminals.get? id = some t) {s : Section}
    (hs : s.ledger = l) (hhanded : s.selection = some selection) :
    D.Returned l ((O.withSelection D.arguments.task s t).map CallResult.attempt) := by
  subst hs
  obtain ⟨selected, hselected, -⟩ := h.selection_eq hselection
  refine ⟨selection, selected, hselection, hselected, ?_⟩
  have htarget : selectedTerminal s.ledger t selection = .ok selected := by
    unfold selectedTerminal
    split
    · rename_i hid
      rw [h.toLedgerInv.inferenceId ht] at hid
      rw [hid, ht] at hselected
      cases hselected
      rfl
    · rw [hselected]
  have hsel : isSelectable t = true := by
    obtain ⟨n, r, q, c, a, e, -, rfl⟩ := h.terminal_eq ht
    exact isSelectable_terminalAt
  have hhand : O.handedSelection D.arguments.task s t = .ok selection := by
    unfold Orchestrator.handedSelection
    rw [hhanded]
  unfold Orchestrator.withSelection
  rw [hsel, hhand, ok_bind, htarget, ok_bind, h.validateSelection hselection hselected]
  rfl

end Ledger

/-! ## The sections of a delivery -/

/-- An attempt of the invocation whose intent is stored. -/
structure Opened (D : Delivery O) (l : InMemoryInferenceLedger) (n r : Nat) (opened : OpenAttempt) :
    Prop where
  eq : ∃ q c, opened = ⟨D.prepared.policy, D.capabilities, D.intentAt n r q c, opened.startedAt⟩
  stored : l.intents.get? opened.intent.inferenceId = some opened.intent

/-- What a section leaves that returns: the terminal is stored, and the selection is handed over. -/
structure Hands (D : Delivery O) (outcomes : List (VisionInferenceRequest × AdapterOutcome))
    (l : InMemoryInferenceLedger) (t : ModelInference) (s' : Section) : Prop where
  delivers : D.Delivers outcomes s'.ledger
  grows : LedgerGrows l s'.ledger
  selected : ∃ selection, D.Selected s'.ledger selection ∧ s'.selection = some selection
  stored : ∃ id, s'.ledger.terminals.get? id = some t

section Sections

variable {D} {outcomes : List (VisionInferenceRequest × AdapterOutcome)} {s : Section}
  {clock : Clock} {n r : Nat}

theorem Opened.grows {l l' : InMemoryInferenceLedger} {opened : OpenAttempt}
    (h : D.Opened l n r opened) (hgrows : LedgerGrows l l') : D.Opened l' n r opened :=
  ⟨h.eq, hgrows.intents h.stored⟩

section

variable (h : D.Delivers outcomes s.ledger)
include h

theorem Delivers.handed {l : InMemoryInferenceLedger}
    (hgrows : LedgerGrows l s.ledger) {id : OpaqueUuid} {t : ModelInference}
    (ht : s.ledger.terminals.get? id = some t) {E : OrchestrationError → Section → Prop} :
    wp (O.selectSuccess clock t D.policyVersion) (fun _ => D.Hands outcomes l t) E s := by
  obtain ⟨selection, hselection⟩ := h.selected_of_terminal ht
  refine wp_mono (h.selectSuccess hselection ht rfl clock) ?_ fun _ _ he => he
  rintro _ s' ⟨-, rfl⟩
  exact ⟨h, hgrows, ⟨selection, hselection, rfl⟩, id, ht⟩

/-- The intent that a delivery builds is the one that is stored, or a new one. -/
theorem Delivers.intent_eq (hd : (n, r) ∈ D.delivered) (now : Rfc3339Timestamp) :
    let existing := s.ledger.intents.get? (D.inferenceIdAt n r)
    ∀ i, existing = some i → i = D.intentAt n r ((existing.map (·.queuedAt)).getD now)
      ((existing.map (·.createdAt)).getD now) := by
  intro existing i hi
  have hid := h.intents hi
  obtain ⟨n', r', q, c, hd', rfl⟩ := h.intentsAt hi
  obtain ⟨rfl, rfl⟩ := D.attempt_eq hd' hd hid
  rw [hi]
  rfl

theorem Delivers.withIntent (hd : (n, r) ∈ D.delivered) {q c : Rfc3339Timestamp}
    (hfree : ∀ i, s.ledger.intents.get? (D.inferenceIdAt n r) = some i → i = D.intentAt n r q c) :
    D.Delivers outcomes { s.ledger with
        intents := s.ledger.intents.set (D.inferenceIdAt n r) (D.intentAt n r q c) } ∧
      LedgerGrows s.ledger { s.ledger with
        intents := s.ledger.intents.set (D.inferenceIdAt n r) (D.intentAt n r q c) } := by
  obtain ⟨hinv, hgrows⟩ := h.toLedgerInv.withIntent (D.intentAt n r q c) hfree
  refine ⟨⟨hinv, fun {id i} hi => ?_, fun ht => ?_⟩, hgrows⟩
  · simp only [Dict.get?_set] at hi
    split at hi
    · cases hi
      exact ⟨n, r, q, c, hd, rfl⟩
    · exact h.intentsAt hi
  · obtain ⟨i, a, e, hi, rfl⟩ := h.terminalsAt ht
    exact ⟨i, a, e, hgrows.intents hi, rfl⟩

end

/-- What the section after `adapter.capabilities` leaves. -/
def CapabilitiesTo (D : Delivery O) (outcomes : List (VisionInferenceRequest × AdapterOutcome))
    (l : InMemoryInferenceLedger) (n r : Nat) (progress : Progress) (s' : Section) : Prop :=
  match progress with
  | .returned t => D.Hands outcomes l t s'
  | .awaits phase => D.Delivers outcomes s'.ledger ∧ LedgerGrows l s'.ledger ∧
      s'.selection = none ∧ ∃ opened, phase = .awaitingGate opened ∧ D.Opened s'.ledger n r opened

section

variable (h : D.Delivers outcomes s.ledger)
include h

theorem openAttempt_delivers (hd : (n, r) ∈ D.delivered) (hnone : s.selection = none) :
    wp (O.openAttempt clock (D.invocationAt n r)) (D.CapabilitiesTo outcomes s.ledger n r)
      (fun _ _ => False) s := by
  have hintent := h.intent_eq hd (clock.read s.ticks)
  unfold openAttempt buildIntent Orchestrator.persistIntent InMemoryInferenceLedger.appendIntent
  rw [D.binds_at]
  simp only [wp_bind, wp_ofExcept, wp_self, wp_timestamp, wp_onLedger,
    Method.wp_raiseIf, Method.wp_assign, wp_pure, reduceCtorEq, false_implies,
    implies_true, and_true, forall_const]
  have hid : (D.invocationAt n r).inferenceId O.hashing = D.inferenceIdAt n r := rfl
  rw [hid]
  revert hintent
  dsimp only
  generalize ((s.ledger.intents.get? (D.inferenceIdAt n r)).map (·.queuedAt)).getD
    (clock.read s.ticks) = queuedAt
  generalize ((s.ledger.intents.get? (D.inferenceIdAt n r)).map (·.createdAt)).getD
    (clock.read s.ticks) = createdAt
  intro hintent
  refine ⟨fun hconflict => ?_, fun _ => ?_⟩
  · obtain ⟨i, hi, hne⟩ := (Option.any_eq_true _ _).mp hconflict
    exact of_decide_eq_true hne (hintent i hi)
  · obtain ⟨hdelivers, hgrows⟩ := h.withIntent hd hintent
    unfold enterGate
    rw [wp_bind, wp_self]
    split
    · rename_i t ht
      rw [wp_bind]
      exact wp_mono (Delivers.handed hdelivers hgrows ht) (fun _ _ hs' => hs')
        fun _ _ hfalse => hfalse
    · have hcapabilities : (D.invocationAt n r).capabilities = D.capabilities := by
        rw [D.invocationAt_eq]
      refine ⟨hdelivers, hgrows, hnone, _, rfl, ⟨queuedAt, createdAt, ?_⟩, Dict.get?_set_self _ _ _⟩
      rw [hcapabilities]
      rfl

theorem initialDelivery_delivers : wp (O.initialDelivery (D.invocationAt n r))
      (fun selected s' => match selected with
        | some t => D.Hands outcomes s.ledger t s'
        | none => s' = s) (fun _ _ => False) s := by
  unfold Orchestrator.initialDelivery
  dsimp only
  split
  · unfold Orchestrator.selectedTerminalForInitialDelivery
    rw [wp_bind, wp_findSelection]
    split
    · rfl
    · rename_i selection hselection
      obtain ⟨t, ht, hcheck⟩ := h.checkSelected hselection n r
      simp only [wp_bind, wp_ofExcept]
      refine ⟨fun a ha => ?_, fun e he => ?_⟩
      · cases hcheck.symm.trans ha
        exact ⟨h, .refl _, ⟨selection, hselection, rfl⟩, _, ht⟩
      · cases hcheck.symm.trans he
  · rfl

theorem afterCapabilities_delivers (hd : (n, r) ∈ D.delivered) (hnone : s.selection = none) :
    wp (O.afterCapabilities clock (D.preparedAt n r) D.capabilities)
      (D.CapabilitiesTo outcomes s.ledger n r) (fun _ _ => False) s := by
  unfold Orchestrator.afterCapabilities
  rw [D.checks_at]
  simp only [wp_bind, wp_ofExcept, reduceCtorEq, false_implies, implies_true, and_true]
  rintro config ⟨⟩
  rw [D.identifies_at]
  refine ⟨?_, fun _ he => (by cases he)⟩
  rintro v ⟨⟩
  refine wp_mono (initialDelivery_delivers h) (fun selected s' hs' => ?_) fun _ _ => False.elim
  cases selected with
  | some t => exact hs'
  | none =>
    subst hs'
    exact openAttempt_delivers h hd hnone

end

/-- Every terminal that is stored for the attempt has the times of this delivery. -/
def Unraced (l : InMemoryInferenceLedger) (opened : OpenAttempt)
    (completedAt : Rfc3339Timestamp) : Prop :=
  ∀ t, l.terminals.get? opened.intent.inferenceId = some t →
    t.startedAt = opened.startedAt ∧ t.completedAt = completedAt

variable {opened : OpenAttempt} {completedAt : Rfc3339Timestamp}

theorem Delivers.unraced_iff {l : InMemoryInferenceLedger} (h : D.Delivers outcomes l)
    (hopened : D.Opened l n r opened) :
    Unraced l opened completedAt ↔
      ¬ Conflicts l (D.terminalAt opened.intent opened.startedAt completedAt) := by
  constructor
  · rintro hunraced ⟨t, ht, hne⟩
    obtain ⟨i, a, e, hi, rfl⟩ := h.terminalsAt ht
    cases hopened.stored.symm.trans hi
    obtain ⟨ha, he⟩ := hunraced _ ht
    cases ha
    cases he
    exact hne rfl
  · intro hfree t ht
    cases eq_of_not_conflicts hfree ht
    exact ⟨rfl, rfl⟩

theorem judge_given (hopened : D.Opened s.ledger n r opened) :
    O.judge opened.intent.request (.success D.given) = .ok (acceptedOutput D.given) := by
  obtain ⟨q, c, heq⟩ := hopened.eq
  obtain ⟨hidentity, henvelope, compiled, hcompiled, hvalid⟩ := D.answer_at n r
  have hrequest : opened.intent.request = (D.invocationAt n r).request O.hashing := by
    rw [heq]
    rfl
  rw [hrequest]
  simp only [judge, hidentity, henvelope, hcompiled, ok_bind, hvalid]

theorem Delivers.appended {l l' : InMemoryInferenceLedger} (h : D.Delivers outcomes l)
    (hopened : D.Opened l n r opened)
    (happended : Appended O outcomes (D.terminalAt opened.intent opened.startedAt completedAt)
      l l') : D.Delivers outcomes l' := by
  refine ⟨happended.inv, fun hi => ?_, fun {id t} ht => ?_⟩
  · rw [happended.intents] at hi
    exact h.intentsAt hi
  · rcases happended.only ht with rfl | ht
    · have hid := happended.inv.inferenceId ht
      rw [← hid]
      exact ⟨opened.intent, _, _, happended.grows.intents hopened.stored, rfl⟩
    · obtain ⟨i, a, e, hi, rfl⟩ := h.terminalsAt ht
      exact ⟨i, a, e, happended.grows.intents hi, rfl⟩

theorem terminalOf_given (hmem : (opened.intent.request, .success D.given) ∈ outcomes)
    (hopened : D.Opened s.ledger n r opened) {startedAt : Rfc3339Timestamp} :
    O.TerminalOf outcomes opened.intent (D.terminalAt opened.intent startedAt completedAt) := by
  obtain ⟨q, c, heq⟩ := hopened.eq
  refine ⟨startedAt, completedAt, _, rfl, Or.inr ⟨D.given, hmem, ?_, rfl⟩⟩
  have hrequest : opened.intent.request = (D.invocationAt n r).request O.hashing := by
    rw [heq]
    rfl
  rw [hrequest]
  exact D.answer_at n r

/-- What the fields of a terminal are that an opened delivery writes. -/
structure AnswerOf (D : Delivery O) (t : ModelInference) : Prop where
  policy : O.policy t.stage = .ok D.prepared.policy
  logical : t.logicalInvocationId = D.invocation.logicalInvocationId
  selectable : isSelectable t = true

theorem answerOf_terminalAt (hopened : D.Opened s.ledger n r opened)
    (startedAt completedAt : Rfc3339Timestamp) :
    D.AnswerOf (D.terminalAt opened.intent startedAt completedAt) := by
  obtain ⟨q, c, heq⟩ := hopened.eq
  rw [heq]
  exact ⟨D.policy_at, rfl, isSelectable_terminalAt⟩

variable {completedAt : Rfc3339Timestamp}

variable (h : D.Delivers outcomes s.ledger) (hopened : D.Opened s.ledger n r opened)
  (hmem : (opened.intent.request, .success D.given) ∈ outcomes)
include h hopened hmem

theorem persistSelected_delivers {selection : InferenceAttemptSelection}
    (hselection : D.Selected s.ledger selection) :
    wp (O.persistSelected clock
        (D.terminalAt opened.intent opened.startedAt completedAt) D.policyVersion)
      (fun t s' => Unraced s.ledger opened completedAt ∧ D.Hands outcomes s.ledger t s')
      (fun _ s' => ¬ Unraced s.ledger opened completedAt ∧ s'.ledger = s.ledger) s := by
  have hanswer := answerOf_terminalAt hopened opened.startedAt completedAt
  have hunraced : Unraced s.ledger opened completedAt ↔ ¬ Conflicts s.ledger
      (D.terminalAt opened.intent opened.startedAt completedAt) := h.unraced_iff hopened
  have hkept := h.toLedgerInv.appendTerminal
    (t := D.terminalAt opened.intent opened.startedAt completedAt) hopened.stored
    (terminalOf_given hmem hopened) fun _ => ⟨_, hanswer.policy, by
      rw [hanswer.logical]
      exact Option.isSome_iff_exists.mpr ⟨selection, hselection⟩⟩
  unfold Orchestrator.persistSelected
  rw [wp_bind, wp_onLedger]
  refine wp_mono hkept ?_ ?_
  · rintro t l' ⟨rfl, hfree, hselections, happended⟩
    rw [wp_bind]
    have hdelivers := h.appended hopened happended
    have hselection' : D.Selected l' selection := happended.grows.selections hselection
    refine wp_mono (hdelivers.selectSuccess
      hselection' happended.stored rfl clock) ?_ fun _ _ => False.elim
    rintro _ _ ⟨rfl, rfl⟩
    exact ⟨hunraced.mpr hfree, hdelivers, happended.grows, ⟨selection, hselection', rfl⟩, _,
      happended.stored⟩
  · rintro e l' ⟨rfl, hconflicts⟩
    exact ⟨fun h => hunraced.mp h hconflicts, rfl⟩

theorem persistFirst_delivers (htime : completedAt ≤ clock.read s.ticks)
    (hnone : s.ledger.selections.get? (D.invocation.logicalInvocationId, D.policyVersion) = none) :
    wp (O.persistFirst clock
        (D.terminalAt opened.intent opened.startedAt completedAt) D.policyVersion)
      (fun t s' => Unraced s.ledger opened completedAt ∧ D.Hands outcomes s.ledger t s')
      (fun _ _ => False) s := by
  have hanswer := answerOf_terminalAt hopened opened.startedAt completedAt
  -- without a selection no attempt has a terminal
  have hfree : ∀ id t, s.ledger.terminals.get? id ≠ some t := fun id t ht => by
    obtain ⟨selection, hselection⟩ := h.selected_of_terminal ht
    cases hnone.symm.trans hselection
  have hfirst := h.toLedgerInv.appendTerminalAndSelection
    hopened.stored
    (terminalOf_given hmem hopened) hanswer.selectable hanswer.policy htime (by
      rw [hanswer.logical]
      exact hnone)
  unfold Orchestrator.persistFirst
  rw [wp_bind, wp_timestamp, wp_bind, wp_onLedger]
  refine wp_mono hfirst ?_ ?_
  · rintro _ l' ⟨rfl, hselected, happended⟩
    have hdelivers := h.appended hopened happended
    have hselection : D.Selected l' (O.selectionOf (D.terminalAt opened.intent opened.startedAt
        completedAt) D.policyVersion (clock.read s.ticks)) := by
      rw [hanswer.logical] at hselected
      exact hselected
    simp only [wp_bind, wp_ofExcept]
    show (∀ winner, O.selectionWinner (O.selectionOf _ D.policyVersion _) _ D.policyVersion =
      .ok winner → _) ∧ ∀ e, O.selectionWinner (O.selectionOf _ D.policyVersion _) _
        D.policyVersion = .error e → False
    rw [selectionWinner_selectionOf]
    refine ⟨?_, fun _ he => (by cases he)⟩
    rintro _ ⟨⟩
    exact ⟨fun t ht => absurd ht (hfree _ t), hdelivers, happended.grows, ⟨_, hselection, rfl⟩, _,
      happended.stored⟩
  · rintro e _ ⟨-, t, ht, -⟩
    exact hfree _ t ht

/-- A delivery records its answer exactly when it was not raced; else it raises and writes
nothing. -/
theorem afterOutcome_delivers :
    wp (O.afterOutcome clock opened (.success D.given))
      (fun t s' => Unraced s.ledger opened (clock.read s.ticks) ∧ D.Hands outcomes s.ledger t s')
      (fun _ s' => ¬ Unraced s.ledger opened (clock.read s.ticks) ∧ s'.ledger = s.ledger) s := by
  have hanswer := answerOf_terminalAt hopened opened.startedAt (clock.read s.ticks)
  have hpolicy : opened.policy.selectionPolicyVersion = D.policyVersion := by
    obtain ⟨q, c, heq⟩ := hopened.eq
    rw [heq]
    rfl
  unfold Orchestrator.afterOutcome
  rw [judge_given hopened]
  simp only [wp_bind, wp_ofExcept, reduceCtorEq, false_implies, implies_true, and_true]
  rintro o ⟨⟩
  unfold Orchestrator.recordOutcome
  rw [wp_bind, hpolicy]
  show wp (O.persistTerminal clock (D.terminalAt opened.intent opened.startedAt
    (clock.read s.ticks)) D.policyVersion) _ _ _
  unfold Orchestrator.persistTerminal
  rw [hanswer.selectable, if_neg Bool.true_eq_false_eq_False, wp_bind, wp_findSelection,
    hanswer.logical]
  split
  · rename_i selection hselection
    exact persistSelected_delivers h hopened hmem hselection
  · rename_i hnone
    exact wp_mono (persistFirst_delivers h hopened hmem
      (clock.nondecreasing s.ticks) hnone) (fun _ _ hs' => hs') fun _ _ => False.elim

end Sections

/-! ## Runs of deliveries -/

/-- An attempt is delivered, or a delivery is woken: with the capabilities, at the gate, or with
the answer of the adapter. -/
inductive Step
  | call (attempt retryCount : Nat) (h : (attempt, retryCount) ∈ D.delivered) (clock : Clock)
  | capabilities (index : Nat)
  | acquired (index : Nat)
  | answered (index : Nat)

def event : D.Step → OrchestratorEvent
  | .call n r _ clock => .call .orchestrateWithSelection (D.arguments.withAttempt n r) clock
  | .capabilities index => .wake index (.capabilities D.capabilities)
  | .acquired index => .wake index .acquired
  | .answered index => .wake index (.answered (.success D.given))

/-- The world after a run of deliveries. -/
def after (steps : List D.Step) : OrchestratorWorld := O.after (steps.map D.event)

/-- Every delivery that has ended has returned the selection and its terminal. -/
def Good (w : OrchestratorWorld) : Prop :=
  ∀ c ∈ w.calls, ∀ result, c.state = .ended result → D.Returned w.ledger result

/-- No delivery that is answered has been raced: the stored terminal of its attempt, if there is
one, has the times that it would write itself. -/
def UnracedIn (w : OrchestratorWorld) : D.Step → Prop
  | .answered index => ∀ c opened, w.calls[index]? = some c →
      c.state = .waiting (.awaitingAdapter opened) →
      Unraced w.ledger opened (c.clock.read c.ticks)
  | _ => True

/-- No delivery of the run is raced. -/
def NeverRaced (w : OrchestratorWorld) : List D.Step → Prop
  | [] => True
  | e :: steps => D.UnracedIn w e ∧ NeverRaced (O.next w (D.event e)) steps

/-- Where a delivery of an attempt is. -/
inductive DeliveryState (l : InMemoryInferenceLedger) (n r : Nat) :
    Option InferenceAttemptSelection → CallState → Prop
  | prepared : DeliveryState l n r none (.waiting (.awaitingCapabilities (D.preparedAt n r)))
  | atGate (opened : OpenAttempt) (h : D.Opened l n r opened) :
      DeliveryState l n r none (.waiting (.awaitingGate opened))
  | atAdapter (opened : OpenAttempt) (h : D.Opened l n r opened) :
      DeliveryState l n r none (.waiting (.awaitingAdapter opened))
  | returned (selection : Option InferenceAttemptSelection)
      (result : Except OrchestrationError CallResult) (h : D.Returned l result) :
      DeliveryState l n r selection (.ended result)
  | raised (selection : Option InferenceAttemptSelection) (e : OrchestrationError) :
      DeliveryState l n r selection (.ended (.error e))

/-- A call of the run delivers an attempt. -/
structure CallAt (l : InMemoryInferenceLedger) (c : OrchestratedCall) (n r : Nat) : Prop where
  delivered : (n, r) ∈ D.delivered
  entry : c.entry = .orchestrateWithSelection
  arguments : c.arguments = D.arguments.withAttempt n r
  state : D.DeliveryState l n r c.selection c.state

/-- The invariant of the deliveries. -/
structure WorldOf (w : OrchestratorWorld) : Prop where
  delivers : D.Delivers w.outcomes w.ledger
  calls : ∀ c ∈ w.calls, ∃ n r, D.CallAt w.ledger c n r

section Runs

variable {D} {w : OrchestratorWorld} {l l' : InMemoryInferenceLedger} {c : OrchestratedCall}
  {n r : Nat} {outcomes : List (VisionInferenceRequest × AdapterOutcome)}

theorem CallAt.grows (h : D.CallAt l c n r) (hgrows : LedgerGrows l l') : D.CallAt l' c n r := by
  refine ⟨h.delivered, h.entry, h.arguments, ?_⟩
  have hstate := h.state
  revert hstate
  generalize c.selection = selection
  generalize c.state = state
  intro hstate
  cases hstate with
  | prepared => exact .prepared
  | atGate opened h => exact .atGate opened (h.grows hgrows)
  | atAdapter opened h => exact .atAdapter opened (h.grows hgrows)
  | returned selection result h => exact .returned selection result (h.grows hgrows)
  | raised selection e => exact .raised selection e

theorem Delivers.mono {outcomes' : List (VisionInferenceRequest × AdapterOutcome)}
    (hsub : outcomes ⊆ outcomes') (h : D.Delivers outcomes l) : D.Delivers outcomes' l :=
  ⟨h.toLedgerInv.mono hsub, h.intentsAt, h.terminalsAt⟩

/-- What a section of a delivery leaves. -/
structure DeliveryDone (D : Delivery O)
    (outcomes : List (VisionInferenceRequest × AdapterOutcome)) (l : InMemoryInferenceLedger)
    (n r : Nat) (unraced : Prop) (result : OrchestratedCall × InMemoryInferenceLedger) : Prop where
  delivers : D.Delivers outcomes result.2
  grows : LedgerGrows l result.2
  call : D.CallAt result.2 result.1 n r
  raised : result.1.Raised ↔ ¬ unraced

/-- A section that hands over a stored terminal ends its call with the selection. -/
theorem Hands.settles {t : ModelInference} {s' : Section} (h : D.Hands outcomes l t s')
    (hc : c.entry = .orchestrateWithSelection) (harguments : c.arguments =
      D.arguments.withAttempt n r) :
    ∃ result, O.settle c s' (.ok (.returned t)) = .ended result ∧ D.Returned s'.ledger result := by
  obtain ⟨selection, hselection, hhanded⟩ := h.selected
  obtain ⟨id, ht⟩ := h.stored
  have hreturned := h.delivers.withSelection hselection ht rfl hhanded
  refine ⟨_, ?_, hreturned⟩
  unfold settle
  simp only [hc, harguments]
  rfl

variable {unraced : Prop}

theorem Hands.done {t : ModelInference} {s' : Section} (h : D.Hands outcomes l t s')
    (hc : D.CallAt l c n r) (hunraced : unraced) :
    DeliveryDone D outcomes l n r unraced ({ c with
      ticks := s'.ticks, selection := s'.selection, appended := s'.appended,
      state := O.settle c s' (.ok (.returned t)) }, s'.ledger) := by
  obtain ⟨result, hsettle, hreturned⟩ := h.settles hc.entry hc.arguments
  rw [hsettle]
  refine ⟨h.delivers, h.grows, ⟨hc.delivered, hc.entry, hc.arguments, .returned _ _ hreturned⟩,
    iff_of_false ?_ (not_not_intro hunraced)⟩
  rintro ⟨e, hraised⟩
  cases hraised
  obtain ⟨_, _, _, _, hreturned⟩ := hreturned
  cases hreturned

theorem runSection_capabilities (h : D.Delivers outcomes l) (hc : D.CallAt l c n r)
    (hnone : c.selection = none) :
    DeliveryDone D outcomes l n r True (O.runSection l c
      (O.afterCapabilities c.clock (D.preparedAt n r) D.capabilities)) := by
  have hsection : wp (O.afterCapabilities c.clock (D.preparedAt n r) D.capabilities)
      (D.CapabilitiesTo outcomes l n r) (fun _ _ => False)
      ⟨l, c.ticks, c.selection, c.appended⟩ := afterCapabilities_delivers h hc.delivered hnone
  unfold runSection
  unfold wp at hsection
  cases hrun : O.afterCapabilities c.clock (D.preparedAt n r) D.capabilities
      ⟨l, c.ticks, c.selection, c.appended⟩ with
  | mk result s' =>
    rw [hrun] at hsection
    cases result with
    | error e => exact hsection.elim
    | ok progress =>
      cases progress with
      | returned t => exact Hands.done hsection hc trivial
      | awaits phase =>
        obtain ⟨hdelivers, hgrows, hselection, opened, rfl, hopened⟩ := hsection
        refine ⟨hdelivers, hgrows, ⟨hc.delivered, hc.entry, hc.arguments, ?_⟩,
          iff_of_false (fun ⟨_, hended⟩ => (by cases hended)) (not_not_intro trivial)⟩
        show D.DeliveryState _ n r s'.selection _
        rw [hselection]
        exact .atGate opened hopened

theorem runSection_answered (h : D.Delivers outcomes l) (hc : D.CallAt l c n r)
    {opened : OpenAttempt} (hopened : D.Opened l n r opened)
    (hmem : (opened.intent.request, .success D.given) ∈ outcomes) :
    DeliveryDone D outcomes l n r (Unraced l opened (c.clock.read c.ticks)) (O.runSection l c
      (Progress.returned <$> O.afterOutcome c.clock opened (.success D.given))) := by
  have hsection : wp (Progress.returned <$> O.afterOutcome c.clock opened (.success D.given))
      (fun progress s' => ∃ t, progress = .returned t ∧ Unraced l opened (c.clock.read c.ticks) ∧
        D.Hands outcomes l t s')
      (fun _ s' => ¬ Unraced l opened (c.clock.read c.ticks) ∧ s'.ledger = l)
      ⟨l, c.ticks, c.selection, c.appended⟩ := by
    rw [wp_map]
    exact wp_mono (afterOutcome_delivers h hopened hmem) (fun t _ hs' => ⟨t, rfl, hs'⟩)
      fun _ _ he => he
  unfold runSection
  unfold wp at hsection
  cases hrun : (Progress.returned <$> O.afterOutcome c.clock opened (.success D.given))
      ⟨l, c.ticks, c.selection, c.appended⟩ with
  | mk result s' =>
    rw [hrun] at hsection
    cases result with
    | error e =>
      obtain ⟨hraced, hledger⟩ := hsection
      cases hledger
      exact ⟨h, .refl _, ⟨hc.delivered, hc.entry, hc.arguments, .raised _ e⟩,
        iff_of_true ⟨e, rfl⟩ hraced⟩
    | ok progress =>
      obtain ⟨t, rfl, hunraced, hhands⟩ := hsection
      exact hhands.done hc hunraced

/-- A delivery of the run has ended with an error. -/
def Raises (w : OrchestratorWorld) : Prop := ∃ c ∈ w.calls, c.Raised

theorem WorldOf.good_iff (h : D.WorldOf w) : D.Good w ↔ ¬ Raises w := by
  constructor
  · rintro hgood ⟨c, hc, e, hended⟩
    obtain ⟨_, _, _, _, hreturned⟩ := hgood c hc _ hended
    cases hreturned
  · intro hraises c hc result hended
    obtain ⟨n, r, hcall⟩ := h.calls c hc
    have hstate := hcall.state
    rw [hended] at hstate
    generalize c.selection = selection at hstate
    cases hstate with
    | returned _ _ hreturned => exact hreturned
    | raised _ e => exact absurd ⟨c, hc, e, hended⟩ hraises

/-- What one step of a run of deliveries does. -/
structure StepOf (D : Delivery O) (w w' : OrchestratorWorld) (unraced : Prop) : Prop where
  inv : D.WorldOf w'
  raises : Raises w' ↔ Raises w ∨ ¬ unraced

theorem StepOf.refl (h : D.WorldOf w) (hunraced : unraced) : D.StepOf w w unraced :=
  ⟨h, ⟨Or.inl, fun hraises => hraises.elim id (absurd hunraced)⟩⟩

theorem newCall_prepared {a k : Nat} (hlt : k < a) {clock : Clock} :
    O.newCall .orchestrateWithSelection (D.arguments.withAttempt a k) clock =
      ⟨.orchestrateWithSelection, D.arguments.withAttempt a k, clock, 0, none, none,
        .waiting (.awaitingCapabilities (D.preparedAt a k))⟩ := by
  unfold newCall
  rw [D.prepare_at hlt]

theorem stepOf_call (h : D.WorldOf w) {a k : Nat} (hd : (a, k) ∈ D.delivered) (clock : Clock) :
    D.StepOf w (O.next w (D.event (.call a k hd clock))) True := by
  show D.StepOf w { w with calls := w.calls ++ [O.newCall .orchestrateWithSelection
    (D.arguments.withAttempt a k) clock] } True
  rw [newCall_prepared (D.exact _ hd).1]
  refine ⟨⟨h.delivers, ?_⟩, fun ⟨c, hc, e, hended⟩ => ?_, fun hraises => ?_⟩
  · exact forall_mem_append.mpr ⟨h.calls, forall_mem_singleton.mpr
      ⟨a, k, hd, rfl, rfl, .prepared⟩⟩
  · rcases mem_append.mp hc with hc | hc
    · exact Or.inl ⟨c, hc, e, hended⟩
    · cases mem_singleton.mp hc
      cases hended
  · obtain ⟨c, hc, hended⟩ := hraises.resolve_right (not_not_intro trivial)
    exact ⟨c, mem_append_left _ hc, hended⟩

theorem stepOf_section (h : D.WorldOf w) {index : Nat} (hfind : w.calls[index]? = some c)
    {phase : CallPhase} (hstate : c.state = .waiting phase) {body : SectionMethod Progress}
    {answers : List (VisionInferenceRequest × AdapterOutcome)}
    (hdone : DeliveryDone D (w.outcomes ++ answers) w.ledger n r unraced
      (O.runSection w.ledger c body)) :
    D.StepOf w ⟨(O.runSection w.ledger c body).2,
      w.calls.set index (O.runSection w.ledger c body).1, w.outcomes ++ answers⟩ unraced := by
  obtain ⟨hlt, hget⟩ := List.getElem?_eq_some_iff.mp hfind
  refine ⟨⟨hdone.delivers, fun d hd => ?_⟩, fun ⟨d, hd, hraised⟩ => ?_, fun hraises => ?_⟩
  · rcases mem_or_eq_of_mem_set hd with hd | rfl
    · obtain ⟨m, k, hcall⟩ := h.calls d hd
      exact ⟨m, k, hcall.grows hdone.grows⟩
    · exact ⟨n, r, hdone.call⟩
  · rcases mem_or_eq_of_mem_set hd with hd | rfl
    · exact Or.inl ⟨d, hd, hraised⟩
    · exact Or.inr (hdone.raised.mp hraised)
  · rcases hraises with ⟨d, hd, e, hended⟩ | hraced
    · -- the call that is woken had not ended, so that it is another one
      obtain ⟨i, hi, rfl⟩ := getElem_of_mem hd
      have hne : index ≠ i := by
        rintro rfl
        rw [hget, hstate] at hended
        cases hended
      refine ⟨w.calls[i], ?_, e, hended⟩
      rw [← getElem_set_ne hne (by simpa using hi)]
      exact getElem_mem _
    · exact ⟨_, mem_set hlt _, hdone.raised.mpr hraced⟩

theorem stepOf_wake (h : D.WorldOf w) {index : Nat} {wakeup : Wakeup}
    (hidle : (∀ c phase body, w.calls[index]? = some c → c.state = .waiting phase →
      O.resume c.clock phase wakeup ≠ some body) → unraced)
    (hwakes : ∀ c phase body n r, w.calls[index]? = some c → c.state = .waiting phase →
      O.resume c.clock phase wakeup = some body → D.CallAt w.ledger c n r →
      DeliveryDone D (w.outcomes ++ answersOf phase wakeup) w.ledger n r unraced
        (O.runSection w.ledger c body)) :
    D.StepOf w (O.next w (.wake index wakeup)) unraced := by
  simp only [Orchestrator.next]
  split
  · rename_i hfind
    exact .refl h (hidle fun c _ _ hc => (by cases hfind.symm.trans hc))
  rename_i c hfind
  split
  · rename_i result hended
    refine .refl h (hidle fun d phase _ hd hstate => ?_)
    cases hfind.symm.trans hd
    cases hended.symm.trans hstate
  rename_i phase hstate
  split
  · rename_i hnone
    refine .refl h (hidle fun d phase' _ hd hstate' hbody => ?_)
    cases hfind.symm.trans hd
    cases hstate.symm.trans hstate'
    cases hnone.symm.trans hbody
  rename_i body hbody
  obtain ⟨n, r, hcall⟩ := h.calls c (mem_of_getElem? hfind)
  exact stepOf_section h hfind hstate (hwakes c phase body n r hfind hstate hbody hcall)

theorem CallAt.waiting (h : D.CallAt l c n r) {phase : CallPhase} (hstate : c.state = .waiting phase) :
    c.selection = none ∧ match phase with
      | .awaitingCapabilities p => p = D.preparedAt n r
      | .awaitingGate opened | .awaitingAdapter opened => D.Opened l n r opened := by
  have hdelivery := h.state
  rw [hstate] at hdelivery
  generalize c.selection = selection at hdelivery ⊢
  cases hdelivery with
  | prepared => exact ⟨rfl, rfl⟩
  | atGate opened hopened | atAdapter opened hopened => exact ⟨rfl, hopened⟩

theorem stepOf_next (h : D.WorldOf w) (e : D.Step) :
    D.StepOf w (O.next w (D.event e)) (D.UnracedIn w e) := by
  cases e with
  | call a k hd clock => exact stepOf_call h hd clock
  | capabilities index =>
    refine stepOf_wake h (fun _ => trivial) fun c phase body n r _ hstate hbody hcall => ?_
    obtain ⟨hnone, hphase⟩ := hcall.waiting hstate
    cases phase with
    | awaitingCapabilities p =>
      cases hphase
      cases hbody
      exact runSection_capabilities (h.delivers.mono (subset_append_left _ _)) hcall hnone
    | awaitingGate opened | awaitingAdapter opened => cases hbody
  | acquired index =>
    refine stepOf_wake h (fun _ => trivial) fun c phase body n r _ hstate hbody hcall => ?_
    obtain ⟨hnone, hphase⟩ := hcall.waiting hstate
    cases phase with
    | awaitingCapabilities p | awaitingAdapter opened => cases hbody
    | awaitingGate opened =>
      cases hbody
      refine ⟨h.delivers.mono (subset_append_left _ _), .refl _, ⟨hcall.delivered, hcall.entry,
        hcall.arguments, ?_⟩, iff_of_false (fun ⟨_, hended⟩ => (by cases hended))
        (not_not_intro trivial)⟩
      show D.DeliveryState _ n r c.selection _
      rw [hnone]
      exact .atAdapter opened hphase
  | answered index =>
    refine stepOf_wake h (fun hidle c opened hfind hstate =>
      absurd rfl (hidle c _ _ hfind hstate)) fun c phase body n r hfind hstate hbody hcall => ?_
    obtain ⟨hnone, hphase⟩ := hcall.waiting hstate
    cases phase with
    | awaitingCapabilities p | awaitingGate opened => cases hbody
    | awaitingAdapter opened =>
      cases hbody
      have hanswered := runSection_answered
        (h.delivers.mono (subset_append_left _ [(opened.intent.request, .success D.given)]))
        hcall hphase (mem_append_right _ (mem_singleton.mpr rfl))
      have hunraced : D.UnracedIn w (.answered index) ↔
          Unraced w.ledger opened (c.clock.read c.ticks) := by
        constructor
        · intro hall
          exact hall c opened hfind hstate
        · intro hone d opened' hd hstate'
          cases hfind.symm.trans hd
          cases hstate.symm.trans hstate'
          exact hone
      rw [hunraced]
      exact hanswered

@[simp] theorem neverRaced_cons {e : D.Step} {steps : List D.Step} :
    D.NeverRaced w (e :: steps) ↔
      D.UnracedIn w e ∧ D.NeverRaced (O.next w (D.event e)) steps := Iff.rfl

theorem worldOf_initial : D.WorldOf .initial :=
  ⟨⟨ledgerInv_empty O, (fun h => (by cases h)), fun h => (by cases h)⟩, fun _ hc => (by cases hc)⟩

theorem raises_run (steps : List D.Step) : ∀ {w : OrchestratorWorld}, D.WorldOf w →
    D.WorldOf ((steps.map D.event).foldl O.next w) ∧
      (Raises ((steps.map D.event).foldl O.next w) ↔ Raises w ∨ ¬ D.NeverRaced w steps) := by
  induction steps with
  | nil => exact fun h => ⟨h, by simp [NeverRaced]⟩
  | cons e steps ih =>
    intro w h
    obtain ⟨hinv, hraises⟩ := stepOf_next h e
    obtain ⟨hrun, hrest⟩ := ih hinv
    refine ⟨hrun, ?_⟩
    rw [map_cons, foldl_cons, hrest, hraises, neverRaced_cons, not_and_or, or_assoc]

end Runs

/-- Every delivery returns the selection of the invocation and the terminal that it names, unless
one is raced: the adapter answers it after another delivery of the same attempt has stored a
terminal with other times. -/
theorem duplicate_delivery_iff (steps : List D.Step) :
    D.Good (D.after steps) ↔ D.NeverRaced .initial steps := by
  obtain ⟨hinv, hraises⟩ := raises_run steps (worldOf_initial)
  have hnone : ¬ Raises .initial := fun ⟨_, hc, _⟩ => (by cases hc)
  show D.Good ((steps.map D.event).foldl O.next .initial) ↔ _
  rw [hinv.good_iff, hraises, or_iff_right hnone, not_not]

end Delivery

namespace SampleOrchestrator

/-- The answer of the sample adapter to two attempts of the sample arguments. -/
def delivery : Delivery (orchestrator .valid) where
  arguments := arguments 1
  delivered := [(1, 0), (2, 0)]
  capabilities := capabilities
  given := answer
  prepared := ⟨arguments 1, none, "rendered", [], [], policy⟩
  inputConfig := []
  invocation := ⟨⟨arguments 1, none, "rendered", [], [], policy⟩, capabilities, [], "packages",
    "invocation", "robata:logical-invocation:invocation"⟩
  unshadowed := rfl
  prepares := rfl
  checks := by decide +kernel
  identifies := rfl
  binds := by decide +kernel
  answer := ⟨by decide +kernel, by decide +kernel, _, rfl, rfl⟩
  exact := by decide
  attempts := by decide +kernel

/-- Two overlapping deliveries of one attempt, on clocks that stand at different times. -/
def overlapping : List delivery.Step :=
  [.call 1 0 mem_cons_self (stopped 0), .call 1 0 mem_cons_self (stopped 1), .capabilities 0,
    .capabilities 1, .acquired 0, .acquired 1, .answered 0, .answered 1]

/-- The error that a call has ended with. -/
def errorOf (c : OrchestratedCall) : Option OrchestrationError :=
  match c.state with
  | .ended (.error e) => some e
  | _ => none

end SampleOrchestrator

open SampleOrchestrator in
/-- Of two overlapping deliveries of one attempt, the second one raises. -/
theorem overlapping_deliveries_conflict :
    ¬ delivery.Good (delivery.after overlapping) ∧
      ∃ c ∈ (delivery.after overlapping).calls, c.state = .ended
        (.error (.ledger "conflicting terminal attempt: robata:inference-attempt:a")) := by
  have hraises : ((delivery.after overlapping).calls[1]?.map errorOf) = some (some
      (.ledger "conflicting terminal attempt: robata:inference-attempt:a")) := by decide +kernel
  obtain ⟨c, hfind, herror⟩ := Option.map_eq_some_iff.mp hraises
  have hstate : c.state = .ended
      (.error (.ledger "conflicting terminal attempt: robata:inference-attempt:a")) := by
    unfold errorOf at herror
    split at herror
    · rename_i e hstate
      cases herror
      exact hstate
    · cases herror
  refine ⟨fun hgood => ?_, c, mem_of_getElem? hfind, hstate⟩
  obtain ⟨_, _, _, _, hreturned⟩ := hgood c (mem_of_getElem? hfind) _ hstate
  cases hreturned

end Robata.Orchestration
