import Robata.Orchestration.Orchestrator

/-!
# The attempt history

Whatever the calls, the adapters, the gate and the order of the wakeups: a terminal belongs to a
stored intent, it is a success only for an outcome that the adapter gave for its request and that
matches it, a selection names such a success, and nothing that is stored changes.  A call that
has appended its intent and ends leaves a terminal, unless a base exception or an exception without
a text reaches it, an answer cannot be read, or the schema check of a matching payload raises.
-/

namespace Robata.Orchestration

open Contracts Lib InMemoryInferenceLedger
open Orchestrator (isSelectable)
open Dict (get?_set get?_set_self)
open Method (wp_assign wp_bind wp_mono wp_ofExcept wp_pure wp_raiseIf wp_self)
open Orchestrator (answersOf buildIntent enterGate judge keepWinner newCall openAttempt prepare
  resume runSection selectionOf)
open Method (wp)

/-! ## Rules for sections -/

section Rules

variable {α : Type} {Q : α → Section → Prop} {E : OrchestrationError → Section → Prop} {s : Section}

@[simp] theorem wp_onLedger {m : LedgerMethod α} :
    wp (onLedger m) Q E s ↔ wp m (fun a l => Q a { s with ledger := l })
      (fun e l => E e { s with ledger := l }) s.ledger := by
  unfold onLedger Method.within wp
  beta_reduce
  cases m s.ledger with
  | mk result l => cases result <;> simp only

@[simp] theorem wp_timestamp {clock : Clock} {Q : Rfc3339Timestamp → Section → Prop} :
    wp (timestamp clock) Q E s ↔ Q (clock.read s.ticks) { s with ticks := s.ticks + 1 } := Iff.rfl

@[simp] theorem wp_setSelection {selection : Option InferenceAttemptSelection}
    {Q : Unit → Section → Prop} :
    wp (setSelection selection) Q E s ↔ Q () { s with selection } := Iff.rfl

@[simp] theorem wp_map {β : Type} {f : β → α} {x : SectionMethod β} :
    wp (f <$> x) Q E s ↔ wp x (fun b => Q (f b)) E s := by
  show wp (x >>= fun b => pure (f b)) Q E s ↔ _
  rw [wp_bind]
  exact Iff.rfl

/-- However the section ends, `R` holds of the state it leaves. -/
def Ensures (body : SectionMethod α) (R : Section → Prop) (s : Section) : Prop :=
  wp body (fun _ => R) (fun _ => R) s

theorem Ensures.mono {body : SectionMethod α} {R R' : Section → Prop} (h : Ensures body R s)
    (hR : ∀ s', R s' → R' s') : Ensures body R' s :=
  wp_mono h (fun _ => hR) (fun _ => hR)

end Rules

/-! ## What is stored -/

/-- What is stored stays as it is. -/
structure LedgerGrows (l l' : InMemoryInferenceLedger) : Prop where
  intents : ∀ {id i}, l.intents.get? id = some i → l'.intents.get? id = some i
  terminals : ∀ {id t}, l.terminals.get? id = some t → l'.terminals.get? id = some t
  selections : ∀ {key s}, l.selections.get? key = some s → l'.selections.get? key = some s

theorem LedgerGrows.refl (l : InMemoryInferenceLedger) : LedgerGrows l l := ⟨id, id, id⟩

theorem LedgerGrows.trans {l l' l'' : InMemoryInferenceLedger} (h : LedgerGrows l l')
    (h' : LedgerGrows l' l'') : LedgerGrows l l'' :=
  ⟨h'.intents ∘ h.intents, h'.terminals ∘ h.terminals, h'.selections ∘ h.selections⟩

section History

variable (O : Orchestrator)

def Orchestrator.SchemaAccepts (reference : JsonSchemaRef) (payload : JsonObject) : Prop :=
  ∃ compiled, O.schemas reference = .ok compiled ∧ compiled.validate payload = .valid

/-- The outcome that an adapter gave for a request matches it. -/
structure Orchestrator.Matches (request : VisionInferenceRequest) (o : VisionInferenceSuccess) :
    Prop where
  identity : outcomeIdentityError o.provider o.modelName o.modelVersion request = none
  envelope : envelopeError o.normalizedOutput request = none
  schema : O.SchemaAccepts request.outputSchema o.normalizedOutput.payload

/-- What is recorded of a request: no valid output, and success only where a failure that an
adapter gave says so, or the success that an adapter gave. -/
def Orchestrator.Recordable (outcomes : List (VisionInferenceRequest × AdapterOutcome))
    (request : VisionInferenceRequest) (o : AttemptOutcome) : Prop :=
  (o.outputValid = false ∧ (o.status = .succeeded →
      ∃ given, (request, .failure given) ∈ outcomes ∧ given.status = .succeeded)) ∨
    ∃ given, (request, .success given) ∈ outcomes ∧ O.Matches request given ∧
      o = acceptedOutput given

/-- A terminal attempt of an intent. -/
def Orchestrator.TerminalOf (outcomes : List (VisionInferenceRequest × AdapterOutcome))
    (i : InferenceIntent) (t : ModelInference) : Prop :=
  ∃ startedAt completedAt o, t = terminalOf i startedAt completedAt o ∧
    O.Recordable outcomes i.request o

structure LedgerInv (outcomes : List (VisionInferenceRequest × AdapterOutcome))
    (l : InMemoryInferenceLedger) : Prop where
  intents : ∀ {id i}, l.intents.get? id = some i → i.inferenceId = id
  terminals : ∀ {id t}, l.terminals.get? id = some t →
    ∃ i, l.intents.get? id = some i ∧ O.TerminalOf outcomes i t
  selections : ∀ {key s}, l.selections.get? key = some s → ∃ t,
    l.terminals.get? s.inferenceId = some t ∧ isSelectable t = true ∧
      key = (t.logicalInvocationId, s.policyVersion) ∧
      s = O.selectionOf t s.policyVersion s.selectedAt
  selected : ∀ {id t}, l.terminals.get? id = some t → isSelectable t = true →
    ∃ policy, O.policy t.stage = .ok policy ∧
      (l.selections.get? (t.logicalInvocationId, policy.selectionPolicyVersion)).isSome = true

end History

section Ledger

variable {O : Orchestrator} {outcomes : List (VisionInferenceRequest × AdapterOutcome)}
  {l l' : InMemoryInferenceLedger}

theorem Orchestrator.Recordable.mono {outcomes' : List (VisionInferenceRequest × AdapterOutcome)}
    {request : VisionInferenceRequest} {o : AttemptOutcome} (hsub : outcomes ⊆ outcomes')
    (h : O.Recordable outcomes request o) : O.Recordable outcomes' request o :=
  h.imp (fun ⟨hvalid, hstatus⟩ => ⟨hvalid, fun hs =>
      (hstatus hs).imp fun _ hgiven => ⟨hsub hgiven.1, hgiven.2⟩⟩)
    fun ⟨given, hmem, hmatches⟩ => ⟨given, hsub hmem, hmatches⟩

theorem LedgerInv.mono {outcomes' : List (VisionInferenceRequest × AdapterOutcome)}
    (hsub : outcomes ⊆ outcomes') (h : LedgerInv O outcomes l) : LedgerInv O outcomes' l where
  intents := h.intents
  terminals ht := by
    obtain ⟨i, hi, startedAt, completedAt, o, rfl, hrec⟩ := h.terminals ht
    exact ⟨i, hi, startedAt, completedAt, o, rfl, hrec.mono hsub⟩
  selections := h.selections
  selected := h.selected

theorem ledgerInv_empty (O : Orchestrator) : LedgerInv O [] .empty :=
  ⟨(fun h => (by cases h)), (fun h => (by cases h)), (fun h => (by cases h)), (fun h => (by cases h))⟩

variable {t : ModelInference}

theorem LedgerInv.inferenceId (h : LedgerInv O outcomes l) {id : OpaqueUuid}
    (ht : l.terminals.get? id = some t) : t.inferenceId = id := by
  obtain ⟨i, hi, _, _, _, rfl, _⟩ := h.terminals ht
  exact h.intents hi

/-- A stored attempt with a valid output is the success that an adapter gave. -/
theorem Orchestrator.TerminalOf.accepted {i : InferenceIntent}
    (h : O.TerminalOf outcomes i t) (hvalid : t.outputValid = true) :
    ∃ startedAt completedAt given, t = terminalOf i startedAt completedAt (acceptedOutput given) ∧
      (i.request, .success given) ∈ outcomes ∧ O.Matches i.request given := by
  obtain ⟨startedAt, completedAt, o, rfl, hrec⟩ := h
  rcases hrec with ⟨hnot, -⟩ | ⟨given, hmem, hmatches, rfl⟩
  · exact absurd (hnot.symm.trans hvalid) Bool.false_ne_true
  · exact ⟨startedAt, completedAt, given, rfl, hmem, hmatches⟩

theorem outputValid_of_isSelectable (h : isSelectable t = true) : t.outputValid = true := by
  unfold isSelectable at h
  simp only [Bool.and_eq_true] at h
  exact h.2

theorem LedgerInv.record (l' : InMemoryInferenceLedger) (h : LedgerInv O outcomes l)
    {i : InferenceIntent}
    {P : SchemaVersion} (hi : l.intents.get? t.inferenceId = some i)
    (ht : O.TerminalOf outcomes i t) (hintents : l'.intents = l.intents)
    (hterminals : ∀ id, l'.terminals.get? id =
      if id = t.inferenceId then some t else l.terminals.get? id)
    (hfree : ∀ t', l.terminals.get? t.inferenceId = some t' → t' = t)
    (hselections : ∀ {key s}, l'.selections.get? key = some s → l.selections.get? key = some s ∨
      (key = (t.logicalInvocationId, P) ∧ isSelectable t = true ∧ s.policyVersion = P ∧
        s = O.selectionOf t P s.selectedAt))
    (hkept : ∀ {key s}, l.selections.get? key = some s → l'.selections.get? key = some s)
    (hselected : isSelectable t = true → ∃ policy, O.policy t.stage = .ok policy ∧
      (l'.selections.get? (t.logicalInvocationId, policy.selectionPolicyVersion)).isSome = true) :
    LedgerInv O outcomes l' ∧ LedgerGrows l l' := by
  have hold : ∀ {id t'}, l.terminals.get? id = some t' → l'.terminals.get? id = some t' := by
    intro id t' ht'
    rw [hterminals]
    split
    · rename_i hid
      rw [hid] at ht'
      rw [hfree t' ht']
    · exact ht'
  refine ⟨⟨fun {id j} hj => ?_, fun {id t'} ht' => ?_, fun {key s} hs => ?_,
    fun {id t'} ht' hsel => ?_⟩, fun hj => by rw [hintents]; exact hj, hold, hkept⟩
  · rw [hintents] at hj
    exact h.intents hj
  · rw [hterminals] at ht'
    rw [hintents]
    split at ht'
    · rename_i hid
      cases ht'
      exact ⟨i, hid ▸ hi, ht⟩
    · exact h.terminals ht'
  · rcases hselections hs with hs | ⟨rfl, hsel, rfl, hs⟩
    · obtain ⟨t', ht', hrest⟩ := h.selections hs
      exact ⟨t', hold ht', hrest⟩
    · refine ⟨t, ?_, hsel, rfl, hs⟩
      rw [hterminals, hs]
      exact if_pos rfl
  · rw [hterminals] at ht'
    split at ht'
    · cases ht'
      exact hselected hsel
    · obtain ⟨policy, hpolicy, hsome⟩ := h.selected ht' hsel
      obtain ⟨s, hs⟩ := Option.isSome_iff_exists.mp hsome
      exact ⟨policy, hpolicy, Option.isSome_iff_exists.mpr ⟨s, hkept hs⟩⟩

end Ledger

/-! ## The appends of a terminal -/

section Appends

variable {O : Orchestrator} {outcomes : List (VisionInferenceRequest × AdapterOutcome)}
  {l : InMemoryInferenceLedger} {i : InferenceIntent} {t : ModelInference}

variable (O outcomes t) in
/-- What an append of a terminal leaves when it returns. -/
structure Appended (l l' : InMemoryInferenceLedger) : Prop where
  inv : LedgerInv O outcomes l'
  grows : LedgerGrows l l'
  intents : l'.intents = l.intents
  stored : l'.terminals.get? t.inferenceId = some t
  only : ∀ {id t'}, l'.terminals.get? id = some t' → t' = t ∨ l.terminals.get? id = some t'

variable (l t) in
/-- Another terminal of the attempt is stored. -/
def Conflicts : Prop :=
  ∃ t', l.terminals.get? t.inferenceId = some t' ∧ t' ≠ t

theorem conflicts_iff : (l.terminals.get? t.inferenceId).any (· ≠ t) = true ↔ Conflicts l t := by
  simp [Conflicts, Option.any_eq_true]

theorem eq_of_not_conflicts {t' : ModelInference} (h : ¬ Conflicts l t)
    (ht' : l.terminals.get? t.inferenceId = some t') : t' = t := by
  by_contra hne
  exact h ⟨t', ht', hne⟩

theorem Conflicts.stored (h : Conflicts l t) : (l.terminals.get? t.inferenceId).isSome = true := by
  obtain ⟨t', ht', -⟩ := h
  rw [ht']
  rfl

theorem mem_of_set {id : OpaqueUuid} {t' : ModelInference}
    (h : (l.terminals.set t.inferenceId t).get? id = some t') :
    t' = t ∨ l.terminals.get? id = some t' := by
  rw [get?_set] at h
  split at h
  · cases h
    exact Or.inl rfl
  · exact Or.inr h

theorem LedgerInv.appendTerminal (h : LedgerInv O outcomes l)
    (hi : l.intents.get? t.inferenceId = some i) (ht : O.TerminalOf outcomes i t)
    (hselected : isSelectable t = true → ∃ policy, O.policy t.stage = .ok policy ∧
      (l.selections.get? (t.logicalInvocationId, policy.selectionPolicyVersion)).isSome = true) :
    wp (appendTerminal t)
      (fun t' l' => t' = t ∧ ¬ Conflicts l t ∧ l'.selections = l.selections ∧
        Appended O outcomes t l l')
      (fun _ l' => l' = l ∧ Conflicts l t) l := by
  unfold InMemoryInferenceLedger.appendTerminal
  simp only [wp_bind, wp_self, wp_raiseIf, wp_assign, wp_pure]
  refine ⟨fun hconflict => ⟨trivial, conflicts_iff.mp hconflict⟩, fun hfree => ⟨fun hnone => ?_,
    fun _ => ?_⟩⟩
  · rw [hi] at hnone
    cases hnone
  · have hfree' : ¬ Conflicts l t := by
      rw [← conflicts_iff, hfree]
      exact Bool.false_ne_true
    have hrecord := LedgerInv.record (P := "")
      { l with terminals := l.terminals.set t.inferenceId t } h hi ht rfl
      (fun id => get?_set _ _ _ _) (fun t' ht' => eq_of_not_conflicts hfree' ht')
      Or.inl id hselected
    exact ⟨trivial, hfree', trivial, hrecord.1, hrecord.2, rfl, get?_set_self _ _ _, mem_of_set⟩

theorem LedgerInv.appendTerminalAndSelection (h : LedgerInv O outcomes l)
    (hi : l.intents.get? t.inferenceId = some i) (ht : O.TerminalOf outcomes i t)
    (hsel : isSelectable t = true) {policy : InferencePolicy}
    (hpolicy : O.policy t.stage = .ok policy) {selectedAt : Rfc3339Timestamp}
    (htime : t.completedAt ≤ selectedAt)
    (hnone : l.selections.get? (t.logicalInvocationId, policy.selectionPolicyVersion) = none) :
    wp (appendTerminalAndSelection O.hashing t
        (O.selectionOf t policy.selectionPolicyVersion selectedAt))
      (fun r l' => r = (t, O.selectionOf t policy.selectionPolicyVersion selectedAt) ∧
        l'.selections.get? (t.logicalInvocationId, policy.selectionPolicyVersion) = some r.2 ∧
        Appended O outcomes t l l')
      (fun _ l' => l' = l ∧ Conflicts l t) l := by
  obtain ⟨startedAt, completedAt, given, heq, -, -⟩ := ht.accepted (outputValid_of_isSelectable hsel)
  have htarget : validateSelectionTarget O.hashing
      (O.selectionOf t policy.selectionPolicyVersion selectedAt) (some t) = .ok () := by
    unfold isSelectable at hsel
    simp only [Bool.and_eq_true, beq_iff_eq, Bool.not_eq_eq_eq_not] at hsel
    have hfailure : t.failure = none := by rw [heq]; rfl
    simp [validateSelectionTarget, selectionOf, hsel, hfailure, not_lt.mpr htime]
  unfold InMemoryInferenceLedger.appendTerminalAndSelection
  simp only [wp_bind, wp_self, wp_raiseIf, wp_ofExcept, wp_pure]
  refine ⟨fun hconflict => ⟨trivial, conflicts_iff.mp hconflict⟩, fun hfree =>
    ⟨fun hmissing => ?_, fun _ => ⟨fun _ _ => ?_, fun e he => ?_⟩⟩⟩
  · rw [hi] at hmissing
    cases hmissing
  · have hfree' : ∀ t', l.terminals.get? t.inferenceId = some t' → t' = t := fun t' ht' => by
      simpa [ht'] using hfree
    have hstored : (l.terminals.get? t.inferenceId).getD t = t := by
      cases hfind : l.terminals.get? t.inferenceId with
      | none => rfl
      | some t' => exact hfree' t' hfind
    have hkey : l.selections.get? ((O.selectionOf t policy.selectionPolicyVersion
        selectedAt).logicalInvocationId, (O.selectionOf t policy.selectionPolicyVersion
        selectedAt).policyVersion) = none := hnone
    simp only [hstored, hkey, Option.getD_none]
    have hrecord := LedgerInv.record
      { l with
        terminals := l.terminals.set t.inferenceId t
        selections := l.selections.set (t.logicalInvocationId, policy.selectionPolicyVersion)
          (O.selectionOf t policy.selectionPolicyVersion selectedAt) } h hi ht rfl
      (fun id => get?_set _ _ _ _) hfree'
      (fun {key s} hs => by
        rw [get?_set] at hs
        split at hs
        · rename_i hkey
          cases hs
          exact Or.inr ⟨hkey, hsel, rfl, rfl⟩
        · exact Or.inl hs)
      (fun {key s} hs => by
        rw [get?_set]
        split
        · rename_i hkey
          rw [hkey, hnone] at hs
          cases hs
        · exact hs)
      (fun _ => ⟨policy, hpolicy, by rw [get?_set_self]; rfl⟩)
    exact ⟨trivial, get?_set_self _ _ _, hrecord.1, hrecord.2, rfl, get?_set_self _ _ _, mem_of_set⟩
  · rw [htarget] at he
    cases he

end Appends

/-! ## Recording an outcome -/

section Records

variable {O : Orchestrator} {outcomes : List (VisionInferenceRequest × AdapterOutcome)}
  {s : Section} {i : InferenceIntent} {t : ModelInference} {clock : Clock}
  {policy : InferencePolicy}

variable (O outcomes) in
/-- A section has kept the ledger in order. -/
structure KeepsLedger (s s' : Section) : Prop where
  inv : LedgerInv O outcomes s'.ledger
  grows : LedgerGrows s.ledger s'.ledger
  appended : s'.appended = s.appended

variable (O outcomes) in
/-- A section has left a terminal for an attempt. -/
structure Records (id : OpaqueUuid) (s s' : Section)
    : Prop extends KeepsLedger O outcomes s s' where
  stored : (s'.ledger.terminals.get? id).isSome = true

theorem Appended.records {s' : Section} (h : Appended O outcomes t s.ledger s'.ledger)
    (happended : s'.appended = s.appended) : Records O outcomes t.inferenceId s s' :=
  ⟨⟨h.inv, h.grows, happended⟩, by rw [h.stored]; rfl⟩

/-- Neither the ledger nor the memory of the call has changed. -/
def Untouched (s s' : Section) : Prop := s'.ledger = s.ledger ∧ s'.appended = s.appended

theorem KeepsLedger.untouched {s' : Section} (h : LedgerInv O outcomes s.ledger)
    (hs : Untouched s s') : KeepsLedger O outcomes s s' :=
  ⟨hs.1 ▸ h, hs.1 ▸ LedgerGrows.refl _, hs.2⟩

variable {P : SchemaVersion}

theorem wp_findSelection {L : OpaqueUuid} {Q : Option InferenceAttemptSelection → Section → Prop}
    {E : OrchestrationError → Section → Prop} :
    wp (Orchestrator.findSelection L P) Q E s ↔ Q (s.ledger.selections.get? (L, P)) s := Iff.rfl

theorem keepWinner_untouched {existing : InferenceAttemptSelection} :
    Ensures (O.keepWinner existing t P) (Untouched s) s := by
  unfold Ensures keepWinner
  simp only [wp_bind, wp_ofExcept]
  exact ⟨fun _ _ => ⟨rfl, rfl⟩, fun _ _ => ⟨rfl, rfl⟩⟩

/-- `_select_success` writes nothing for an invocation that has its selection. -/
theorem selectSuccess_untouched (clock : Clock)
    (hselected : isSelectable t = true →
      (s.ledger.selections.get? (t.logicalInvocationId, P)).isSome = true) :
    Ensures (O.selectSuccess clock t P) (Untouched s) s := by
  unfold Ensures Orchestrator.selectSuccess
  by_cases hsel : isSelectable t = false
  · rw [if_pos hsel]
    exact ⟨rfl, rfl⟩
  · rw [if_neg hsel, wp_bind, wp_findSelection]
    rw [Bool.not_eq_false] at hsel
    cases hfind : s.ledger.selections.get? (t.logicalInvocationId, P) with
    | none =>
      have hsome := hselected hsel
      rw [hfind] at hsome
      cases hsome
    | some existing => exact keepWinner_untouched

section Persist

variable (h : LedgerInv O outcomes s.ledger)
  (hi : s.ledger.intents.get? t.inferenceId = some i) (ht : O.TerminalOf outcomes i t)
  (hpolicy : O.policy t.stage = .ok policy)
include h hi ht hpolicy

theorem persistSelected_records {existing : InferenceAttemptSelection}
    (hexisting : s.ledger.selections.get?
      (t.logicalInvocationId, policy.selectionPolicyVersion) = some existing) :
    Ensures (O.persistSelected clock t policy.selectionPolicyVersion)
      (Records O outcomes t.inferenceId s) s := by
  unfold Ensures Orchestrator.persistSelected
  rw [wp_bind, wp_onLedger]
  refine wp_mono (h.appendTerminal hi ht fun _ => ⟨policy, hpolicy, by rw [hexisting]; rfl⟩) ?_ ?_
  · rintro t' l' ⟨rfl, -, hselections, hl'⟩
    rw [wp_bind]
    have hselect := selectSuccess_untouched (O := O) clock
      (s := { s with ledger := l' }) fun _ => by
        rw [hselections, hexisting]
        rfl
    have hdone : ∀ s', Untouched { s with ledger := l' } s' →
        Records O outcomes t'.inferenceId s s' := fun s' hs' =>
      Appended.records (hs'.1 ▸ hl') hs'.2
    refine wp_mono hselect (fun selected s' hs' => ?_) fun _ => hdone
    simp only [wp_bind, wp_raiseIf]
    exact ⟨fun _ => hdone s' hs', fun _ => hdone s' hs'⟩
  · rintro e l' ⟨rfl, hconflicts⟩
    exact ⟨⟨h, .refl _, rfl⟩, hconflicts.stored⟩

theorem persistFirst_records (hsel : isSelectable t = true)
    (htime : t.completedAt ≤ clock.read s.ticks)
    (hnone : s.ledger.selections.get?
      (t.logicalInvocationId, policy.selectionPolicyVersion) = none) :
    Ensures (O.persistFirst clock t policy.selectionPolicyVersion)
      (Records O outcomes t.inferenceId s) s := by
  unfold Ensures Orchestrator.persistFirst
  rw [wp_bind, wp_timestamp, wp_bind, wp_onLedger]
  refine wp_mono (h.appendTerminalAndSelection hi ht hsel hpolicy htime hnone) ?_ ?_
  · rintro r l' ⟨rfl, -, hl'⟩
    simp only [wp_bind, wp_ofExcept]
    exact ⟨fun _ _ => hl'.records rfl, fun _ _ => hl'.records rfl⟩
  · rintro e l' ⟨rfl, hconflicts⟩
    exact ⟨⟨h, .refl _, rfl⟩, hconflicts.stored⟩

/-- `_persist_terminal` leaves a terminal for the attempt, also when it raises. -/
theorem persistTerminal_records (htime : t.completedAt ≤ clock.read s.ticks) :
    Ensures (O.persistTerminal clock t policy.selectionPolicyVersion)
      (Records O outcomes t.inferenceId s) s := by
  unfold Ensures Orchestrator.persistTerminal
  by_cases hsel : isSelectable t = false
  · rw [if_pos hsel, wp_bind, wp_setSelection, wp_onLedger]
    refine wp_mono (h.appendTerminal hi ht fun htrue => ?_) ?_ ?_
    · rw [hsel] at htrue
      cases htrue
    · rintro t' l' ⟨rfl, -, -, hl'⟩
      exact hl'.records rfl
    · rintro e l' ⟨rfl, hconflicts⟩
      exact ⟨⟨h, .refl _, rfl⟩, hconflicts.stored⟩
  · rw [if_neg hsel, wp_bind, wp_findSelection]
    rw [Bool.not_eq_false] at hsel
    cases hfind : s.ledger.selections.get?
        (t.logicalInvocationId, policy.selectionPolicyVersion) with
    | some existing => exact persistSelected_records h hi ht hpolicy hfind
    | none => exact persistFirst_records h hi ht hpolicy hsel htime hfind

end Persist

/-- What holds of an attempt whose intent is stored. -/
structure OpenIn (O : Orchestrator) (l : InMemoryInferenceLedger) (opened : OpenAttempt) :
    Prop where
  intent : l.intents.get? opened.intent.inferenceId = some opened.intent
  policy : O.policy opened.intent.request.task = .ok opened.policy
  schema : ∃ compiled, O.schemas opened.intent.request.outputSchema = .ok compiled

theorem OpenIn.grows {l l' : InMemoryInferenceLedger} {opened : OpenAttempt}
    (h : OpenIn O l opened) (hgrows : LedgerGrows l l') : OpenIn O l' opened :=
  ⟨hgrows.intents h.intent, h.policy, h.schema⟩

variable {opened : OpenAttempt}

theorem recordOutcome_records (h : LedgerInv O outcomes s.ledger)
    (hopen : OpenIn O s.ledger opened) {o : AttemptOutcome}
    (ho : O.Recordable outcomes opened.intent.request o) :
    Ensures (O.recordOutcome clock opened o) (Records O outcomes opened.intent.inferenceId s) s := by
  unfold Ensures Orchestrator.recordOutcome
  rw [wp_bind]
  have hpersist := persistTerminal_records (s := { s with ticks := s.ticks + 1 })
    (t := terminalOf opened.intent opened.startedAt (clock.read s.ticks) o) h hopen.intent
    ⟨_, _, _, rfl, ho⟩ hopen.policy (clock.nondecreasing s.ticks)
  exact hpersist.mono fun s' hs' => ⟨⟨hs'.inv, hs'.grows, hs'.appended⟩, hs'.stored⟩

variable {request : VisionInferenceRequest}

theorem localFailure_recordable {status : InferenceStatus} {code detail : NonEmptyString}
    {retryability : Retryability} (hstatus : status ≠ .succeeded) :
    O.Recordable outcomes request (localFailure status code detail retryability) :=
  Or.inl ⟨rfl, fun h => absurd h hstatus⟩

/-- What `judge` records as a success is a success that the adapter gave and that matches. -/
theorem judge_recordable {outcome : AdapterOutcome} {o : AttemptOutcome}
    (hmem : (request, outcome) ∈ outcomes) (hjudge : O.judge request outcome = .ok o) :
    O.Recordable outcomes request o := by
  cases outcome with
  | unsupported =>
    cases hjudge
    exact localFailure_recordable (fun h => by cases h)
  | unreadable exc => cases hjudge
  | failure given =>
    simp only [judge] at hjudge
    split at hjudge <;> cases hjudge
    · exact Or.inl ⟨rfl, fun h => by cases h⟩
    · exact Or.inl ⟨rfl, fun h => ⟨given, hmem, h⟩⟩
  | success given =>
    simp only [judge] at hjudge
    split at hjudge
    · cases hjudge
      exact Or.inl ⟨rfl, fun h => by cases h⟩
    rename_i hidentity
    split at hjudge
    · cases hjudge
      exact Or.inl ⟨rfl, fun h => by cases h⟩
    rename_i henvelope
    obtain ⟨compiled, hcompiled, hjudge⟩ := bind_eq_ok.mp hjudge
    split at hjudge
    · cases hjudge
      exact Or.inl ⟨rfl, fun h => by cases h⟩
    · cases hjudge
    · rename_i hvalid
      cases hjudge
      exact Or.inr ⟨given, hmem, ⟨hidentity, henvelope, compiled, hcompiled, hvalid⟩, rfl⟩

end Records

/-! ## The sections -/

section Sections

variable {O : Orchestrator} {outcomes : List (VisionInferenceRequest × AdapterOutcome)}
  {s : Section} {clock : Clock}

/-- What the preparation has found of the configuration. -/
structure PreparedIn (O : Orchestrator) (p : PreparedCall) : Prop where
  policy : O.policy p.arguments.task = .ok p.policy
  schema : ∃ compiled, O.schemas p.policy.outputSchema = .ok compiled

theorem prepare_prepared {a : OrchestrateArguments} {p : PreparedCall}
    (h : O.prepare a = .ok p) : PreparedIn O p ∧ p.arguments = a := by
  unfold prepare at h
  simp only [bind_eq_ok] at h
  obtain ⟨_, -, _, -, rendered, -, config, -, metadata, -, policy, hpolicy, _, -, compiled,
    hcompiled, h⟩ := h
  cases h
  exact ⟨⟨hpolicy, compiled, hcompiled⟩, rfl⟩

theorem LedgerInv.withIntent {l : InMemoryInferenceLedger} (intent : InferenceIntent)
    (h : LedgerInv O outcomes l)
    (hfree : ∀ i, l.intents.get? intent.inferenceId = some i → i = intent) :
    LedgerInv O outcomes { l with intents := l.intents.set intent.inferenceId intent } ∧
      LedgerGrows l { l with intents := l.intents.set intent.inferenceId intent } := by
  have hkept : ∀ {id i}, l.intents.get? id = some i →
      (l.intents.set intent.inferenceId intent).get? id = some i := by
    intro id i hi
    rw [get?_set]
    split
    · rename_i hid
      rw [hid] at hi
      rw [hfree i hi]
    · exact hi
  refine ⟨⟨fun {id i} hi => ?_, fun ht => ?_, h.selections, h.selected⟩, hkept, id, id⟩
  · simp only [get?_set] at hi
    split at hi
    · rename_i hid
      cases hi
      exact hid.symm
    · exact h.intents hi
  · obtain ⟨i, hi, hterminal⟩ := h.terminals ht
    exact ⟨i, hkept hi, hterminal⟩

variable (O outcomes) in
/-- What a section leaves that may append the intent of its call. -/
structure Opens (s s' : Section) : Prop where
  inv : LedgerInv O outcomes s'.ledger
  grows : LedgerGrows s.ledger s'.ledger
  appended : ∀ i, s'.appended = some i → s'.ledger.intents.get? i.inferenceId = some i

variable (O outcomes) in
/-- Such a section has ended its call. -/
structure OpensDone (s s' : Section) : Prop extends Opens O outcomes s s' where
  stored : ∀ i, s'.appended = some i → (s'.ledger.terminals.get? i.inferenceId).isSome = true

variable (O outcomes s) in
/-- Such a section returns a terminal, or enters the gate with a stored intent. -/
def OpensTo (progress : Progress) (s' : Section) : Prop :=
  match progress with
  | .returned _ => OpensDone O outcomes s s'
  | .awaits phase => Opens O outcomes s s' ∧ ∃ opened, phase = .awaitingGate opened ∧
      OpenIn O s'.ledger opened ∧ s'.appended = some opened.intent

theorem OpensDone.untouched {s' : Section} (h : LedgerInv O outcomes s.ledger)
    (hnone : s.appended = none) (hs : Untouched s s') : OpensDone O outcomes s s' := by
  have hnone' : s'.appended = none := hs.2.trans hnone
  refine ⟨⟨hs.1 ▸ h, hs.1 ▸ .refl _, fun i hi => ?_⟩, fun i hi => ?_⟩ <;>
  · rw [hnone'] at hi
    cases hi

variable {v : Invocation}

theorem enterGate_opens {intent : InferenceIntent} {s₀ : Section} (hp : PreparedIn O v.prepared)
    (hrequest : intent.request = v.request O.hashing) (h : LedgerInv O outcomes s.ledger)
    (hgrows : LedgerGrows s₀.ledger s.ledger)
    (hintent : s.ledger.intents.get? intent.inferenceId = some intent)
    (happended : s.appended = some intent) :
    wp (O.enterGate clock v intent) (OpensTo O outcomes s₀)
      (fun _ => OpensDone O outcomes s₀) s := by
  have hpolicy : O.policy intent.request.task = .ok v.prepared.policy := by
    rw [hrequest]
    exact hp.policy
  unfold enterGate
  rw [wp_bind, wp_self]
  have hopens : ∀ s', Untouched s s' → Opens O outcomes s₀ s' := fun s' hs' =>
    ⟨hs'.1 ▸ h, hs'.1 ▸ hgrows, fun i hi => by
      rw [hs'.2, happended] at hi
      cases hi
      rw [hs'.1]
      exact hintent⟩
  cases hterminal : s.ledger.terminals.get? intent.inferenceId with
  | none =>
    refine ⟨hopens _ ⟨rfl, rfl⟩, _, rfl, ⟨hintent, hpolicy, ?_⟩, happended⟩
    rw [hrequest]
    exact hp.schema
  | some t =>
    have hdone : ∀ s', Untouched s s' → OpensDone O outcomes s₀ s' := fun s' hs' =>
      ⟨hopens s' hs', fun i hi => by
        rw [hs'.2, happended] at hi
        cases hi
        rw [hs'.1, hterminal]
        rfl⟩
    simp only [wp_bind]
    -- the stored attempt is one of this intent, so that its policy is the one of this call
    have hselected : isSelectable t = true → (s.ledger.selections.get?
        (t.logicalInvocationId, v.prepared.policy.selectionPolicyVersion)).isSome = true := by
      intro hsel
      obtain ⟨policy, hfind, hsome⟩ := h.selected hterminal hsel
      obtain ⟨i, hi, _, _, _, rfl, _⟩ := h.terminals hterminal
      cases hintent.symm.trans hi
      cases hpolicy.symm.trans hfind
      exact hsome
    exact wp_mono (selectSuccess_untouched clock hselected) (fun _ => hdone) fun _ => hdone

theorem openAttempt_opens (clock : Clock) (hp : PreparedIn O v.prepared)
    (h : LedgerInv O outcomes s.ledger) (hnone : s.appended = none) :
    wp (O.openAttempt clock v) (OpensTo O outcomes s) (fun _ => OpensDone O outcomes s) s := by
  unfold openAttempt buildIntent Orchestrator.persistIntent InMemoryInferenceLedger.appendIntent
  simp only [wp_bind, wp_ofExcept, wp_self, wp_timestamp, wp_onLedger, wp_raiseIf]
  generalize ((s.ledger.intents.get? (v.inferenceId O.hashing)).map (·.queuedAt)).getD
    (clock.read s.ticks) = queuedAt
  generalize ((s.ledger.intents.get? (v.inferenceId O.hashing)).map (·.createdAt)).getD
    (clock.read s.ticks) = createdAt
  refine ⟨fun _ _ => ⟨fun _ => ?_, fun hfree => ?_⟩, fun _ _ => ?_⟩
  · exact OpensDone.untouched h hnone ⟨rfl, rfl⟩
  · have hstored := h.withIntent (v.intent O.hashing queuedAt createdAt) fun i hi => by
      simpa [hi] using hfree
    exact enterGate_opens hp rfl hstored.1 hstored.2 (get?_set_self _ _ _) rfl
  · exact OpensDone.untouched h hnone ⟨rfl, rfl⟩

theorem initialDelivery_untouched : Ensures (O.initialDelivery v) (Untouched s) s := by
  unfold Ensures Orchestrator.initialDelivery
  dsimp only
  split
  · unfold Orchestrator.selectedTerminalForInitialDelivery
    rw [wp_bind, wp_findSelection]
    split
    · exact ⟨rfl, rfl⟩
    · simp only [wp_bind, wp_ofExcept]
      exact ⟨fun _ _ => ⟨rfl, rfl⟩, fun _ _ => ⟨rfl, rfl⟩⟩
  · exact ⟨rfl, rfl⟩

theorem afterCapabilities_opens {p : PreparedCall} {capabilities : ModelCapabilities}
    (hp : PreparedIn O p) (h : LedgerInv O outcomes s.ledger) (hnone : s.appended = none) :
    wp (O.afterCapabilities clock p capabilities) (OpensTo O outcomes s)
      (fun _ => OpensDone O outcomes s) s := by
  unfold Orchestrator.afterCapabilities
  simp only [wp_bind, wp_ofExcept]
  refine ⟨fun config _ => ⟨fun v hv => ?_, fun _ _ => ?_⟩, fun _ _ => ?_⟩
  · have hprepared : v.prepared = p := by
      unfold identify at hv
      simp only [bind_eq_ok] at hv
      obtain ⟨_, -, hv⟩ := hv
      cases hv
      rfl
    refine wp_mono (initialDelivery_untouched) (fun selected s' hs' => ?_)
      fun _ s' hs' => OpensDone.untouched h hnone hs'
    cases selected with
    | some terminal => exact OpensDone.untouched h hnone hs'
    | none =>
      have hopen := openAttempt_opens clock (hprepared ▸ hp) (hs'.1 ▸ h) (hs'.2.trans hnone)
      have hopens : ∀ s'', Opens O outcomes s' s'' → Opens O outcomes s s'' := fun s'' h'' =>
        ⟨h''.inv, hs'.1 ▸ h''.grows, h''.appended⟩
      refine wp_mono hopen (fun progress s'' h'' => ?_) fun _ s'' h'' =>
        ⟨hopens s'' h''.toOpens, h''.stored⟩
      cases progress with
      | returned terminal => exact ⟨hopens s'' h''.toOpens, h''.stored⟩
      | awaits phase => exact ⟨hopens s'' h''.1, h''.2⟩
  · exact OpensDone.untouched h hnone ⟨rfl, rfl⟩
  · exact OpensDone.untouched h hnone ⟨rfl, rfl⟩

variable {opened : OpenAttempt}

variable (O outcomes opened) in
/-- A section keeps the ledger in order, and has left a terminal where it is handled. -/
def Leaves (handled : Prop) (s s' : Section) : Prop :=
  KeepsLedger O outcomes s s' ∧ (handled → Records O outcomes opened.intent.inferenceId s s')

variable (h : LedgerInv O outcomes s.ledger)
include h

theorem recordOutcome_leaves (hopen : OpenIn O s.ledger opened) {o : AttemptOutcome}
    (ho : O.Recordable outcomes opened.intent.request o) (handled : Prop) :
    Ensures (O.recordOutcome clock opened o) (Leaves O outcomes opened handled s) s :=
  (recordOutcome_records h hopen ho).mono fun _ hs' => ⟨hs'.toKeepsLedger, fun _ => hs'⟩

/-- The text of an exception can be recorded. -/
def Raised.HasDetail (exc : Raised) : Prop := ∃ detail, exceptionDetail exc = .ok detail

theorem recordRaised_leaves (hopen : OpenIn O s.ledger opened) {status : InferenceStatus}
    (hstatus : status ≠ .succeeded) (code : NonEmptyString) (exc : Raised) :
    Ensures (O.recordRaised clock opened status code exc)
      (Leaves O outcomes opened exc.HasDetail s) s := by
  unfold Ensures Orchestrator.recordRaised
  rw [wp_bind, wp_ofExcept]
  refine ⟨fun detail _ => recordOutcome_leaves h hopen (localFailure_recordable hstatus) _,
    fun e he => ⟨KeepsLedger.untouched h ⟨rfl, rfl⟩, ?_⟩⟩
  rintro ⟨detail, hdetail⟩
  rw [hdetail] at he
  cases he

omit h in
theorem Leaves.mono {handled handled' : Prop} {s' : Section}
    (hs' : Leaves O outcomes opened handled s s') (himp : handled' → handled) :
    Leaves O outcomes opened handled' s s' :=
  ⟨hs'.1, fun hhandled => hs'.2 (himp hhandled)⟩

/-- A handler is there for the exception and can record it. -/
def Raised.Handled (exc : Raised) : Prop :=
  exc.kind ≠ .baseException ∧ (exc.kind = .cancelled ∨ exc.HasDetail)

/-- What the handlers around the gate and around the adapter leave. -/
theorem afterRaised_leaves (hopen : OpenIn O s.ledger opened) (exc : Raised) :
    Ensures (O.afterGateRaised clock opened exc) (Leaves O outcomes opened exc.Handled s) s ∧
      Ensures (O.afterAdapterRaised clock opened exc)
        (Leaves O outcomes opened exc.Handled s) s := by
  unfold Orchestrator.afterGateRaised Orchestrator.afterAdapterRaised
  cases hkind : exc.kind with
  | cancelled =>
    have hfailed {code detail} : Ensures (O.recordOutcome clock opened
        (localFailure .cancelled code detail .retryable)) _ s :=
      recordOutcome_leaves h hopen (localFailure_recordable (fun h => by cases h)) exc.Handled
    unfold Ensures
    simp only [wp_bind]
    exact ⟨hfailed, hfailed⟩
  | timeout | exception =>
    have hdetail : exc.Handled → exc.HasDetail := fun hhandled => hhandled.2.resolve_left (by
      rw [hkind]
      decide)
    exact ⟨(recordRaised_leaves h hopen (fun h => by cases h) _ exc).mono fun _ hs' =>
        hs'.mono hdetail,
      (recordRaised_leaves h hopen (fun h => by cases h) _ exc).mono fun _ hs' =>
        hs'.mono hdetail⟩
  | baseException =>
    have hraised : Leaves O outcomes opened exc.Handled s s :=
      ⟨KeepsLedger.untouched h ⟨rfl, rfl⟩, fun hhandled => absurd hkind hhandled.1⟩
    exact ⟨hraised, hraised⟩

/-- A settled member of a batch records every exception that has a text. -/
theorem afterSharedRaised_leaves (hopen : OpenIn O s.ledger opened) (exc : Raised) :
    Ensures (O.afterSharedRaised clock opened exc)
      (Leaves O outcomes opened (exc.kind = .cancelled ∨ exc.HasDetail) s) s := by
  unfold Orchestrator.afterSharedRaised
  cases hkind : exc.kind with
  | cancelled =>
    exact recordOutcome_leaves h hopen (localFailure_recordable (fun h => by cases h)) _
  | timeout | exception | baseException =>
    refine (recordRaised_leaves h hopen (fun h => by cases h) _ exc).mono fun _ hs' =>
      hs'.mono fun hhandled => hhandled.resolve_left ?_
    decide

end Sections

section Answers

variable {O : Orchestrator} {outcomes : List (VisionInferenceRequest × AdapterOutcome)}
  {s : Section} {clock : Clock} {opened : OpenAttempt}

/-- The answer can be read, a failure does not say that it is a success, and the schema check of a
payload that is reached ends with a verdict. -/
def Orchestrator.PayloadDecided (O : Orchestrator) (request : VisionInferenceRequest) :
    AdapterOutcome → Prop
  | .unreadable _ => False
  | .failure o => o.status ≠ .succeeded
  | .success o => outcomeIdentityError o.provider o.modelName o.modelVersion request = none →
      envelopeError o.normalizedOutput request = none →
      ∀ compiled, O.schemas request.outputSchema = .ok compiled →
        ∀ e, compiled.validate o.normalizedOutput.payload ≠ .raises e
  | _ => True

theorem judge_of_decided {request : VisionInferenceRequest} {outcome : AdapterOutcome}
    (hschema : ∃ compiled, O.schemas request.outputSchema = .ok compiled)
    (hdecided : O.PayloadDecided request outcome) : ∃ o, O.judge request outcome = .ok o := by
  cases outcome with
  | unsupported => exact ⟨_, rfl⟩
  | unreadable exc => exact hdecided.elim
  | failure given =>
    simp only [judge]
    split <;> exact ⟨_, rfl⟩
  | success given =>
    obtain ⟨compiled, hcompiled⟩ := hschema
    simp only [judge]
    split
    · exact ⟨_, rfl⟩
    rename_i hidentity
    split
    · exact ⟨_, rfl⟩
    rename_i henvelope
    rw [hcompiled, ok_bind]
    split
    · exact ⟨_, rfl⟩
    · rename_i hraises
      exact absurd hraises (hdecided hidentity henvelope compiled hcompiled _)
    · exact ⟨_, rfl⟩

theorem afterOutcome_leaves (h : LedgerInv O outcomes s.ledger) (hopen : OpenIn O s.ledger opened)
    {outcome : AdapterOutcome} (hmem : (opened.intent.request, outcome) ∈ outcomes) :
    Ensures (O.afterOutcome clock opened outcome)
      (Leaves O outcomes opened (O.PayloadDecided opened.intent.request outcome) s) s := by
  unfold Ensures Orchestrator.afterOutcome
  simp only [wp_bind, wp_ofExcept]
  refine ⟨fun o ho => recordOutcome_leaves h hopen (judge_recordable hmem ho) _,
    fun e he => ⟨KeepsLedger.untouched h ⟨rfl, rfl⟩, fun hdecided => ?_⟩⟩
  obtain ⟨o, ho⟩ := judge_of_decided hopen.schema hdecided
  rw [ho] at he
  cases he

/-- A wakeup that the handlers of `orchestrate` are made for. -/
def Orchestrator.Handled (O : Orchestrator) : CallPhase → Wakeup → Prop
  | .awaitingGate _, .raised exc => exc.Handled
  | .awaitingAdapter _, .raised exc => exc.Handled
  | .awaitingAdapter _, .settled (.error exc) => exc.kind = .cancelled ∨ exc.HasDetail
  | .awaitingAdapter opened, .answered outcome => O.PayloadDecided opened.intent.request outcome
  | .awaitingAdapter opened, .settled (.ok outcome) =>
    O.PayloadDecided opened.intent.request outcome
  | _, _ => True

/-- The attempt that a call waits for. -/
def CallPhase.opened? : CallPhase → Option OpenAttempt
  | .awaitingCapabilities _ => none
  | .awaitingGate opened | .awaitingAdapter opened => some opened

variable (O outcomes opened) in
/-- The outcome of the section of an open attempt. -/
def ResumesTo (handled : Prop) (s : Section) (progress : Progress) (s' : Section) : Prop :=
  KeepsLedger O outcomes s s' ∧ match progress with
  | .returned _ => handled → Records O outcomes opened.intent.inferenceId s s'
  | .awaits phase => phase = .awaitingAdapter opened

theorem resume_opened {phase : CallPhase} {wakeup : Wakeup} {body : SectionMethod Progress}
    (hphase : phase.opened? = some opened) (hbody : O.resume clock phase wakeup = some body)
    (h : LedgerInv O outcomes s.ledger) (hopen : OpenIn O s.ledger opened)
    (hsub : answersOf phase wakeup ⊆ outcomes) :
    wp body (ResumesTo O outcomes opened (O.Handled phase wakeup) s)
      (fun _ => Leaves O outcomes opened (O.Handled phase wakeup) s) s := by
  cases phase with
  | awaitingCapabilities p => cases hphase
  | awaitingGate opened' =>
    cases hphase
    cases wakeup <;> simp only [resume, Option.some.injEq, reduceCtorEq] at hbody
    · subst hbody
      exact ⟨KeepsLedger.untouched h ⟨rfl, rfl⟩, rfl⟩
    · subst hbody
      rw [wp_map]
      exact (afterRaised_leaves h hopen _).1
  | awaitingAdapter opened' =>
    cases hphase
    cases wakeup <;> simp only [resume, Option.some.injEq, reduceCtorEq] at hbody
    · subst hbody
      rw [wp_map]
      exact afterOutcome_leaves h hopen (hsub (List.mem_singleton.mpr rfl))
    · rename_i result
      subst hbody
      rw [wp_map]
      unfold Orchestrator.afterSettled
      cases result <;> simp only [wp_bind]
      · exact afterSharedRaised_leaves h hopen _
      · exact afterOutcome_leaves h hopen (hsub (List.mem_singleton.mpr rfl))
    · subst hbody
      rw [wp_map]
      exact (afterRaised_leaves h hopen _).2

end Answers

/-! ## Every run -/

section Runs

variable {O : Orchestrator}

/-- What holds of a call between two events.  `finished` says that it has left a terminal. -/
structure CallInv (O : Orchestrator) (l : InMemoryInferenceLedger) (c : OrchestratedCall) :
    Prop where
  prepared : ∀ p, c.state = .waiting (.awaitingCapabilities p) → PreparedIn O p ∧ c.appended = none
  opened : ∀ phase opened, c.state = .waiting phase → phase.opened? = some opened →
    OpenIn O l opened ∧ c.appended = some opened.intent
  appended : ∀ i, c.appended = some i → l.intents.get? i.inferenceId = some i

/-- A call that has ended has left a terminal for the attempt whose intent it appended. -/
def LeavesTerminal (l : InMemoryInferenceLedger) (c : OrchestratedCall) : Prop :=
  ∀ result, c.state = .ended result → ∀ i, c.appended = some i →
    (l.terminals.get? i.inferenceId).isSome = true

/-- The invariant of the loop. -/
structure WorldInv (O : Orchestrator) (w : OrchestratorWorld) : Prop where
  ledger : LedgerInv O w.outcomes w.ledger
  calls : ∀ c ∈ w.calls, CallInv O w.ledger c

variable {c : OrchestratedCall}

theorem CallInv.grows {l l' : InMemoryInferenceLedger}
    (h : CallInv O l c) (hgrows : LedgerGrows l l') : CallInv O l' c where
  prepared := h.prepared
  opened phase opened hstate hphase :=
    ⟨(h.opened phase opened hstate hphase).1.grows hgrows, (h.opened phase opened hstate hphase).2⟩
  appended i hi := hgrows.intents (h.appended i hi)

theorem LeavesTerminal.grows {l l' : InMemoryInferenceLedger}
    (h : LeavesTerminal l c) (hgrows : LedgerGrows l l') : LeavesTerminal l' c := by
  intro result hstate i hi
  obtain ⟨t, ht⟩ := Option.isSome_iff_exists.mp (h result hstate i hi)
  exact Option.isSome_iff_exists.mpr ⟨t, hgrows.terminals ht⟩

theorem CallInv.of_ended {l : InMemoryInferenceLedger}
    {result : Except OrchestrationError CallResult} (hstate : c.state = .ended result)
    (happended : ∀ i, c.appended = some i → l.intents.get? i.inferenceId = some i) :
    CallInv O l c where
  prepared p hp := by
    rw [hstate] at hp
    cases hp
  opened phase opened hphase := by
    rw [hstate] at hphase
    cases hphase
  appended := happended

/-- What a section leaves behind: the ledger is in order, and so is the call. -/
structure SectionDone (O : Orchestrator)
    (outcomes : List (VisionInferenceRequest × AdapterOutcome)) (l : InMemoryInferenceLedger)
    (handled : Prop) (r : OrchestratedCall × InMemoryInferenceLedger) : Prop where
  inv : LedgerInv O outcomes r.2
  grows : LedgerGrows l r.2
  call : CallInv O r.2 r.1
  leaves : handled → LeavesTerminal r.2 r.1

variable {outcomes : List (VisionInferenceRequest × AdapterOutcome)} {l : InMemoryInferenceLedger}
  {c : OrchestratedCall} {phase : CallPhase} {wakeup : Wakeup} {body : SectionMethod Progress}

theorem runSection_prepared {p : PreparedCall} (h : LedgerInv O outcomes l)
    (hc : CallInv O l c) (hstate : c.state = .waiting (.awaitingCapabilities p))
    (hbody : O.resume c.clock (.awaitingCapabilities p) wakeup = some body) (handled : Prop) :
    SectionDone O outcomes l handled (O.runSection l c body) := by
  obtain ⟨hp, hnone⟩ := hc.prepared p hstate
  have hopens : wp body (OpensTo O outcomes ⟨l, c.ticks, c.selection, c.appended⟩)
      (fun _ => OpensDone O outcomes ⟨l, c.ticks, c.selection, c.appended⟩)
      ⟨l, c.ticks, c.selection, c.appended⟩ := by
    cases wakeup <;> simp only [resume, Option.some.injEq, reduceCtorEq] at hbody
    · subst hbody
      exact afterCapabilities_opens hp h hnone
    · subst hbody
      exact OpensDone.untouched h hnone ⟨rfl, rfl⟩
  unfold runSection
  unfold wp at hopens
  cases hrun : body ⟨l, c.ticks, c.selection, c.appended⟩ with
  | mk result s' =>
    rw [hrun] at hopens
    cases result with
    | error e =>
      exact ⟨hopens.inv, hopens.grows, CallInv.of_ended rfl hopens.appended,
        fun _ _ _ => hopens.stored⟩
    | ok progress =>
      cases progress with
      | returned terminal =>
        exact ⟨hopens.inv, hopens.grows, CallInv.of_ended rfl hopens.appended,
          fun _ _ _ => hopens.stored⟩
      | awaits phase =>
        obtain ⟨hopens, opened, rfl, hopen, happended⟩ := hopens
        refine ⟨hopens.inv, hopens.grows, ⟨(fun _ hphase => (by cases hphase)),
          fun phase opened' hphase hopened => ?_, hopens.appended⟩,
          fun _ _ hphase => (by cases hphase)⟩
        cases hphase
        cases hopened
        exact ⟨hopen, happended⟩

theorem runSection_opened {opened : OpenAttempt} (h : LedgerInv O outcomes l)
    (hc : CallInv O l c) (hstate : c.state = .waiting phase)
    (hphase : phase.opened? = some opened) (hbody : O.resume c.clock phase wakeup = some body)
    (hsub : answersOf phase wakeup ⊆ outcomes) :
    SectionDone O outcomes l (O.Handled phase wakeup) (O.runSection l c body) := by
  obtain ⟨hopen, happended⟩ := hc.opened phase opened hstate hphase
  have hresumes := resume_opened (s := ⟨l, c.ticks, c.selection, c.appended⟩) hphase hbody h hopen
    hsub
  have hintent : ∀ {s' : Section},
      KeepsLedger O outcomes ⟨l, c.ticks, c.selection, c.appended⟩ s' →
      ∀ i, s'.appended = some i → i = opened.intent ∧
        s'.ledger.intents.get? i.inferenceId = some i := fun hs' i hi => by
    rw [hs'.appended, happended] at hi
    cases hi
    exact ⟨rfl, hs'.grows.intents hopen.intent⟩
  unfold runSection
  unfold wp at hresumes
  cases hrun : body ⟨l, c.ticks, c.selection, c.appended⟩ with
  | mk result s' =>
    rw [hrun] at hresumes
    have hdone : KeepsLedger O outcomes ⟨l, c.ticks, c.selection, c.appended⟩ s' →
        (O.Handled phase wakeup → Records O outcomes opened.intent.inferenceId
          ⟨l, c.ticks, c.selection, c.appended⟩ s') → ∀ ended,
        SectionDone O outcomes l (O.Handled phase wakeup) ({ c with
          ticks := s'.ticks, selection := s'.selection, appended := s'.appended,
          state := .ended ended }, s'.ledger) := fun hkeeps hstored ended =>
      ⟨hkeeps.inv, hkeeps.grows, CallInv.of_ended rfl fun i hi => (hintent hkeeps i hi).2,
        fun hhandled _ _ i hi => by
          rw [(hintent hkeeps i hi).1]
          exact (hstored hhandled).stored⟩
    cases result with
    | error e => exact hdone hresumes.1 hresumes.2 _
    | ok progress =>
      obtain ⟨hkeeps, hresumes⟩ := hresumes
      cases progress with
      | returned terminal => exact hdone hkeeps hresumes _
      | awaits phase' =>
        refine ⟨hkeeps.inv, hkeeps.grows, ⟨?_, ?_, fun i hi => (hintent hkeeps i hi).2⟩,
          fun _ _ hphase => (by cases hphase)⟩
        · intro p hp
          cases hresumes
          cases hp
        · rintro phase opened' hphase' hopened
          cases hphase'
          cases hresumes
          cases hopened
          exact ⟨hopen.grows hkeeps.grows, hkeeps.appended.trans happended⟩

theorem runSection_done (h : LedgerInv O outcomes l) (hc : CallInv O l c)
    (hstate : c.state = .waiting phase) (hbody : O.resume c.clock phase wakeup = some body)
    (hsub : answersOf phase wakeup ⊆ outcomes) :
    SectionDone O outcomes l (O.Handled phase wakeup) (O.runSection l c body) := by
  cases phase with
  | awaitingCapabilities p => exact runSection_prepared h hc hstate hbody _
  | awaitingGate opened | awaitingAdapter opened =>
    exact runSection_opened h hc hstate rfl hbody hsub

/-- The event is handled: a waiting call with an open attempt is not reached by a base exception or
by an exception without a text that is recorded, and its answer is one that is decided. -/
def Orchestrator.HandledIn (O : Orchestrator) (w : OrchestratorWorld) : OrchestratorEvent → Prop
  | .call .. => True
  | .wake index wakeup => ∀ c phase, w.calls[index]? = some c → c.state = .waiting phase →
      O.Handled phase wakeup

variable {w : OrchestratorWorld}

/-- No failure that was given says that it is a success. -/
def OrchestratorWorld.Honest (w : OrchestratorWorld) : Prop :=
  ∀ request given, (request, AdapterOutcome.failure given) ∈ w.outcomes → given.status ≠ .succeeded

structure StepDone (O : Orchestrator) (w w' : OrchestratorWorld) (handled : Prop) : Prop where
  inv : WorldInv O w'
  grows : LedgerGrows w.ledger w'.ledger
  honest : handled → w.Honest → w'.Honest
  leaves : handled → (∀ c ∈ w.calls, LeavesTerminal w.ledger c) →
    ∀ c ∈ w'.calls, LeavesTerminal w'.ledger c

theorem StepDone.refl (h : WorldInv O w) (handled : Prop) : StepDone O w w handled :=
  ⟨h, .refl _, fun _ hhonest => hhonest, fun _ hleaves => hleaves⟩

theorem answersOf_honest {phase : CallPhase} {wakeup : Wakeup} (h : O.Handled phase wakeup)
    {request : VisionInferenceRequest} {given : VisionInferenceFailure}
    (hmem : (request, AdapterOutcome.failure given) ∈ answersOf phase wakeup) :
    given.status ≠ .succeeded := by
  unfold answersOf at hmem
  split at hmem
  all_goals simp only [List.mem_singleton, List.not_mem_nil, Prod.mk.injEq] at hmem
  all_goals
    obtain ⟨-, rfl⟩ := hmem
    exact h

theorem newCall_inv {entry : Entry} {a : OrchestrateArguments} {clock : Clock} :
    CallInv O l (O.newCall entry a clock) ∧ LeavesTerminal l (O.newCall entry a clock) := by
  unfold newCall
  cases hprepare : O.prepare a with
  | error e => exact ⟨.of_ended rfl fun _ hi => (by cases hi), fun _ _ _ hi => (by cases hi)⟩
  | ok prepared =>
    refine ⟨⟨fun p hp => ?_, fun phase opened hstate hopened => ?_, fun _ hi => (by cases hi)⟩,
      fun _ _ _ hi => (by cases hi)⟩
    · cases hp
      exact ⟨(prepare_prepared hprepare).1, rfl⟩
    · cases hstate
      cases hopened

theorem next_done (h : WorldInv O w) (e : OrchestratorEvent) :
    StepDone O w (O.next w e) (O.HandledIn w e) := by
  cases e with
  | call entry arguments clock =>
    refine ⟨⟨h.ledger, ?_⟩, .refl _, fun _ hhonest => hhonest, fun _ hleaves => ?_⟩
    · exact List.forall_mem_append.mpr ⟨h.calls, List.forall_mem_singleton.mpr newCall_inv.1⟩
    · exact List.forall_mem_append.mpr ⟨hleaves, List.forall_mem_singleton.mpr newCall_inv.2⟩
  | wake index wakeup =>
    simp only [Orchestrator.next]
    split
    · exact StepDone.refl h _
    rename_i c hfind
    split
    · exact StepDone.refl h _
    rename_i phase hstate
    split
    · exact StepDone.refl h _
    rename_i body hbody
    have hmem : c ∈ w.calls := List.mem_of_getElem? hfind
    have hdone := runSection_done
      (h.ledger.mono (List.subset_append_left _ (answersOf phase wakeup)))
      (h.calls c hmem) hstate hbody (List.subset_append_right _ _)
    refine ⟨⟨hdone.inv, fun d hd => ?_⟩, hdone.grows,
      fun hhandled hhonest request given hgiven => ?_, fun hhandled hleaves d hd => ?_⟩
    · rcases List.mem_or_eq_of_mem_set hd with hd | rfl
      · exact (h.calls d hd).grows hdone.grows
      · exact hdone.call
    · rcases List.mem_append.mp hgiven with hold | hnew
      · exact hhonest request given hold
      · exact answersOf_honest (hhandled c phase hfind hstate) hnew
    · rcases List.mem_or_eq_of_mem_set hd with hd | rfl
      · exact (hleaves d hd).grows hdone.grows
      · exact hdone.leaves (hhandled c phase hfind hstate)

theorem worldInv_initial (O : Orchestrator) : WorldInv O .initial :=
  ⟨ledgerInv_empty O, fun _ hc => (by cases hc)⟩

/-- Every event of a run is handled. -/
def Orchestrator.AllHandled (O : Orchestrator) (w : OrchestratorWorld) :
    List OrchestratorEvent → Prop
  | [] => True
  | e :: events => O.HandledIn w e ∧ O.AllHandled (O.next w e) events

theorem run_done (events : List OrchestratorEvent) :
    ∀ {w : OrchestratorWorld}, WorldInv O w →
      StepDone O w (events.foldl O.next w) (O.AllHandled w events) := by
  induction events with
  | nil => exact fun h => StepDone.refl h _
  | cons e events ih =>
    intro w h
    have hfirst := next_done h e
    have hrest := ih hfirst.inv
    exact ⟨hrest.inv, hfirst.grows.trans hrest.grows,
      fun hhandled hhonest => hrest.honest hhandled.2 (hfirst.honest hhandled.1 hhonest),
      fun hhandled hleaves => hrest.leaves hhandled.2 (hfirst.leaves hhandled.1 hleaves)⟩

end Runs

/-! ## The history -/

/-- The attempt identity of a terminal is the one of its intent. -/
structure SameAttempt (t : ModelInference) (i : InferenceIntent) : Prop where
  inferenceId : t.inferenceId = i.inferenceId
  logicalInvocationId : t.logicalInvocationId = i.logicalInvocationId
  requestId : t.requestId = i.requestId
  idempotencyKey : t.idempotencyKey = i.idempotencyKey
  attempt : t.attempt = i.attempt
  retryCount : t.retryCount = i.retryCount
  shadow : t.shadow = i.shadow

/-- The schema reference that a terminal repeats. -/
def ModelInference.outputSchema (t : ModelInference) : JsonSchemaRef :=
  ⟨t.outputSchemaId, t.outputSchemaVersion, t.outputSchemaArtifactId, t.outputSchemaSha256⟩

/-- A terminal is the success that an adapter gave for the request of its intent and that matches
it. -/
def SuccessMatches (O : Orchestrator) (w : OrchestratorWorld) (id : OpaqueUuid)
    (t : ModelInference) : Prop :=
  ∃ i given, w.ledger.intents.get? id = some i ∧ (i.request, .success given) ∈ w.outcomes ∧
    O.Matches i.request given ∧ t = terminalOf i t.startedAt t.completedAt (acceptedOutput given)

/-- What holds of the records of a world. -/
structure HistoryHolds (O : Orchestrator) (w : OrchestratorWorld) : Prop where
  intent : ∀ id t, w.ledger.terminals.get? id = some t → t.inferenceId = id ∧
    ∃ i, w.ledger.intents.get? id = some i ∧ SameAttempt t i
  success : ∀ id t, w.ledger.terminals.get? id = some t → t.outputValid = true →
    SuccessMatches O w id t
  selection : ∀ L P s, w.ledger.selections.get? (L, P) = some s →
    s.logicalInvocationId = L ∧ s.policyVersion = P ∧
    ∃ t payload, w.ledger.terminals.get? s.inferenceId = some t ∧ t.status = .succeeded ∧
      t.outputValid = true ∧ t.shadow = false ∧ t.logicalInvocationId = L ∧
      t.normalizedOutput = some payload ∧ O.SchemaAccepts t.outputSchema payload
  selected : ∀ id t, w.ledger.terminals.get? id = some t → t.status = .succeeded →
    t.outputValid = true → t.shadow = false → ∃ policy, O.policies t.stage = some policy ∧
      ∃ s, w.ledger.selections.get? (t.logicalInvocationId, policy.selectionPolicyVersion) = some s

theorem policies_of_policy {O : Orchestrator} {task : VisionTask} {policy : InferencePolicy}
    (h : O.policy task = .ok policy) : O.policies task = some policy := by
  unfold Orchestrator.policy at h
  split at h
  · cases h
  · rename_i found hfound
    split at h
    · cases h
      exact hfound
    · cases h

theorem WorldInv.holds {O : Orchestrator} {w : OrchestratorWorld} (h : WorldInv O w) :
    HistoryHolds O w where
  intent id t ht := by
    obtain ⟨i, hi, _, _, _, rfl, _⟩ := h.ledger.terminals ht
    exact ⟨h.ledger.intents hi, i, hi, rfl, rfl, rfl, rfl, rfl, rfl, rfl⟩
  success id t ht hvalid := by
    obtain ⟨i, hi, hterminal⟩ := h.ledger.terminals ht
    obtain ⟨startedAt, completedAt, given, rfl, hmem, hmatches⟩ := hterminal.accepted hvalid
    exact ⟨i, given, hi, hmem, hmatches, rfl⟩
  selection L P s hs := by
    obtain ⟨t, ht, hsel, hkey, heq⟩ := h.ledger.selections hs
    obtain ⟨rfl, rfl⟩ := Prod.mk.inj hkey
    obtain ⟨i, hi, hterminal⟩ := h.ledger.terminals ht
    obtain ⟨_, _, given, hterm, -, hmatches⟩ := hterminal.accepted (outputValid_of_isSelectable hsel)
    unfold isSelectable at hsel
    simp only [Bool.and_eq_true, beq_iff_eq, Bool.not_eq_eq_eq_not] at hsel
    refine ⟨by rw [heq]; rfl, rfl, t, given.normalizedOutput.payload, ht, hsel.1.2, hsel.2,
      hsel.1.1, rfl, by rw [hterm]; rfl, ?_⟩
    rw [hterm]
    exact hmatches.schema
  selected id t ht hstatus hvalid hshadow := by
    have hsel : isSelectable t = true := by
      simp [isSelectable, hstatus, hvalid, hshadow]
    obtain ⟨policy, hpolicy, hsome⟩ := h.ledger.selected ht hsel
    exact ⟨policy, policies_of_policy hpolicy, Option.isSome_iff_exists.mp hsome⟩

/-- Where no failure says that it is a success, a terminal is a success only for a match. -/
theorem WorldInv.successMatches {O : Orchestrator} {w : OrchestratorWorld} (h : WorldInv O w)
    (hhonest : w.Honest) {id : OpaqueUuid} {t : ModelInference}
    (ht : w.ledger.terminals.get? id = some t) (hstatus : t.status = .succeeded) :
    SuccessMatches O w id t := by
  apply h.holds.success id t ht
  obtain ⟨i, hi, startedAt, completedAt, o, rfl, hrec⟩ := h.ledger.terminals ht
  rcases hrec with ⟨-, hgiven⟩ | ⟨given, -, -, rfl⟩
  · obtain ⟨given, hmem, hlies⟩ := hgiven hstatus
    exact absurd hlies (hhonest _ given hmem)
  · rfl

namespace SampleOrchestrator

def schemaRef : JsonSchemaRef := ⟨"schema", "1", "schema artifact", "schema digest"⟩

def policy : InferencePolicy where
  policyVersion := "1"
  task := .qaCoarse
  provider := "qwen"
  modelName := "model"
  modelVersion := "1"
  adapterVersion := "1"
  promptVersion := "1"
  promptArtifactId := "prompt"
  promptSha256 := "prompt digest"
  outputSchema := schemaRef
  enrichedOutputSchema := none
  generationConfig := []
  timeoutMs := 1000
  selectionPolicyVersion := "1"
  requiredInputMode := .image
  requiredMediaTypes := []
  requiredDataHandlingPolicyVersion := none

def capabilities : ModelCapabilities where
  snapshotId := "snapshot"
  snapshotDigest := "snapshot digest"
  provider := "qwen"
  modelName := "model"
  modelVersion := "1"
  supportedTasks := [.qaCoarse]
  inputModes := [.image]
  acceptedMediaTypes := []
  maxImagesPerRequest := none
  maxPixelsPerImage := none
  maxPayloadBytes := none
  maxInputTokens := none
  supportsJsonSchema := true
  dataHandlingPolicyVersion := "1"

/-- Different attempts have different digests. -/
def hashing : OrchestrationHashing where
  canonical _ := true
  semanticSha256
    | .packages _ => "packages"
    | .logicalInvocation _ => "invocation"
    | .attempt _ attempt _ _ => String.ofList (List.replicate attempt 'a')
    | .selection _ _ => "selection"
  uuid5 := id

/-- An orchestrator whose schema says the same of every payload. -/
def orchestrator (verdict : SchemaVerdict) : Orchestrator where
  hashing := hashing
  policies task := if task = .qaCoarse then some policy else none
  adapters provider := if provider = "qwen" then some "qwen" else none
  schemas _ := .ok ⟨fun _ => verdict⟩

def arguments (attempt : Nat) : OrchestrateArguments where
  task := .qaCoarse
  packageSetId := none
  mcapId := "mcap"
  cameraMappingRunId := "mapping"
  alignmentId := "alignment"
  startNs := 0
  endNs := 1
  packageInputs := [⟨"package", "content", "manifest", "primary", 0⟩]
  renderedInputDigest := some "rendered"
  inputPlan := none
  inputPlanPartOrdinal := none
  inputConfig := []
  logicalDependencySha256 := none
  samplingConfig := []
  metadata := []
  attempt := attempt
  retryCount := 0
  shadow := false
  experimentId := none
  shadowRouteId := none
  primaryInferenceId := none

/-- A clock that shows the same time whenever it is read. -/
def stopped (time : Rfc3339Timestamp) : Clock := ⟨fun _ => time, fun _ => le_refl time⟩

def answer : VisionInferenceSuccess where
  providerRequestId := "provider request"
  provider := "qwen"
  modelName := "model"
  modelVersion := "1"
  normalizedOutput := ⟨.qaCoarse, schemaRef, "packages", none, none, none, []⟩
  rawOutputArtifactId := "raw"
  reportedConfidence := none
  usage := ⟨1, 1, none, none, none, none⟩
  latencyMs := 1

/-- One call from its first to its last event. -/
def wholeCall (index : Nat) : List OrchestratorEvent :=
  [.call .orchestrate (arguments 1) (stopped 0), .wake index (.capabilities capabilities),
    .wake index .acquired, .wake index (.answered (.success answer))]

/-- What `jsonschema` raises for a reference that cannot be resolved. -/
def unresolvable : OrchestrationError :=
  .configuration "schema dependency is not locally resolvable for schema@1: other"

end SampleOrchestrator

end Robata.Orchestration
