import Robata.Retrieval.IndexQuery

/-!
# Replaying a projection

A projection that was accepted stays acceptable: its revisions, its decisions and its memberships
are never taken away.  Applying it again makes its selections anew, which leaves histories and
current revisions alone but writes the last decision of the projection into the membership of each
revision it selects.  The replay changes nothing exactly when that decision is already there.
-/

namespace Robata.Retrieval

open Contracts Lib List

/-- The same index, but for the selections that its memberships name. -/
structure Resembles (s s' : EventIndex) : Prop where
  revisions : s'.revisions = s.revisions
  byEvent : s'.byEvent = s.byEvent
  current : s'.current = s.current
  selections : s'.selections = s.selections
  selectionById : s'.selectionById = s.selectionById
  keys : s'.memberships.rows.map Prod.fst = s.memberships.rows.map Prod.fst
  values : ∀ key m, s.memberships.get? key = some m → ∃ m', s'.memberships.get? key = some m' ∧
    (m'.eventId, m'.eventRevisionId, m'.revisionSemanticSha256) =
      (m.eventId, m.eventRevisionId, m.revisionSemanticSha256)

namespace Resembles

variable {s s' s'' : EventIndex}

theorem refl (s : EventIndex) : Resembles s s :=
  ⟨rfl, rfl, rfl, rfl, rfl, rfl, fun _ m hm => ⟨m, hm, rfl⟩⟩

theorem trans (h : Resembles s s') (h' : Resembles s' s'') : Resembles s s'' where
  revisions := h'.revisions.trans h.revisions
  byEvent := h'.byEvent.trans h.byEvent
  current := h'.current.trans h.current
  selections := h'.selections.trans h.selections
  selectionById := h'.selectionById.trans h.selectionById
  keys := h'.keys.trans h.keys
  values := by
    intro key m hm
    obtain ⟨m', hm', hsame⟩ := h.values key m hm
    obtain ⟨m'', hm'', hsame'⟩ := h'.values key m' hm'
    exact ⟨m'', hm'', hsame'.trans hsame⟩

theorem setMembership {key : String × String} {m m' : EventIndexMembership}
    (hm : s.memberships.get? key = some m)
    (hsame : (m'.eventId, m'.eventRevisionId, m'.revisionSemanticSha256) =
      (m.eventId, m.eventRevisionId, m.revisionSemanticSha256)) :
    Resembles s { s with memberships := s.memberships.set key m' } where
  revisions := rfl
  byEvent := rfl
  current := rfl
  selections := rfl
  selectionById := rfl
  keys := Dict.keys_set _ _ hm
  values := by
    intro k q hq
    simp only [Dict.get?_set]
    split
    · rename_i hk
      subst hk
      cases hm.symm.trans hq
      exact ⟨m', rfl, hsame⟩
    · exact ⟨q, hq, rfl⟩

/-- The sequence of a selection follows from its decision, so that two consistent indexes with
the same decisions are the same. -/
theorem eq_of_decisionAt (h : Resembles s s') (inv : IndexInv s) (inv' : IndexInv s')
    (hdecisions : ∀ key, s'.decisionAt key = s.decisionAt key) : s' = s := by
  have hmemberships : s'.memberships = s.memberships := by
    refine Dict.ext_keys h.keys fun key => ?_
    cases hm : s.memberships.get? key with
    | none =>
      cases hm' : s'.memberships.get? key with
      | none => rfl
      | some m' =>
        -- the key would be among the keys of both
        have hmem : key ∈ s.memberships.rows.map Prod.fst :=
          h.keys ▸ mem_map.mpr ⟨(key, m'), Dict.get?_eq_some_iff.mp hm', rfl⟩
        obtain ⟨⟨k, m⟩, hrow, rfl⟩ := mem_map.mp hmem
        rw [Dict.get?_eq_some_iff.mpr hrow] at hm
        cases hm
    | some m =>
      obtain ⟨m', hm', hsame⟩ := h.values key m hm
      have hdecision := hdecisions key
      simp only [EventIndex.decisionAt, hm, hm', Option.bind_some] at hdecision
      have hsequence : m'.selectionSequence = m.selectionSequence := by
        cases hd : m.selectionDecisionId with
        | none =>
          rw [hd] at hdecision
          rw [inv.unselected key m hm hd, inv'.unselected key m' hm' hdecision]
        | some d =>
          rw [hd] at hdecision
          obtain ⟨n, hfacts, hn⟩ := inv.selected key m d hm hd
          obtain ⟨n', hfacts', hn'⟩ := inv'.selected key m' d hm' hdecision
          rw [h.selectionById] at hfacts'
          cases hfacts.symm.trans hfacts'
          rw [hn, hn']
      cases m'
      simp_all
  cases s
  cases s'
  simp only [EventIndex.mk.injEq]
  exact ⟨h.revisions, h.byEvent, h.current, h.selections, h.selectionById, hmemberships⟩

end Resembles

section Replays

variable {s : EventIndex} (services : IndexServices)

theorem applyProjectedRevision_again {revision : JsonValue} {fields : JsonObject}
    {nested : Option JsonObject} (hsplit : splitRow revision = .ok (fields, nested))
    (h : RowSettled services revision s) :
    ∃ m, applyProjectedRevision services fields s = (.ok m, s) := by
  obtain ⟨fields', nested', row, hsplit', hrow, ⟨r, hr, hevent, hdigest⟩, m, hm, hsame⟩ := h
  cases hsplit.symm.trans hsplit'
  refine ⟨m, ?_⟩
  have hstore : storeRevision true row s = (.ok (), s) := by
    simp [storeRevision, Method.bind_eq_ok, hr, raiseIndexIf, hevent, hdigest]
  have hfile : fileMembership row s = (.ok m, s) := by
    simp only [fileMembership, Method.bind_eq_ok, raiseIndexIf, Method.self_eq_ok,
      Method.raiseIf_eq_ok, Method.assign_eq_ok, Method.pure_eq_ok]
    refine ⟨s, s, ⟨rfl, rfl⟩, (), s, ⟨by simp [hm, hsame], rfl⟩, (), s, ?_, by simp [hm], rfl⟩
    rw [hm, Option.getD_some, Dict.set_self hm]
  simp only [applyProjectedRevision, Method.bind_eq_ok, Method.ofExcept_eq_ok]
  exact ⟨row, s, ⟨hrow, rfl⟩, (), s, hstore, hfile⟩

theorem applyRows_again {revisions : List JsonValue}
    (h : ∀ revision ∈ revisions, RowSettled services revision s) :
    ∃ found, applyRows services revisions s = (.ok found, s) := by
  induction revisions with
  | nil => exact ⟨([], []), rfl⟩
  | cons revision rest ih =>
    obtain ⟨found, hrest⟩ := ih fun r hr => h r (mem_cons_of_mem _ hr)
    obtain ⟨fields, nested, _, hsplit, _⟩ := h revision mem_cons_self
    obtain ⟨m, happly⟩ :=
      applyProjectedRevision_again services hsplit (h revision mem_cons_self)
    refine ⟨(nested.toList ++ found.1, m :: found.2), ?_⟩
    simp only [applyRows, Method.bind_eq_ok, Method.ofExcept_eq_ok]
    exact ⟨(fields, nested), s, ⟨hsplit, rfl⟩, m, s, happly, found, s, hrest, rfl⟩

/-- A selection that is settled writes its decision into the membership, and nothing else. -/
theorem applySelection_again {value : JsonValue} {selection : ProjectedSelection}
    (hread : readSelection value = .ok selection) (h : SelectionSettled selection s) :
    ∃ m s', applySelection value s = (.ok m, s') ∧ Resembles s s' := by
  obtain ⟨r, hr, hevent⟩ := h.owned
  obtain ⟨n, hn, hsequence⟩ := h.known
  obtain ⟨m, hm⟩ := h.filed
  have hselect : applyIdempotentSelection selection s = (.ok n, s) := by
    have hsame : (!selection.sequence.isNull && !selection.sequence.equalsInt n) = false := by
      rcases hsequence with h | h <;> simp [h]
    simp [applyIdempotentSelection, Method.bind_eq_ok, raiseIndexIf, hr, hevent, hn, hsame]
  have hupdated : ((selectedMembership selection n s).eventId,
      (selectedMembership selection n s).eventRevisionId,
      (selectedMembership selection n s).revisionSemanticSha256) =
      (m.eventId, m.eventRevisionId, m.revisionSemanticSha256) := by
    unfold selectedMembership
    rw [show s.memberships.get? (selection.eventId, selection.revisionId) = some m from hm]
    rfl
  refine ⟨selectedMembership selection n s, _, ?_, Resembles.setMembership hm hupdated⟩
  simp only [applySelection, Method.bind_eq_ok, Method.ofExcept_eq_ok, Method.self_eq_ok, Method.pure_eq_ok]
  exact ⟨selection, s, ⟨hread, rfl⟩, n, s, hselect, s, s, ⟨rfl, rfl⟩, (), _, rfl, rfl, rfl⟩

theorem applySelections_again {values : List JsonValue} :
    ∀ {s : EventIndex}, IndexInv s →
      (∀ value ∈ values, ∃ selection, readSelection value = .ok selection ∧
        SelectionSettled selection s) →
      ∃ updated s', applySelections values s = (.ok updated, s') ∧ Resembles s s' := by
  induction values with
  | nil => exact fun {s} _ _ => ⟨[], s, rfl, .refl s⟩
  | cons value rest ih =>
    intro s inv h
    obtain ⟨selection, hread, hsettled⟩ := h value mem_cons_self
    obtain ⟨m, s₁, happly, hsame⟩ := applySelection_again hread hsettled
    -- the others stay settled, since the index only grows
    obtain ⟨_, _, hdecides, _⟩ :=
      (Method.wp_iff.mp (applySelection_decides inv value)).1 _ _ happly
    have hothers : ∀ v ∈ rest, ∃ selection, readSelection v = .ok selection ∧
        SelectionSettled selection s₁ := by
      intro v hv
      obtain ⟨other, hv, hsettled⟩ := h v (mem_cons_of_mem _ hv)
      exact ⟨other, hv, hsettled.mono hdecides.toIndexGrows⟩
    obtain ⟨updated, s₂, hrest, hsame'⟩ := ih hdecides.inv hothers
    refine ⟨m :: updated, s₂, ?_, hsame.trans hsame'⟩
    simp only [applySelections, Method.bind_eq_ok, Method.pure_eq_ok]
    exact ⟨m, s₁, happly, updated, s₂, hrest, rfl, rfl⟩

theorem touchedMemberships_completes {pending : List EventIndexMembership}
    (h : ∀ m ∈ pending, ∃ m', s.memberships.get? (m.eventId, m.eventRevisionId) = some m') :
    ∃ answer, touchedMemberships pending s = .ok answer := by
  refine (mapM_completes (R := fun _ _ => True) fun key hkey => ?_).imp fun _ h => h.1
  rw [mem_mergeSort, mem_dedup, mem_map] at hkey
  obtain ⟨m, hm, rfl⟩ := hkey
  obtain ⟨m', hm'⟩ := h m hm
  exact ⟨m', by rw [hm'], trivial⟩

theorem applyProjection_again {projection : JsonObject} (inv : IndexInv s)
    (h : ProjectionSettled services projection s) :
    ∃ answer s', applyProjection services projection s = (.ok answer, s') ∧ Resembles s s' := by
  obtain ⟨revisions, selections, hread, hrows, hselections⟩ := h
  obtain ⟨found, hfound⟩ := applyRows_again services hrows
  obtain ⟨_, hnested, _, hreceipts⟩ :=
    (Method.wp_iff.mp (applyRows_settles services revisions inv)).1 _ _ hfound
  obtain ⟨updated, s', hupdated, hsame⟩ := applySelections_again inv hselections
  obtain ⟨hdecides, _, hkeyed⟩ :=
    (Method.wp_iff.mp (applySelections_decides _ inv)).1 _ _ hupdated
  obtain ⟨answer, hanswer⟩ : ∃ answer, touchedMemberships (found.2 ++ updated) s' = .ok answer :=
    touchedMemberships_completes fun m hm => by
      rcases mem_append.mp hm with hm | hm
      · obtain ⟨m', hm'⟩ := hreceipts m hm
        obtain ⟨m'', hm'', _⟩ := hdecides.memberships _ _ hm'
        exact ⟨m'', hm''⟩
      · exact hkeyed m hm
  refine ⟨answer, s', ?_, hsame⟩
  simp only [applyProjection, Method.bind_eq_ok, Method.ofExcept_eq_ok, restoring_eq_ok,
    applyProjectionBody, Method.self_eq_ok]
  exact ⟨(revisions, selections), s, ⟨hread, rfl⟩, found, s, hfound, updated, s',
    hnested ▸ hupdated, s', s', ⟨rfl, rfl⟩, hanswer, rfl⟩

/-- The replay changes nothing exactly when every selected revision already carries the decision
that the projection gives it last. -/
theorem applyProjection_idle_iff {projection : JsonObject} (inv : IndexInv s)
    (h : ProjectionSettled services projection s) :
    (∃ answer, applyProjection services projection s = (.ok answer, s)) ↔
      ∀ key d, lastDecision (projectedSelections services projection) key = some d →
        s.decisionAt key = some d := by
  constructor
  · rintro ⟨answer, hidle⟩ key d hd
    obtain ⟨hdecides, _⟩ := applyProjection_settles services inv hidle
    rw [hdecides.at_key, hd, Option.some_or]
  · intro hcurrent
    obtain ⟨answer, s', hagain, hsame⟩ := applyProjection_again services inv h
    obtain ⟨hdecides, _⟩ := applyProjection_settles services inv hagain
    have heq : s' = s := by
      refine hsame.eq_of_decisionAt inv hdecides.inv fun key => ?_
      rw [hdecides.at_key]
      cases hd : lastDecision (projectedSelections services projection) key with
      | none => rfl
      | some d => rw [Option.some_or, hcurrent key d hd]
    exact ⟨answer, heq ▸ hagain⟩

end Replays

/-! ## Runs -/

/-- The calls that write an index. -/
inductive IndexCall
  | applyProjection (projection : JsonObject)
  | updateIndex (eventRevision : JsonObject) (select : Option Bool)
  | selectRevision (eventId revisionId decisionId : String) (sequence : JsonValue)

section Runs

variable (services : IndexServices)

/-- The index that a call leaves, whether it returns or raises. -/
def callIndex : IndexCall → EventIndex → EventIndex
  | .applyProjection projection, s => (applyProjection services projection s).2
  | .updateIndex eventRevision select, s => (updateIndex services eventRevision select s).2
  | .selectRevision eventId revisionId decisionId sequence, s =>
    (selectRevision eventId revisionId decisionId sequence s).2

def indexAfter (calls : List IndexCall) : EventIndex :=
  calls.foldl (fun s call => callIndex services call s) .empty

def acceptedProjection (call : IndexCall) (s : EventIndex) : List JsonObject :=
  match call with
  | .applyProjection projection =>
    if (applyProjection services projection s).1.isOk then [projection] else []
  | _ => []

/-- The projections that a list of calls gets accepted, in order. -/
def acceptedFrom : List IndexCall → EventIndex → List JsonObject
  | [], _ => []
  | call :: rest, s =>
    acceptedProjection services call s ++ acceptedFrom rest (callIndex services call s)

def accepted (calls : List IndexCall) : List JsonObject := acceptedFrom services calls .empty

/-- Every selection of the projection names its sequence. -/
def ExplicitSequences (projection : JsonObject) : Prop :=
  ∀ selection ∈ projectedSelections services projection, selection.sequence.isNull = false

/-- Every accepted projection is accepted again and changes nothing. -/
def ReplaysAreIdle (calls : List IndexCall) : Prop :=
  ∀ projection ∈ accepted services calls, ExplicitSequences services projection →
    ∃ answer, applyProjection services projection (indexAfter services calls) =
      (.ok answer, indexAfter services calls)

/-- At every point of a run replays are idle, and a projection that raises changes nothing. -/
def ProjectionsAreIdempotent (calls : List IndexCall) : Prop :=
  ∀ front, front <+: calls → ReplaysAreIdle services front ∧
    ∀ projection e s', applyProjection services projection (indexAfter services front) =
      (.error e, s') → s' = indexAfter services front

/-- A later projection gives the revisions that both select the same decision last. -/
def SelectsAlike (earlier later : JsonObject) : Prop :=
  ExplicitSequences services earlier → ∀ key d d',
    lastDecision (projectedSelections services earlier) key = some d →
    lastDecision (projectedSelections services later) key = some d' → d = d'

/-- The decision that a revision got last from a list of projections. -/
def lastAccepted (projections : List JsonObject) (key : String × String) : Option String :=
  projections.foldl
    (fun found p => (lastDecision (projectedSelections services p) key).or found) none

/-! ## What a run keeps -/

theorem callIndex_grows (call : IndexCall) (s : EventIndex) (inv : IndexInv s) :
    IndexGrows s (callIndex services call s) ∧ IndexInv (callIndex services call s) ∧
      (∀ projection ∈ acceptedProjection services call s,
        ProjectionSettled services projection (callIndex services call s)) ∧
      ∀ key, (callIndex services call s).decisionAt key =
        (acceptedProjection services call s).foldl
          (fun found p => (lastDecision (projectedSelections services p) key).or found)
          (s.decisionAt key) := by
  -- a call that touches no membership
  have hquiet : ∀ {s' : EventIndex}, KeepsMemberships s s' →
      IndexGrows s s' ∧ IndexInv s' ∧ ∀ key, s'.decisionAt key = s.decisionAt key := by
    intro s' h
    refine ⟨h.toIndexGrows, inv.keeps h, fun key => ?_⟩
    unfold EventIndex.decisionAt
    rw [h.same]
  cases call with
  | updateIndex eventRevision select =>
    obtain ⟨hgrows, hinv, hsame⟩ :=
      hquiet (KeepsIndex.updateIndex services eventRevision select).after.toKeepsMemberships
    exact ⟨hgrows, hinv, forall_mem_nil _, hsame⟩
  | selectRevision eventId revisionId decisionId sequence =>
    obtain ⟨hgrows, hinv, hsame⟩ :=
      hquiet (KeepsIndex.selectRevision eventId revisionId decisionId
        sequence).after.toKeepsMemberships
    exact ⟨hgrows, hinv, forall_mem_nil _, hsame⟩
  | applyProjection projection =>
    rcases hrun : applyProjection services projection s with ⟨e | answer, s'⟩
    · -- the index is restored
      have hrestored := applyProjection_restores services hrun
      subst hrestored
      simp only [callIndex, acceptedProjection, hrun]
      exact ⟨.refl s', inv, forall_mem_nil _, fun _ => rfl⟩
    · obtain ⟨hdecides, hsettled⟩ := applyProjection_settles services inv hrun
      simp only [callIndex, acceptedProjection, hrun]
      refine ⟨hdecides.toIndexGrows, hdecides.inv, fun q hq => ?_, hdecides.at_key⟩
      cases mem_singleton.mp hq
      exact hsettled

theorem accepted_append (calls : List IndexCall) (call : IndexCall) :
    accepted services (calls ++ [call]) = accepted services calls ++
      acceptedProjection services call (indexAfter services calls) := by
  have hfrom : ∀ s, acceptedFrom services (calls ++ [call]) s = acceptedFrom services calls s ++
      acceptedProjection services call
        (calls.foldl (fun s call => callIndex services call s) s) := by
    induction calls with
    | nil => simp [acceptedFrom]
    | cons first rest ih => simp [acceptedFrom, ih]
  exact hfrom .empty

theorem indexAfter_append (calls : List IndexCall) (call : IndexCall) :
    indexAfter services (calls ++ [call]) = callIndex services call (indexAfter services calls) := by
  simp [indexAfter]

/-- Along a run the accepted projections stay settled, and every membership names the decision
that its revision got last. -/
theorem run_settles (calls : List IndexCall) :
    IndexInv (indexAfter services calls) ∧
      (∀ projection ∈ accepted services calls,
        ProjectionSettled services projection (indexAfter services calls)) ∧
      ∀ key, (indexAfter services calls).decisionAt key =
        lastAccepted services (accepted services calls) key := by
  induction calls using reverseRecOn with
  | nil => exact ⟨indexInv_empty, forall_mem_nil _, fun _ => rfl⟩
  | append_singleton calls call ih =>
    obtain ⟨inv, hsettled, hdecisions⟩ := ih
    obtain ⟨hgrows, inv', hnew, hsame⟩ := callIndex_grows services call _ inv
    rw [indexAfter_append, accepted_append]
    refine ⟨inv', forall_mem_append.mpr ⟨fun projection hp => ?_, hnew⟩, fun key => ?_⟩
    · exact (hsettled projection hp).mono hgrows
    · rw [hsame, hdecisions, lastAccepted, lastAccepted, foldl_append]

theorem callIndex_keepsOwned (call : IndexCall) (s : EventIndex) :
    KeepsOwned s (callIndex services call s) := by
  cases call with
  | applyProjection projection => exact (KeepsOwned.applyProjection services projection).after
  | updateIndex eventRevision select =>
    exact (KeepsIndex.updateIndex services eventRevision select).after.toKeepsOwned
  | selectRevision eventId revisionId decisionId sequence =>
    exact (KeepsIndex.selectRevision eventId revisionId decisionId sequence).after.toKeepsOwned

/-- Whatever calls have written an index, those that raised included, every query completes and
returns no revision twice. -/
theorem queries_complete (calls : List IndexCall) (query : RetrievalQuery) :
    ∃ result, queryIndex services query (indexAfter services calls) = .ok result ∧
      (result.items.map (·.eventRevisionId)).Nodup := by
  have howned : IndexOwned (indexAfter services calls) := by
    induction calls using reverseRecOn with
    | nil => exact indexOwned_empty
    | append_singleton calls call ih =>
      rw [indexAfter_append]
      exact (callIndex_keepsOwned services call _).keeps ih
  obtain ⟨matching, hmatching, hnodup⟩ :=
    howned.matchingItems_completes services query.toRetrievalRequest
  refine ⟨_, by rw [queryIndex, hmatching]; rfl, ?_⟩
  exact hnodup.sublist (((take_sublist _ _).trans (drop_sublist _ _)).map _)

theorem replaysAreIdle_iff (calls : List IndexCall) :
    ReplaysAreIdle services calls ↔
      ∀ projection ∈ accepted services calls, ExplicitSequences services projection →
        ∀ key d, lastDecision (projectedSelections services projection) key = some d →
          lastAccepted services (accepted services calls) key = some d := by
  obtain ⟨inv, hsettled, hdecisions⟩ := run_settles services calls
  refine forall₃_congr fun projection hp _ => ?_
  rw [applyProjection_idle_iff services inv (hsettled projection hp)]
  simp only [hdecisions]

/-- One more call keeps replays idle exactly when the projection it gets accepted selects alike. -/
theorem replaysAreIdle_append {calls : List IndexCall} {call : IndexCall}
    (h : ReplaysAreIdle services calls) :
    ReplaysAreIdle services (calls ++ [call]) ↔
      ∀ p ∈ accepted services calls,
        ∀ q ∈ acceptedProjection services call (indexAfter services calls),
          SelectsAlike services p q := by
  rw [replaysAreIdle_iff] at h
  rw [replaysAreIdle_iff, accepted_append]
  -- a call gets one projection accepted, or none
  have hnew : acceptedProjection services call (indexAfter services calls) = [] ∨
      ∃ q, acceptedProjection services call (indexAfter services calls) = [q] := by
    unfold acceptedProjection
    split
    · split
      · exact .inr ⟨_, rfl⟩
      · exact .inl rfl
    · exact .inl rfl
  rcases hnew with hnew | ⟨q, hnew⟩
  · rw [hnew, append_nil]
    exact iff_of_true h fun _ _ _ hq => absurd hq not_mem_nil
  · rw [hnew]
    have hlast : ∀ key, lastAccepted services (accepted services calls ++ [q]) key =
        (lastDecision (projectedSelections services q) key).or
          (lastAccepted services (accepted services calls) key) := by
      intro key
      rw [lastAccepted, foldl_append]
      rfl
    simp only [hlast, mem_singleton, forall_eq]
    constructor
    · intro hidle p hp hexplicit key d d' hd hd'
      have hfound := hidle p (mem_append_left _ hp) hexplicit key d hd
      rw [hd'] at hfound
      exact (Option.some.inj hfound).symm
    · intro halike p hp hexplicit key d hd
      rcases mem_append.mp hp with hp | hp
      · cases hd' : lastDecision (projectedSelections services q) key with
        | none => rw [Option.none_or, h p hp hexplicit key d hd]
        | some d' => rw [Option.some_or, halike p hp hexplicit key d d' hd hd']
      · rw [mem_singleton.mp hp] at hd
        rw [hd, Option.some_or]

theorem replays_idle_throughout_iff (calls : List IndexCall) :
    (∀ front, front <+: calls → ReplaysAreIdle services front) ↔
      (accepted services calls).Pairwise (SelectsAlike services) := by
  induction calls using reverseRecOn with
  | nil =>
    refine iff_of_true (fun front hfront => ?_) List.Pairwise.nil
    rw [prefix_nil.mp hfront]
    exact forall_mem_nil _
  | append_singleton calls call ih =>
    have hprefixes : (∀ front, front <+: calls ++ [call] → ReplaysAreIdle services front) ↔
        (∀ front, front <+: calls → ReplaysAreIdle services front) ∧
          ReplaysAreIdle services (calls ++ [call]) := by
      constructor
      · exact fun h => ⟨fun front hfront => h front (hfront.trans (prefix_append _ _)),
          h _ prefix_rfl⟩
      · rintro ⟨hcalls, hall⟩ front hfront
        rcases prefix_concat_iff.mp hfront with rfl | hfront
        · exact hall
        · exact hcalls front hfront
    have hsingle : (acceptedProjection services call (indexAfter services calls)).Pairwise
        (SelectsAlike services) := by
      unfold acceptedProjection
      split
      · split
        · exact pairwise_singleton _ _
        · exact .nil
      · exact .nil
    rw [hprefixes, accepted_append, pairwise_append, ← ih]
    constructor
    · rintro ⟨hcalls, hall⟩
      have hidle := hcalls calls prefix_rfl
      exact ⟨hcalls, hsingle, (replaysAreIdle_append services hidle).mp hall⟩
    · rintro ⟨hcalls, _, hcross⟩
      have hidle := hcalls calls prefix_rfl
      exact ⟨hcalls, (replaysAreIdle_append services hidle).mpr hcross⟩

/-- Replaying accepted projections is a no-op throughout a run exactly when no projection that the
run accepts later selects a revision by another decision. -/
theorem projections_idempotent_exact (calls : List IndexCall) :
    ProjectionsAreIdempotent services calls ↔
      (accepted services calls).Pairwise (SelectsAlike services) := by
  rw [← replays_idle_throughout_iff]
  constructor
  · exact fun h front hfront => (h front hfront).1
  · intro h front hfront
    exact ⟨h front hfront, fun _ _ _ hraise => applyProjection_restores services hraise⟩

end Runs

/-! ## A revision that is selected again -/

namespace SampleIndex

/-- Digests that spell the revision. -/
def services : IndexServices where
  semanticSha256 fields := .ok ((JsonObject.getD fields "event_revision_id").asText?.getD "")
  casefold text := text
  upper text := text
  batchProjection projection := .ok projection
  revisionProjection projection := .ok projection

def row (revisionId : String) : JsonValue :=
  .object [("event_id", .text "event"), ("event_revision_id", .text revisionId),
    ("mcap_id", .text "recording"), ("start_ns", .int 0), ("end_ns", .int 10)]

def selection (revisionId decisionId : String) (sequence : Int) : JsonValue :=
  .object [("event_id", .text "event"), ("selected_revision_id", .text revisionId),
    ("selection_decision_id", .text decisionId), ("selection_sequence", .int sequence)]

def projection (rows selections : List JsonValue) : JsonObject :=
  [("event_revisions", .list rows), ("current_selections", .list selections)]

/-- The first revision is selected. -/
def first : JsonObject := projection [row "one"] [selection "one" "decision 1" 1]

/-- It is superseded, and selected again. -/
def calls : List IndexCall :=
  [.applyProjection first,
    .applyProjection (projection [row "two"] [selection "two" "decision 2" 2]),
    .applyProjection (projection [] [selection "one" "decision 3" 3])]

end SampleIndex

open SampleIndex in
/-- The replay of the first projection is accepted and puts its decision back into the
membership. -/
theorem replay_changes_membership : ¬ ProjectionsAreIdempotent services calls := by
  intro h
  have haccepted : first ∈ accepted services calls := by
    have hok : (applyProjection services first .empty).1.isOk = true := by decide +kernel
    apply mem_append_left
    simp [acceptedProjection, hok]
  have hexplicit : ExplicitSequences services first := by
    unfold ExplicitSequences
    decide +kernel
  obtain ⟨answer, hidle⟩ := (h calls prefix_rfl).1 first haccepted hexplicit
  have hdecision : (applyProjection services first (indexAfter services calls)).2.decisionAt
      ("event", "one") = (indexAfter services calls).decisionAt ("event", "one") := by
    rw [hidle]
  exact absurd hdecision (by decide +kernel)

end Robata.Retrieval
