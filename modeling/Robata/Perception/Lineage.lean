import Robata.Perception.Tracking

/-!
# What reconciliation does to the lineage of a track

A round of `reconcile` either extends one track of the prior set or creates a
track under the key of its hypothesis.  `Reconciled` is the invariant of the
loop: every hypothesis so far has its own track, and every other track is the
prior one.  It holds as long as the hypotheses are new, because the key of a
created track is then not taken; a hypothesis that was reconciled before is
created again under the key of the track it began, and replaces that track.
-/

namespace Robata.Perception

open Contracts Lib Relation List
open KeyedTable (find?_upsert key_of_find? mem_of_find? mem_rows_iff)

variable {H : Hashing}

/-- The states of a track that the next projection may continue. -/
def EventTrackState.isLive : EventTrackState → Bool
  | opened | updated => true
  | candidate | closed | finalized => false

namespace EventTrackRevision

/-- The keys of the hypotheses a track is made of. -/
def sourceKeys (track : EventTrackRevision H) : List NodeLogicalKey :=
  track.sourceHypotheses.map (·.hypothesisLogicalKey)

/-- The interval of a track is the hull of its source intervals. -/
structure IsHull (track : EventTrackRevision H) : Prop where
  covers : ∀ item ∈ track.sourceHypotheses,
    track.interval.startNs ≤ item.interval.startNs ∧ item.interval.endNs ≤ track.interval.endNs
  starts : ∃ item ∈ track.sourceHypotheses, item.interval.startNs = track.interval.startNs
  ends : ∃ item ∈ track.sourceHypotheses, item.interval.endNs = track.interval.endNs

theorem identity_valid (track : EventTrackRevision H) :
    track.eventTrackKey = eventTrackKeyOf (eventTrackIdentitySha256FromValues H track.identity) ∧
      track.identitySeedHypothesisLogicalKey ∈ track.sourceKeys := by
  have hvalid := track.valid
  simp only [validateRevision, reject_bind_eq_ok_iff, Bool.or_eq_false_iff,
    bne_eq_false_iff_eq, Bool.not_eq_false', any_eq_true, Bool.and_eq_true,
    beq_iff_eq] at hvalid
  obtain ⟨_, _, _, _, _, _, _, _, _, _, ⟨item, hitem, hkey, _⟩, ⟨⟨_, hidentity⟩, _⟩, _⟩ := hvalid
  refine ⟨hidentity, ?_⟩
  rw [← hkey]
  exact mem_map_of_mem hitem

end EventTrackRevision

/-! ## Single revisions -/

/-- The revision right after `parent`. -/
structure NextRevision (parent child : EventTrackRevision H) : Prop where
  key : child.eventTrackKey = parent.eventTrackKey
  index : child.revisionIndex = parent.revisionIndex + 1
  digest : child.parentRevisionSemanticSha256 = some parent.revisionSemanticSha256

/-- The chain of parent digests of `later` leads back to `earlier`. -/
def Descends : EventTrackRevision H → EventTrackRevision H → Prop := TransGen NextRevision

variable {t : EventTrackRevision H}

theorem Descends.index_lt {p : EventTrackRevision H} (h : Descends p t) :
    p.revisionIndex < t.revisionIndex := by
  induction h with
  | single hnext | tail _ hnext ih =>
    have hindex := hnext.index
    omega

theorem buildTrackRevision_spec {values : TrackFields} (h : buildTrackRevision values = .ok t) :
    t.toTrackFields = values := by
  unfold buildTrackRevision at h
  simp only at h
  split at h
  · cases h
  · cases h
    rfl

variable {track : EventTrackRevision H}

theorem transitionTrack_spec {change : TrackTransition} (h : transitionTrack track change = .ok t) :
    NextRevision track t ∧ t.state = change.state ∧
      t.interval = change.interval.getD track.interval ∧
      t.sourceHypotheses =
        (change.sourceHypotheses.filter fun items => !items.isEmpty).getD track.sourceHypotheses ∧
      t.continuesAfterContext = change.continuesAfterContext.getD track.continuesAfterContext := by
  have hfields := buildTrackRevision_spec h
  refine ⟨⟨?_, ?_, ?_⟩, ?_, ?_, ?_, ?_⟩ <;> rw [hfields]

theorem openEventTrack_spec (h : openEventTrack track = .ok t) :
    track.state = .candidate ∧ NextRevision track t ∧ t.state = .opened ∧
      t.interval = track.interval ∧ t.sourceHypotheses = track.sourceHypotheses := by
  unfold openEventTrack at h
  split at h
  · cases h
  · rename_i hstate
    obtain ⟨hnext, hopened, hinterval, hsources, _⟩ := transitionTrack_spec h
    exact ⟨not_not.mp hstate, hnext, hopened, hinterval, hsources⟩

theorem closeEventTrack_spec (h : closeEventTrack track = .ok t) :
    NextRevision track t ∧ t.state = .closed ∧ t.interval = track.interval ∧
      t.sourceHypotheses = track.sourceHypotheses := by
  unfold closeEventTrack at h
  split at h
  · cases h
  · obtain ⟨hnext, hclosed, hinterval, hsources, _⟩ := transitionTrack_spec h
    exact ⟨hnext, hclosed, hinterval, hsources⟩

theorem updateEventTrack_spec {hypothesis : EventHypothesis H}
    (h : updateEventTrack track hypothesis = .ok t) :
    track.state.isActive = true ∧ NextRevision track t ∧ t.state = .updated ∧
      t.interval = track.interval.hull hypothesis.interval ∧
      t.continuesAfterContext = hypothesis.continuesAfterContext ∧
      ∀ item, item ∈ t.sourceHypotheses ↔
        item = hypothesisReference hypothesis ∨ item ∈ track.sourceHypotheses := by
  unfold updateEventTrack at h
  simp only at h
  split at h
  · cases h
  split at h
  · cases h
  split at h
  · cases h
  · rename_i hactive _ _
    obtain ⟨hnext, hupdated, hinterval, hsources, hcontinues⟩ := transitionTrack_spec h
    refine ⟨by simpa using hactive, hnext, hupdated, hinterval, hcontinues, ?_⟩
    intro item
    -- the list of sources is never empty: the new hypothesis is on it
    have hkept : ∀ items : List EventHypothesisReference, items ≠ [] →
        ((some items).filter fun items => !items.isEmpty).getD track.sourceHypotheses = items := by
      intro items hne
      cases items with
      | nil => exact absurd rfl hne
      | cons item rest => rfl
    rw [hsources, hkept, mem_insertionSort, mem_append, mem_singleton]
    · tauto
    · intro hnil
      have hlength := congrArg List.length hnil
      simp at hlength

theorem createCandidateTrack_spec {hypothesis : EventHypothesis H} {policy : EventTrackPolicy}
    (h : createCandidateTrack hypothesis policy = .ok t) :
    t.eventTrackKey = eventTrackKeyOf
        (eventTrackIdentitySha256FromValues H (candidateIdentity hypothesis policy)) ∧
      t.state = .candidate ∧ t.interval = hypothesis.interval ∧
      t.sourceHypotheses = [hypothesisReference hypothesis] ∧
      t.continuesAfterContext = hypothesis.continuesAfterContext := by
  have hfields := buildTrackRevision_spec h
  refine ⟨?_, ?_, ?_, ?_, ?_⟩ <;> rw [hfields]

/-- The last step of a round keeps the sources and the interval, and leaves the
track live exactly when it continues. -/
theorem openOrClose_spec (h : openOrClose track = .ok t)
    (hstate : track.state = .candidate ∨ track.state = .updated) :
    ReflTransGen NextRevision track t ∧ t.eventTrackKey = track.eventTrackKey ∧
      t.interval = track.interval ∧ t.sourceHypotheses = track.sourceHypotheses ∧
      t.state.isLive = track.continuesAfterContext := by
  unfold openOrClose at h
  split at h
  · rename_i hcontinues
    rw [hcontinues]
    split at h
    · obtain ⟨_, hnext, hopened, hinterval, hsources⟩ := openEventTrack_spec h
      exact ⟨.single hnext, hnext.key, hinterval, hsources, by rw [hopened]; rfl⟩
    · rename_i hne
      cases h
      refine ⟨.refl, rfl, rfl, rfl, ?_⟩
      rw [hstate.resolve_left hne]
      rfl
  · rename_i hends
    obtain ⟨hnext, hclosed, hinterval, hsources⟩ := closeEventTrack_spec h
    have hfalse : track.continuesAfterContext = false := by simpa using hends
    refine ⟨.single hnext, hnext.key, hinterval, hsources, ?_⟩
    rw [hclosed, hfalse]
    rfl

/-! ## The loop over the hypotheses -/

/-- The key of the track a hypothesis would begin. -/
def candidateKey (policy : EventTrackPolicy) (hypothesis : EventHypothesis H) : NodeLogicalKey :=
  eventTrackKeyOf (eventTrackIdentitySha256FromValues H (candidateIdentity hypothesis policy))

/-- The track a hypothesis has been given: an active track of the prior set,
extended by the hypothesis, or a new one. -/
structure Assigned (policy : EventTrackPolicy) (prior : TrackTable H)
    (hypothesis : EventHypothesis H) (track : EventTrackRevision H) : Prop where
  origin :
    (∃ p, prior.find? track.eventTrackKey = some p ∧ p.state.isActive = true ∧
      Descends p track ∧ track.interval = p.interval.hull hypothesis.interval ∧
      ∀ item, item ∈ track.sourceHypotheses ↔
        item = hypothesisReference hypothesis ∨ item ∈ p.sourceHypotheses) ∨
    (prior.find? track.eventTrackKey = none ∧ track.eventTrackKey = candidateKey policy hypothesis ∧
      track.interval = hypothesis.interval ∧
      track.sourceHypotheses = [hypothesisReference hypothesis])
  live : track.state.isLive = hypothesis.continuesAfterContext

/-- Invariant of the loop, after the hypotheses `done`. -/
structure Reconciled (policy : EventTrackPolicy) (prior : TrackTable H)
    (done : List (EventHypothesis H)) (s : ReconcileState H) : Prop where
  assigned : List.Forall₂ (fun hypothesis key => ∃ track, s.current.find? key = some track ∧
    Assigned policy prior hypothesis track) done s.usedTrackKeys
  nodup : s.usedTrackKeys.Nodup
  untouched : ∀ key, key ∉ s.usedTrackKeys → s.current.find? key = prior.find? key

/-- The digest tells the track identities of this call apart. -/
def SeparatesIdentities (policy : EventTrackPolicy) (priorTracks : List (EventTrackRevision H))
    (hypotheses : List (EventHypothesis H)) : Prop :=
  ∀ a ∈ priorTracks.map (·.identity) ++
      hypotheses.map (fun hypothesis => candidateIdentity hypothesis policy),
    ∀ b ∈ priorTracks.map (·.identity) ++
        hypotheses.map (fun hypothesis => candidateIdentity hypothesis policy),
      eventTrackIdentitySha256FromValues H a = eventTrackIdentitySha256FromValues H b → a = b

/-- No hypothesis comes twice, and none is a source of a prior track already. -/
structure AllNew (priorTracks : List (EventTrackRevision H))
    (hypotheses : List (EventHypothesis H)) : Prop where
  distinct : (hypotheses.map (·.hypothesisLogicalKey)).Nodup
  unseen : ∀ hypothesis ∈ hypotheses, ∀ track ∈ priorTracks,
    hypothesis.hypothesisLogicalKey ∉ track.sourceKeys

section Loop

variable {policy : EventTrackPolicy} {prior : TrackTable H} {hypotheses : List (EventHypothesis H)}

theorem eventTrackKeyOf_injective {a b : Sha256Digest}
    (h : eventTrackKeyOf a = eventTrackKeyOf b) : a = b :=
  (String.append_right_inj _).mp h

variable {hypothesis : EventHypothesis H}

theorem AllNew.candidateKey_not_prior (hnew : AllNew prior.rows hypotheses)
    (hdigest : SeparatesIdentities policy prior.rows hypotheses)
    (hmem : hypothesis ∈ hypotheses) : prior.find? (candidateKey policy hypothesis) = none := by
  rw [KeyedTable.find?_eq_none_iff]
  intro track htrack hkey
  obtain ⟨hidentity, hseed⟩ := track.identity_valid
  rw [hidentity] at hkey
  have hsame := hdigest _ (mem_append_left _ (mem_map_of_mem htrack)) _
    (mem_append_right _ (mem_map_of_mem hmem)) (eventTrackKeyOf_injective hkey)
  have hfirst : track.identitySeedHypothesisLogicalKey = hypothesis.hypothesisLogicalKey :=
    congrArg TrackIdentity.firstHypothesisLogicalKey hsame
  rw [hfirst] at hseed
  exact hnew.unseen hypothesis hmem track htrack hseed

theorem candidateKey_injective (hdigest : SeparatesIdentities policy prior.rows hypotheses)
    {a b : EventHypothesis H} (ha : a ∈ hypotheses) (hb : b ∈ hypotheses)
    (hkey : candidateKey policy a = candidateKey policy b) :
    a.hypothesisLogicalKey = b.hypothesisLogicalKey := by
  have hsame := hdigest _ (mem_append_right _ (mem_map_of_mem ha)) _
    (mem_append_right _ (mem_map_of_mem hb)) (eventTrackKeyOf_injective hkey)
  exact congrArg TrackIdentity.firstHypothesisLogicalKey hsame

variable {s s' : ReconcileState H}

/-- A round keeps the invariant if it gives the hypothesis a track whose key is
not in use. -/
theorem Reconciled.assign {done : List (EventHypothesis H)}
    {track : EventTrackRevision H} (h : Reconciled policy prior done s)
    (hassigned : Assigned policy prior hypothesis track)
    (hunused : track.eventTrackKey ∉ s.usedTrackKeys)
    (hcurrent : s'.current = s.current.upsert track)
    (hused : s'.usedTrackKeys = s.usedTrackKeys ++ [track.eventTrackKey]) :
    Reconciled policy prior (done ++ [hypothesis]) s' := by
  have hfind : ∀ key, s'.current.find? key =
      if key = track.eventTrackKey then some track else s.current.find? key := by
    intro key
    rw [hcurrent]
    exact s.current.find?_upsert track key
  refine ⟨?_, ?_, ?_⟩
  · rw [hused]
    refine rel_append ?_ (.cons ⟨track, by rw [hfind, if_pos rfl], hassigned⟩ .nil)
    obtain ⟨hlength, hassigned⟩ := forall₂_iff_get.mp h.assigned
    refine forall₂_iff_get.mpr ⟨hlength, ?_⟩
    intro i hi hi'
    have hne : s.usedTrackKeys.get ⟨i, hi'⟩ ≠ track.eventTrackKey := by
      intro heq
      rw [← heq] at hunused
      exact hunused (get_mem _ _)
    rw [hfind, if_neg hne]
    exact hassigned i hi hi'
  · rw [hused, nodup_append]
    refine ⟨h.nodup, nodup_singleton _, ?_⟩
    intro a ha b hb heq
    rw [mem_singleton] at hb
    rw [heq, hb] at ha
    exact hunused ha
  · intro key hkey
    rw [hused, mem_append, mem_singleton, not_or] at hkey
    rw [hfind, if_neg hkey.2]
    exact h.untouched key hkey.1

theorem Reconciled.round {done rest : List (EventHypothesis H)}
    (h : Reconciled policy prior done s) (hnew : AllNew prior.rows (done ++ hypothesis :: rest))
    (hdigest : SeparatesIdentities policy prior.rows (done ++ hypothesis :: rest))
    (hround : reconcileHypothesis policy s hypothesis = .ok s') :
    Reconciled policy prior (done ++ [hypothesis]) s' := by
  have hmem : hypothesis ∈ done ++ hypothesis :: rest :=
    mem_append_right _ mem_cons_self
  unfold reconcileHypothesis at hround
  split at hround
  · rename_i selected hselected
    obtain ⟨next, hupdate, hround⟩ := bind_eq_ok.mp hround
    obtain ⟨settled, hsettle, hround⟩ := bind_eq_ok.mp hround
    cases hround
    have hcandidate : selected ∈ associable policy s hypothesis := by
      have hhead := mem_of_mem_head? hselected
      rwa [mem_insertionSort] at hhead
    rw [associable, mem_filter, Bool.and_eq_true, decide_eq_true_eq] at hcandidate
    obtain ⟨hrow, hunused, _⟩ := hcandidate
    obtain ⟨hactive, hnext, hupdated, hinterval, hcontinues, hsources⟩ :=
      updateEventTrack_spec hupdate
    obtain ⟨hchain, hkey, hinterval', hsources', hlive⟩ :=
      openOrClose_spec hsettle (.inr hupdated)
    have hkeys : settled.eventTrackKey = selected.eventTrackKey := hkey.trans hnext.key
    have hprior : prior.find? selected.eventTrackKey = some selected := by
      rw [← h.untouched _ hunused]
      exact mem_rows_iff.mp hrow
    refine h.assign ⟨.inl ⟨selected, ?_, hactive, ?_, ?_, ?_⟩, ?_⟩ ?_ rfl ?_
    · rw [hkeys]
      exact hprior
    · exact TransGen.trans_left (.single hnext) hchain
    · rw [hinterval', hinterval]
    · intro item
      rw [hsources']
      exact hsources item
    · rw [hlive, hcontinues]
    · rw [hkeys]
      exact hunused
    · rw [hkeys]
  · obtain ⟨next, hcreate, hround⟩ := bind_eq_ok.mp hround
    obtain ⟨settled, hsettle, hround⟩ := bind_eq_ok.mp hround
    cases hround
    obtain ⟨hnextkey, hcandidate, hinterval, hsources, hcontinues⟩ :=
      createCandidateTrack_spec hcreate
    obtain ⟨_, hkey, hinterval', hsources', hlive⟩ := openOrClose_spec hsettle (.inl hcandidate)
    have hkeys : settled.eventTrackKey = candidateKey policy hypothesis := hkey.trans hnextkey
    have hfresh := hnew.candidateKey_not_prior hdigest hmem
    refine h.assign ⟨.inr ⟨?_, hkeys, ?_, ?_⟩, ?_⟩ ?_ rfl ?_
    · rw [hkeys]
      exact hfresh
    · rw [hinterval', hinterval]
    · rw [hsources', hsources]
    · rw [hlive, hcontinues]
    · -- a key in use belongs to a prior track or was derived from another hypothesis
      rw [hkeys]
      intro hused
      obtain ⟨i, hi, hget⟩ := mem_iff_getElem.mp hused
      have hlength := h.assigned.length_eq
      obtain ⟨track, hfind, hassigned⟩ :=
        (forall₂_iff_get.mp h.assigned).2 i (by omega) hi
      simp only [get_eq_getElem, hget] at hfind hassigned
      have htrack := key_of_find? hfind
      rcases hassigned.origin with ⟨p, hp, _⟩ | ⟨_, hsame, _⟩
      · rw [htrack, hfresh] at hp
        cases hp
      · have hearlier : done[i] ∈ done := getElem_mem _
        have heq := candidateKey_injective hdigest (mem_append_left _ hearlier) hmem
          (hsame.symm.trans htrack)
        have hdistinct := hnew.distinct
        rw [map_append, nodup_append] at hdistinct
        exact hdistinct.2.2 _ (mem_map_of_mem hearlier) _ (mem_map_of_mem mem_cons_self) heq
    · rw [hkey]

theorem reconciled_of_foldlM (hnew : AllNew prior.rows hypotheses)
    (hdigest : SeparatesIdentities policy prior.rows hypotheses)
    (hstart : Reconciled policy prior [] s)
    (hloop : hypotheses.foldlM (reconcileHypothesis policy) s = .ok s') :
    Reconciled policy prior hypotheses s' := by
  have hinvariant := foldlM_invariant
    (fun rest t => ∃ done, hypotheses = done ++ rest ∧ Reconciled policy prior done t) ?_
    hypotheses s s' ⟨[], rfl, hstart⟩ hloop
  · obtain ⟨done, hdone, hreconciled⟩ := hinvariant
    rw [append_nil] at hdone
    rw [hdone]
    exact hreconciled
  · intro hypothesis rest t t' hinv hround
    obtain ⟨done, hsplit, hreconciled⟩ := hinv
    subst hsplit
    refine ⟨done ++ [hypothesis], ?_, hreconciled.round hnew hdigest hround⟩
    rw [append_assoc]
    rfl

end Loop

/-! ## The loop that closes the rest -/

/-- What becomes of a track once the hypotheses are reconciled: it is kept if it
was used or has ended before, and closed otherwise. -/
inductive Closing (used : List NodeLogicalKey) (track : EventTrackRevision H) :
    EventTrackRevision H → Prop
  | kept (h : track.eventTrackKey ∈ used ∨ track.state.isActive = false) :
      Closing used track track
  | ended {t : EventTrackRevision H} (unused : track.eventTrackKey ∉ used)
      (active : track.state.isActive = true) (next : NextRevision track t) (state : t.state = .closed)
      (interval : t.interval = track.interval)
      (sources : t.sourceHypotheses = track.sourceHypotheses) : Closing used track t

theorem closeUnused_spec {s s' : ReconcileState H} {track : EventTrackRevision H}
    (h : closeUnused s track = .ok s')
    (hcurrent : s.current.find? track.eventTrackKey = some track) :
    s'.usedTrackKeys = s.usedTrackKeys ∧
      (∃ t, s'.current.find? track.eventTrackKey = some t ∧ Closing s.usedTrackKeys track t) ∧
      ∀ key, key ≠ track.eventTrackKey → s'.current.find? key = s.current.find? key := by
  unfold closeUnused at h
  split at h
  · rename_i hcase
    obtain ⟨settled, hclose, h⟩ := bind_eq_ok.mp h
    cases h
    obtain ⟨hnext, hclosed, hinterval, hsources⟩ := closeEventTrack_spec hclose
    refine ⟨rfl, ⟨settled, ?_, .ended hcase.1 hcase.2 hnext hclosed hinterval hsources⟩, ?_⟩
    · rw [find?_upsert, if_pos hnext.key.symm]
    · intro key hkey
      rw [find?_upsert, if_neg]
      rw [hnext.key]
      exact hkey
  · rename_i hcase
    cases h
    refine ⟨rfl, ⟨track, hcurrent, .kept ?_⟩, fun _ _ => rfl⟩
    by_contra hnot
    rw [not_or, Bool.not_eq_false] at hnot
    exact hcase hnot

theorem closeUnused_loop {s s' : ReconcileState H}
    (h : s.current.rows.foldlM closeUnused s = .ok s') (key : NodeLogicalKey) :
    (s.current.find? key = none → s'.current.find? key = none) ∧
      ∀ track, s.current.find? key = some track →
        ∃ t, s'.current.find? key = some t ∧ Closing s.usedTrackKeys track t := by
  have hloop := foldlM_invariant
    (fun todo (acc : ReconcileState H) => acc.usedTrackKeys = s.usedTrackKeys ∧
      (todo.map (·.eventTrackKey)).Nodup ∧ (∀ track ∈ todo, track ∈ s.current.rows) ∧
      ∀ key, (s.current.find? key = none → acc.current.find? key = none) ∧
        ∀ track, s.current.find? key = some track →
          (track ∈ todo → acc.current.find? key = some track) ∧
          (track ∉ todo → ∃ t, acc.current.find? key = some t ∧ Closing s.usedTrackKeys track t)) ?_
    s.current.rows s s' ⟨rfl, s.current.nodup, fun _ h => h, ?_⟩ h
  · obtain ⟨hnone, hsome⟩ := hloop.2.2.2 key
    exact ⟨hnone, fun track htrack => (hsome track htrack).2 not_mem_nil⟩
  · intro row rest acc acc' hacc hround
    obtain ⟨hused, hnodup, hrows, hall⟩ := hacc
    rw [map_cons, nodup_cons] at hnodup
    have hrow := mem_rows_iff.mp (hrows row mem_cons_self)
    have hcurrent := ((hall row.eventTrackKey).2 row hrow).1 mem_cons_self
    obtain ⟨hused', hclosing, hothers⟩ := closeUnused_spec hround hcurrent
    rw [hused] at hused' hclosing
    refine ⟨hused', hnodup.2, fun track htrack => hrows track (mem_cons_of_mem _ htrack), ?_⟩
    intro k
    obtain ⟨hnone, hsome⟩ := hall k
    by_cases hk : k = row.eventTrackKey
    · subst hk
      refine ⟨fun habsent => absurd hrow (by rw [habsent]; intro h; cases h), ?_⟩
      intro track htrack
      have hsame : track = row := Option.some.inj (htrack.symm.trans hrow)
      subst hsame
      exact ⟨fun hrest => absurd (mem_map_of_mem hrest) hnodup.1, fun _ => hclosing⟩
    · rw [hothers k hk]
      refine ⟨hnone, ?_⟩
      intro track htrack
      have hne : track ≠ row := by
        rintro rfl
        exact hk (key_of_find? htrack).symm
      obtain ⟨hpending, hfinished⟩ := hsome track htrack
      refine ⟨fun hrest => hpending (mem_cons_of_mem _ hrest), ?_⟩
      intro hnot
      exact hfinished fun hmem => hnot ((mem_cons.mp hmem).resolve_left hne)
  · intro k
    refine ⟨fun habsent => habsent, ?_⟩
    intro track htrack
    exact ⟨fun _ => htrack, fun hnot => absurd (mem_of_find? htrack) hnot⟩

/-! ## Lineage -/

/-- This reconciliation has added the hypothesis to the track. -/
def Received (priorTracks : List (EventTrackRevision H)) (hypothesis : EventHypothesis H)
    (track : EventTrackRevision H) : Prop :=
  hypothesis.hypothesisLogicalKey ∈ track.sourceKeys ∧
    ∀ p ∈ priorTracks, p.eventTrackKey = track.eventTrackKey →
      hypothesis.hypothesisLogicalKey ∉ p.sourceKeys

/-- Reconciliation has neither lost nor rewritten lineage, and intervals that were hulls of their
sources still are. -/
structure LineageKept (priorTracks : List (EventTrackRevision H))
    (hypotheses : List (EventHypothesis H)) (currentTracks : List (EventTrackRevision H)) :
    Prop where
  present : ∀ p ∈ priorTracks, ∃ t ∈ currentTracks, t.eventTrackKey = p.eventTrackKey
  ended : ∀ p ∈ priorTracks, p.state.isActive = false → ∀ t ∈ currentTracks,
    t.eventTrackKey = p.eventTrackKey → t = p
  extended : ∀ p ∈ priorTracks, p.state.isActive = true → ∀ t ∈ currentTracks,
    t.eventTrackKey = p.eventTrackKey → t = p ∨
      (p.revisionIndex < t.revisionIndex ∧ Descends p t ∧
        ∀ item ∈ p.sourceHypotheses, item ∈ t.sourceHypotheses)
  once : ∀ hypothesis ∈ hypotheses,
    ∃! t, t ∈ currentTracks ∧ hypothesis.hypothesisLogicalKey ∈ t.sourceKeys
  single : ∀ t ∈ currentTracks, ∀ a ∈ hypotheses, ∀ b ∈ hypotheses,
    Received priorTracks a t → Received priorTracks b t → a = b
  hull : (∀ p ∈ priorTracks, p.IsHull) → ∀ t ∈ currentTracks, t.IsHull
  live : ∀ t ∈ currentTracks, t.state.isLive = true ↔
    ∃ hypothesis ∈ hypotheses, Received priorTracks hypothesis t ∧
      hypothesis.continuesAfterContext = true

section Outcome

variable {policy : EventTrackPolicy} {prior : TrackTable H} {hypotheses : List (EventHypothesis H)}

namespace Assigned

variable {hypothesis : EventHypothesis H} {track : EventTrackRevision H}

variable (h : Assigned policy prior hypothesis track)
include h

theorem mem_sources : hypothesisReference hypothesis ∈ track.sourceHypotheses := by
  rcases h.origin with ⟨p, _, _, _, _, hsources⟩ | ⟨_, _, _, hsources⟩
  · exact (hsources _).mpr (.inl rfl)
  · rw [hsources]
    exact mem_singleton_self _

theorem key_eq (hnew : AllNew prior.rows hypotheses) {a : EventHypothesis H} (ha : a ∈ hypotheses)
    (hkey : a.hypothesisLogicalKey ∈ track.sourceKeys) :
    a.hypothesisLogicalKey = hypothesis.hypothesisLogicalKey := by
  obtain ⟨item, hitem, hsame⟩ := mem_map.mp hkey
  rcases h.origin with ⟨p, hp, _, _, _, hsources⟩ | ⟨_, _, _, hsources⟩
  · rcases (hsources item).mp hitem with rfl | hold
    · exact hsame.symm
    · refine absurd ?_ (hnew.unseen a ha p (mem_of_find? hp))
      rw [← hsame]
      exact mem_map_of_mem hold
  · rw [hsources, mem_singleton] at hitem
    rw [hitem] at hsame
    exact hsame.symm

theorem received (hnew : AllNew prior.rows hypotheses) (hmem : hypothesis ∈ hypotheses) :
    Received prior.rows hypothesis track :=
  ⟨mem_map_of_mem h.mem_sources, fun p hp _ => hnew.unseen hypothesis hmem p hp⟩

theorem isHull (hhull : ∀ p ∈ prior.rows, p.IsHull) : track.IsHull := by
  have hself := h.mem_sources
  rcases h.origin with ⟨p, hp, _, _, hinterval, hsources⟩ | ⟨_, _, hinterval, hsources⟩
  · obtain ⟨hcovers, ⟨first, hfirst, hstart⟩, ⟨last, hlast, hend⟩⟩ :=
      hhull p (mem_of_find? hp)
    refine ⟨?_, ?_, ?_⟩
    · intro item hitem
      rw [hinterval]
      rcases (hsources item).mp hitem with rfl | hold
      · exact ⟨min_le_right _ _, le_max_right _ _⟩
      · obtain ⟨hlower, hupper⟩ := hcovers item hold
        exact ⟨(min_le_left _ _).trans hlower, hupper.trans (le_max_left _ _)⟩
    · rw [hinterval]
      rcases le_total p.interval.startNs hypothesis.interval.startNs with hle | hle
      · exact ⟨first, (hsources first).mpr (.inr hfirst), hstart.trans (min_eq_left hle).symm⟩
      · exact ⟨_, hself, (min_eq_right hle).symm⟩
    · rw [hinterval]
      rcases le_total p.interval.endNs hypothesis.interval.endNs with hle | hle
      · exact ⟨_, hself, (max_eq_right hle).symm⟩
      · exact ⟨last, (hsources last).mpr (.inr hlast), hend.trans (max_eq_left hle).symm⟩
  · refine ⟨?_, ⟨_, hself, by rw [hinterval]; rfl⟩, ⟨_, hself, by rw [hinterval]; rfl⟩⟩
    intro item hitem
    rw [hsources, mem_singleton] at hitem
    rw [hinterval, hitem]
    exact ⟨le_refl _, le_refl _⟩

end Assigned

theorem Closing.same {used : List NodeLogicalKey} {track : EventTrackRevision H}
    (h : Closing used track t) : t.eventTrackKey = track.eventTrackKey ∧
      t.sourceHypotheses = track.sourceHypotheses ∧ t.interval = track.interval := by
  cases h with
  | kept _ => exact ⟨rfl, rfl, rfl⟩
  | ended _ _ next _ interval sources => exact ⟨next.key, sources, interval⟩

variable {a : EventHypothesis H}

theorem Closing.not_source {used : List NodeLogicalKey} {p : EventTrackRevision H}
    (h : Closing used p t) (hnew : AllNew prior.rows hypotheses) (ha : a ∈ hypotheses)
    (hp : p ∈ prior.rows) : a.hypothesisLogicalKey ∉ t.sourceKeys := by
  rw [EventTrackRevision.sourceKeys, h.same.2.1]
  exact hnew.unseen a ha p hp

variable (policy prior hypotheses) in
/-- The state in which `reconcile` builds its result. -/
structure Outcome (used : List NodeLogicalKey) (final : TrackTable H) : Prop where
  length : hypotheses.length = used.length
  nodup : used.Nodup
  given : ∀ i (hi : i < hypotheses.length) (hi' : i < used.length),
    ∃ t, final.find? (used.get ⟨i, hi'⟩) = some t ∧ Assigned policy prior (hypotheses.get ⟨i, hi⟩) t
  others : ∀ key, key ∉ used → (prior.find? key = none → final.find? key = none) ∧
    ∀ p, prior.find? key = some p → ∃ t, final.find? key = some t ∧ Closing used p t

theorem Reconciled.outcome {s s' : ReconcileState H} (h : Reconciled policy prior hypotheses s)
    (hloop : s.current.rows.foldlM closeUnused s = .ok s') :
    Outcome policy prior hypotheses s.usedTrackKeys s'.current := by
  obtain ⟨hlength, hassigned⟩ := forall₂_iff_get.mp h.assigned
  refine ⟨hlength, h.nodup, ?_, ?_⟩
  · intro i hi hi'
    obtain ⟨track, hfind, hgiven⟩ := hassigned i hi hi'
    obtain ⟨t, ht, hclosing⟩ := (closeUnused_loop hloop _).2 track hfind
    cases hclosing with
    | kept _ => exact ⟨track, ht, hgiven⟩
    | ended unused _ _ _ _ _ =>
      rw [key_of_find? hfind] at unused
      exact absurd (get_mem _ _) unused
  · intro key hkey
    rw [← h.untouched key hkey]
    exact closeUnused_loop hloop key

namespace Outcome

variable {used : List NodeLogicalKey} {final : TrackTable H}

variable (h : Outcome policy prior hypotheses used final)
include h

theorem cases (ht : t ∈ final.rows) : (∃ i hi hi', used.get ⟨i, hi'⟩ = t.eventTrackKey ∧
        Assigned policy prior (hypotheses.get ⟨i, hi⟩) t) ∨
      ∃ p, prior.find? t.eventTrackKey = some p ∧ t.eventTrackKey ∉ used ∧ Closing used p t := by
  have hfind := mem_rows_iff.mp ht
  by_cases hkey : t.eventTrackKey ∈ used
  · left
    obtain ⟨⟨i, hi'⟩, hget⟩ := get_of_mem hkey
    have hi : i < hypotheses.length := by rw [h.length]; exact hi'
    obtain ⟨t', ht', hassigned⟩ := h.given i hi hi'
    rw [hget, hfind] at ht'
    cases ht'
    exact ⟨i, hi, hi', hget, hassigned⟩
  · right
    obtain ⟨hnone, hsome⟩ := h.others _ hkey
    cases hprior : prior.find? t.eventTrackKey with
    | none =>
      rw [hnone hprior] at hfind
      cases hfind
    | some p =>
      obtain ⟨t', ht', hclosing⟩ := hsome p hprior
      rw [hfind] at ht'
      cases ht'
      exact ⟨p, rfl, hkey, hclosing⟩

theorem track_of (ha : a ∈ hypotheses) : ∃ t ∈ final.rows, Assigned policy prior a t := by
  obtain ⟨⟨i, hi⟩, rfl⟩ := get_of_mem ha
  obtain ⟨t, ht, hassigned⟩ := h.given i hi (by rw [← h.length]; exact hi)
  exact ⟨t, mem_of_find? ht, hassigned⟩

theorem unique_track
    (hnew : AllNew prior.rows hypotheses) (ha : a ∈ hypotheses) {t' : EventTrackRevision H}
    (ht : t ∈ final.rows) (ht' : t' ∈ final.rows) (hkey : a.hypothesisLogicalKey ∈ t.sourceKeys)
    (hkey' : a.hypothesisLogicalKey ∈ t'.sourceKeys) : t = t' := by
  have hgiven : ∀ u ∈ final.rows, a.hypothesisLogicalKey ∈ u.sourceKeys →
      ∃ i hi hi', used.get ⟨i, hi'⟩ = u.eventTrackKey ∧
        a.hypothesisLogicalKey = (hypotheses.get ⟨i, hi⟩).hypothesisLogicalKey := by
    intro u hu hmem
    rcases h.cases hu with ⟨i, hi, hi', hget, hassigned⟩ | ⟨p, hp, _, hclosing⟩
    · exact ⟨i, hi, hi', hget, hassigned.key_eq hnew ha hmem⟩
    · exact absurd hmem (hclosing.not_source hnew ha (mem_of_find? hp))
  obtain ⟨i, hi, hi₁, hget, hsame⟩ := hgiven t ht hkey
  obtain ⟨j, hj, hj₁, hget', hsame'⟩ := hgiven t' ht' hkey'
  -- the hypotheses at both places have one key, so the places are the same
  have hij : i = j := by
    have hnodup := hnew.distinct
    rw [nodup_iff_injective_get] at hnodup
    have hlt : ∀ {k : Nat}, k < hypotheses.length →
        k < (hypotheses.map (·.hypothesisLogicalKey)).length := by
      intro k hk
      rw [length_map]
      exact hk
    have hfin := @hnodup ⟨i, hlt hi⟩ ⟨j, hlt hj⟩ (by
      simp only [get_eq_getElem, getElem_map]
      exact hsame.symm.trans hsame')
    exact congrArg Fin.val hfin
  subst hij
  exact final.eq_of_key_eq ht ht' (hget.symm.trans hget')

theorem lineageKept (hnew : AllNew prior.rows hypotheses) :
    LineageKept prior.rows hypotheses final.rows := by
  have hprior : ∀ {p t : EventTrackRevision H}, p ∈ prior.rows →
      t.eventTrackKey = p.eventTrackKey → prior.find? t.eventTrackKey = some p := by
    intro p t hp hkey
    rw [hkey]
    exact mem_rows_iff.mp hp
  have hequal : ∀ {a b : EventHypothesis H}, a ∈ hypotheses → b ∈ hypotheses →
      a.hypothesisLogicalKey = b.hypothesisLogicalKey → a = b := fun ha hb =>
    inj_on_of_nodup_map hnew.distinct ha hb
  refine ⟨?_, ?_, ?_, ?_, ?_, ?_, ?_⟩
  · intro p hp
    have hfind := mem_rows_iff.mp hp
    by_cases hkey : p.eventTrackKey ∈ used
    · obtain ⟨⟨i, hi'⟩, hget⟩ := get_of_mem hkey
      obtain ⟨t, ht, _⟩ := h.given i (by rw [h.length]; exact hi') hi'
      rw [hget] at ht
      have hsame := key_of_find? ht
      exact ⟨t, mem_of_find? ht, hsame⟩
    · obtain ⟨t, ht, _⟩ := (h.others _ hkey).2 p hfind
      have hsame := key_of_find? ht
      exact ⟨t, mem_of_find? ht, hsame⟩
  · intro p hp hended t ht hkey
    have hfind := hprior hp hkey
    rcases h.cases ht with ⟨_, _, _, _, hassigned⟩ | ⟨q, hq, _, hclosing⟩
    · rcases hassigned.origin with ⟨q, hq, hactive, _⟩ | ⟨hnone, _⟩
      · rw [hfind] at hq
        cases hq
        rw [hended] at hactive
        cases hactive
      · rw [hfind] at hnone
        cases hnone
    · rw [hfind] at hq
      cases hq
      cases hclosing with
      | kept _ => rfl
      | ended _ hactive _ _ _ _ =>
        rw [hended] at hactive
        cases hactive
  · intro p hp hactive t ht hkey
    have hfind := hprior hp hkey
    rcases h.cases ht with ⟨_, _, _, _, hassigned⟩ | ⟨q, hq, _, hclosing⟩
    · rcases hassigned.origin with ⟨q, hq, _, hdescends, _, hsources⟩ | ⟨hnone, _⟩
      · rw [hfind] at hq
        cases hq
        exact .inr ⟨hdescends.index_lt, hdescends,
          fun item hitem => (hsources item).mpr (.inr hitem)⟩
      · rw [hfind] at hnone
        cases hnone
    · rw [hfind] at hq
      cases hq
      cases hclosing with
      | kept _ => exact .inl rfl
      | ended _ _ next _ _ sources =>
        have hdescends : Descends p t := .single next
        exact .inr ⟨hdescends.index_lt, hdescends, fun item hitem => by rw [sources]; exact hitem⟩
  · intro a ha
    obtain ⟨t, ht, hassigned⟩ := h.track_of ha
    have hkey : a.hypothesisLogicalKey ∈ t.sourceKeys := mem_map_of_mem hassigned.mem_sources
    exact ⟨t, ⟨ht, hkey⟩, fun u hu => h.unique_track hnew ha hu.1 ht hu.2 hkey⟩
  · intro t ht a ha b hb hreceived hreceived'
    rcases h.cases ht with ⟨_, _, _, _, hassigned⟩ | ⟨p, hp, _, hclosing⟩
    · exact hequal ha hb ((hassigned.key_eq hnew ha hreceived.1).trans
        (hassigned.key_eq hnew hb hreceived'.1).symm)
    · exact absurd hreceived.1 (hclosing.not_source hnew ha (mem_of_find? hp))
  · intro hhull t ht
    rcases h.cases ht with ⟨_, _, _, _, hassigned⟩ | ⟨p, hp, _, hclosing⟩
    · exact hassigned.isHull hhull
    · obtain ⟨_, hsources, hinterval⟩ := hclosing.same
      obtain ⟨hcovers, hstarts, hends⟩ := hhull p (mem_of_find? hp)
      refine ⟨?_, ?_, ?_⟩ <;> rw [hsources, hinterval] <;> assumption
  · intro t ht
    rcases h.cases ht with ⟨i, hi, _, _, hassigned⟩ | ⟨p, hp, hunused, hclosing⟩
    · have hmem := get_mem hypotheses ⟨i, hi⟩
      rw [hassigned.live]
      constructor
      · intro hcontinues
        exact ⟨_, hmem, hassigned.received hnew hmem, hcontinues⟩
      · rintro ⟨a, ha, hreceived, hcontinues⟩
        rw [← hequal ha hmem (hassigned.key_eq hnew ha hreceived.1)]
        exact hcontinues
    · constructor
      · intro hlive
        exfalso
        cases hclosing with
        | kept hcase =>
          have hended := hcase.resolve_left hunused
          revert hlive hended
          cases t.state <;> simp [EventTrackState.isLive, EventTrackState.isActive]
        | ended _ _ _ state _ _ =>
          rw [state] at hlive
          cases hlive
      · rintro ⟨a, ha, hreceived, _⟩
        exact absurd hreceived.1 (hclosing.not_source hnew ha (mem_of_find? hp))

end Outcome
end Outcome

theorem LineageKept.of_mem_iff {priorTracks rows rows' : List (EventTrackRevision H)}
    {hypotheses : List (EventHypothesis H)} (h : LineageKept priorTracks hypotheses rows)
    (hmem : ∀ t, t ∈ rows' ↔ t ∈ rows) : LineageKept priorTracks hypotheses rows' := by
  obtain ⟨hpresent, hended, hextended, honce, hsingle, hhull, hlive⟩ := h
  constructor <;> simp only [hmem] <;> assumption

/-- Reconciliation keeps the lineage of every track, provided that none of the
hypotheses has been reconciled before and that the digest tells the identities at
hand apart. -/
theorem reconcile_keeps_lineage {policy : EventTrackPolicy}
    {priorTracks : List (EventTrackRevision H)} {eventProjection : EventProjection H}
    {result : TemporalReconcileResult H}
    (hok : reconcile policy priorTracks eventProjection = .ok result)
    (hnew : AllNew priorTracks eventProjection.hypotheses)
    (hdigest : SeparatesIdentities policy priorTracks eventProjection.hypotheses) :
    LineageKept priorTracks eventProjection.hypotheses result.currentTracks := by
  unfold reconcile at hok
  split at hok
  · rename_i hnodup
    split at hok
    · cases hok
    obtain ⟨s, hloop, hok⟩ := bind_eq_ok.mp hok
    obtain ⟨s', hclose, hok⟩ := bind_eq_ok.mp hok
    have hstart : Reconciled policy (⟨priorTracks, hnodup⟩ : TrackTable H) []
        ⟨⟨priorTracks, hnodup⟩, [], [], [], []⟩ :=
      ⟨.nil, nodup_nil, fun _ _ => rfl⟩
    have hkept := ((reconciled_of_foldlM hnew hdigest hstart hloop).outcome hclose).lineageKept hnew
    refine hkept.of_mem_iff ?_
    intro t
    obtain ⟨_, _, hok⟩ := bind_eq_ok.mp hok
    cases hok
    exact mem_insertionSort _
  · cases hok

/-! ## A projection that comes twice -/

/-- A digest for sample runs: a number as 64 digits. -/
def sampleDigest (n : Nat) : Sha256Digest :=
  let text := toString n
  "".pushn '0' (64 - text.length) ++ text

/-- A digest that tells apart what the sample runs hash: hypotheses by their
start, tracks by their first hypothesis, revisions by their number. -/
def sampleHashing : Hashing where
  semanticSha256
    | .eventHypothesis content => sampleDigest (1000 + content.interval.startNs.toNat)
    | .eventProjection _ _ values => sampleDigest (2000 + values.length)
    | .trackIdentity identity => identity.firstHypothesisSemanticSha256
    | .trackRevision content => sampleDigest (3000 + content.revisionIndex)
    | .temporalReconcile content => sampleDigest (4000 + content.closedTrackKeys.length)
  uuid5 text := text

theorem zero_le_certainty : (0 : ℚ) ≤ 1 := by decide

/-- One observed action. -/
def sampleContent (interval : NanosecondInterval) (continuesAfterContext : Bool) :
    HypothesisContent where
  sourceObservationLogicalKey := "observation:" ++ sampleDigest 0
  sourceObservationSemanticSha256 := sampleDigest 0
  sourceLocalRef := ⟨"action", by decide, by decide⟩
  action := ⟨"grasp", by decide, by decide⟩
  interval := interval
  modelReportedConfidence := none
  actor := none
  object := none
  startConfidence := ⟨1, zero_le_certainty, by decide⟩
  endConfidence := ⟨1, zero_le_certainty, by decide⟩
  startedBeforeContext := true
  continuesAfterContext := continuesAfterContext

/-- The projection of one observed action. -/
def sampleProjection (interval : NanosecondInterval) (continuesAfterContext : Bool) :
    EventProjection sampleHashing where
  sourceObservationLogicalKey := "observation:" ++ sampleDigest 0
  sourceObservationSemanticSha256 := sampleDigest 0
  hypotheses :=
    [{ sampleContent interval continuesAfterContext with
       hypothesisSemanticSha256 := sampleDigest (1000 + interval.startNs.toNat)
       hypothesisLogicalKey :=
         "event-hypothesis-v1:" ++ sampleDigest (1000 + interval.startNs.toNat)
       digest := rfl
       logicalKey := rfl }]
  eventProjectionKey := "observation-event-projection-v1:" ++ sampleDigest 2001
  eventProjectionSemanticSha256 := sampleDigest 2001
  ordered := by
    simp only [isSortedTuples, map_cons, map_nil, insertionSort_cons,
      insertionSort_nil, orderedInsert_nil, beq_self_eq_true]
  digest := rfl
  logicalKey := rfl

/-- An action that goes on after the first segment. -/
def sampleFirst : EventProjection sampleHashing :=
  sampleProjection ⟨10, 20, by decide, by decide, by decide⟩ true

/-- Its end in the second segment. -/
def sampleSecond : EventProjection sampleHashing :=
  sampleProjection ⟨20, 30, by decide, by decide, by decide⟩ false

def sampleTrackPolicy : EventTrackPolicy := ⟨"v1", 0, true⟩

/-- The tracks a reconciliation returns, none if it raises. -/
def currentTracksOf (priorTracks : List (EventTrackRevision sampleHashing))
    (eventProjection : EventProjection sampleHashing) : List (EventTrackRevision sampleHashing) :=
  match reconcile sampleTrackPolicy priorTracks eventProjection with
  | .ok result => result.currentTracks
  | .error _ => []

/-- The first projection comes again after the second has closed its track: the
closed track is replaced by a new open one. -/
theorem reconcile_keeps_lineage_fails :
    ¬ ∀ (policy : EventTrackPolicy) (priorTracks : List (EventTrackRevision sampleHashing))
      (eventProjection : EventProjection sampleHashing)
      (result : TemporalReconcileResult sampleHashing),
      reconcile policy priorTracks eventProjection = .ok result →
      LineageKept priorTracks eventProjection.hypotheses result.currentTracks := by
  intro h
  have hreplay : ∃ result, reconcile sampleTrackPolicy
      (currentTracksOf (currentTracksOf [] sampleFirst) sampleSecond) sampleFirst =
        .ok result ∧ result.currentTracks.map (·.state) = [.opened] := by
    have hstates : (reconcile sampleTrackPolicy
        (currentTracksOf (currentTracksOf [] sampleFirst) sampleSecond) sampleFirst).map
        (fun result => result.currentTracks.map (·.state)) = .ok [.opened] := by
      decide +kernel
    cases hresult : reconcile sampleTrackPolicy
        (currentTracksOf (currentTracksOf [] sampleFirst) sampleSecond) sampleFirst with
    | error message =>
      rw [hresult] at hstates
      cases hstates
    | ok result =>
      rw [hresult] at hstates
      exact ⟨result, rfl, Except.ok.inj hstates⟩
  obtain ⟨result, hok, hstates⟩ := hreplay
  have hkept := h _ _ _ _ hok
  have hprior : (currentTracksOf (currentTracksOf [] sampleFirst) sampleSecond).map
      (·.state) = [.closed] := by decide +kernel
  obtain ⟨p, hp⟩ := exists_mem_of_ne_nil
    (currentTracksOf (currentTracksOf [] sampleFirst) sampleSecond) (by
      intro hnil
      rw [hnil] at hprior
      cases hprior)
  have hclosed : p.state = .closed := by
    have hmem := mem_map_of_mem (f := (·.state)) hp
    rw [hprior, mem_singleton] at hmem
    exact hmem
  obtain ⟨t, ht, hkey⟩ := hkept.present p hp
  have hsame := hkept.ended p hp (by rw [hclosed]; rfl) t ht hkey
  have hmem := mem_map_of_mem (f := (·.state)) ht
  rw [hstates, mem_singleton, hsame, hclosed] at hmem
  cases hmem

/-- The second projection, which is new, extends the open track. -/
theorem reconcile_keeps_lineage_of_second :
    ∃ result, reconcile sampleTrackPolicy (currentTracksOf [] sampleFirst) sampleSecond =
        .ok result ∧
      LineageKept (currentTracksOf [] sampleFirst) sampleSecond.hypotheses
        result.currentTracks ∧ ∀ t ∈ result.currentTracks, t.IsHull := by
  have hreturns : (reconcile sampleTrackPolicy (currentTracksOf [] sampleFirst)
      sampleSecond).isOk = true := by decide +kernel
  cases hresult : reconcile sampleTrackPolicy (currentTracksOf [] sampleFirst) sampleSecond with
  | error message =>
    rw [hresult] at hreturns
    cases hreturns
  | ok result =>
    have hkept := reconcile_keeps_lineage hresult ⟨by decide +kernel, by decide +kernel⟩
      (by unfold SeparatesIdentities; decide +kernel)
    have hcovers : ∀ p ∈ currentTracksOf [] sampleFirst, ∀ item ∈ p.sourceHypotheses,
        p.interval.startNs ≤ item.interval.startNs ∧
          item.interval.endNs ≤ p.interval.endNs := by decide +kernel
    have hstarts : ∀ p ∈ currentTracksOf [] sampleFirst, ∃ item ∈ p.sourceHypotheses,
        item.interval.startNs = p.interval.startNs := by decide +kernel
    have hends : ∀ p ∈ currentTracksOf [] sampleFirst, ∃ item ∈ p.sourceHypotheses,
        item.interval.endNs = p.interval.endNs := by decide +kernel
    exact ⟨result, rfl, hkept, hkept.hull fun p hp => ⟨hcovers p hp, hstarts p hp, hends p hp⟩⟩

end Robata.Perception
