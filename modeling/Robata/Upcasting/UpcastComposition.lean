import Robata.Upcasting.UpcastPaths

/-!
# Acceptance and composition of upcasts

The seals of a graph whose transforms are pure agree with the transforms, whatever was called
before, so that a call depends on its payload alone.
-/

namespace Robata.Upcasting

open Lib List

/-! ## Registration -/

/-- Distinct identifiers and edges, between registered references of one schema. -/
structure Registrable (registry : Registered) (registrations : List UpcasterCatalogEntry) :
    Prop where
  resolves : ∀ r ∈ registrations,
    resolveExact registry r.source = .ok () ∧ resolveExact registry r.target = .ok ()
  schemas : ∀ r ∈ registrations, r.source.schemaId = r.target.schemaId
  ids : (registrations.map (·.upcasterId)).Nodup
  edges : (registrations.map fun r => (r.source, r.target)).Nodup

section Registration

variable {registry : Registered} {registrations before rest : List UpcasterCatalogEntry}

theorem not_mem_of_nodup_append {β : Type} {f : UpcasterCatalogEntry → β}
    {r : UpcasterCatalogEntry} (h : ((before ++ r :: rest).map f).Nodup) : f r ∉ before.map f := by
  rw [map_append, map_cons] at h
  exact fun hmem => disjoint_of_nodup_append h hmem mem_cons_self

theorem Registrable.completes (h : Registrable registry registrations)
    (hsplit : before ++ rest = registrations) :
    rest.foldlM (checkRegistration registry) before = .ok registrations := by
  induction rest generalizing before with
  | nil =>
    rw [append_nil] at hsplit
    exact congrArg Except.ok hsplit
  | cons r rest ih =>
    have hmem : r ∈ registrations := hsplit ▸ mem_append_right _ mem_cons_self
    obtain ⟨hsource, htarget⟩ := h.resolves r hmem
    have hid := not_mem_of_nodup_append (hsplit ▸ h.ids)
    have hedge := not_mem_of_nodup_append (hsplit ▸ h.edges)
    have hstep : checkRegistration registry before r = .ok (before ++ [r]) := by
      unfold checkRegistration
      rw [hsource, ok_bind, htarget, ok_bind, if_neg (not_not.mpr (h.schemas r hmem)), if_neg hid,
        if_neg hedge]
    rw [foldlM_cons, hstep, ok_bind]
    exact ih ((append_assoc _ _ _).trans hsplit)

/-- A cycle is refused first, then two walks between two references, and then implementations. -/
theorem Registrable.validateAndIndex {J : Type} (h : Registrable registry registrations)
    (implementations : Dict String (UpcasterImplementation J)) :
    ((edgeGraph registrations).Cyclic ∧
      ∃ ref, validateAndIndex registrations implementations registry = .error (.cycle ref)) ∨
    (¬ (edgeGraph registrations).Cyclic ∧ (∃ a, (edgeGraph registrations).Forks a) ∧
      ∃ a b, validateAndIndex registrations implementations registry = .error (.ambiguity a b)) ∨
    ¬ (edgeGraph registrations).Cyclic ∧ (∀ a, ¬ (edgeGraph registrations).Forks a) ∧
      validateAndIndex registrations implementations registry =
        checkImplementations registrations implementations := by
  have hnodup : registrations.Nodup := h.ids.of_map
  unfold Upcasting.validateAndIndex
  rw [h.completes rfl, ok_bind]
  rcases @rejectCycles_spec registrations with
    ⟨hcyclic, ref, herror⟩ | ⟨hacyclic, hok⟩
  · rw [herror]
    exact .inl ⟨hcyclic, ref, rfl⟩
  · rw [hok, ok_bind]
    rcases rejectAmbiguousPaths_spec hnodup with ⟨hforks, a, b, herror⟩ | ⟨hunique, hok⟩
    · rw [herror]
      exact .inr (.inl ⟨hacyclic, hforks, a, b, rfl⟩)
    · rw [hok, ok_bind]
      exact .inr (.inr ⟨hacyclic, hunique, rfl⟩)

/-- The checks of the implementations raise neither for a cycle nor for an ambiguity. -/
theorem checkImplementations_error {J : Type}
    {implementations : Dict String (UpcasterImplementation J)} {e : UpcastError}
    (h : checkImplementations registrations implementations = .error e) :
    (∀ ref, e ≠ .cycle ref) ∧ ∀ a b, e ≠ .ambiguity a b := by
  unfold checkImplementations at h
  dsimp only at h
  split at h
  · cases h
    exact ⟨nofun, nofun⟩
  · obtain ⟨entry, -, hentry⟩ := exists_of_forM_error h
    unfold checkImplementation at hentry
    dsimp only at hentry
    split at hentry
    · cases hentry
      exact ⟨nofun, nofun⟩
    · split at hentry
      · cases hentry
      · split at hentry
        · cases hentry
          exact ⟨nofun, nofun⟩
        · split at hentry
          · cases hentry
            exact ⟨nofun, nofun⟩
          · cases hentry

end Registration

/-! ## Execution -/

namespace SchemaUpcasterGraph

variable {J : Type} (graph : SchemaUpcasterGraph J)

/-- A payload that can be encoded and that validates. -/
def Valid (ref : SchemaRef) (payload : J) : Prop :=
  (∃ text, graph.rules.canonicalJson payload = .ok text) ∧
    graph.rules.validatePinned ref payload = .ok ()

/-- Each pinned transform is a pure function of the JSON payload, and its output validates.  The
digests of payloads do not collide. -/
structure PureTransforms : Prop where
  pinned : ∀ r ∈ graph.registrations, ∃ implementation,
    graph.implementations.get? r.upcasterId = some implementation ∧
      ∀ payload, graph.Valid r.source payload →
        graph.Valid r.target (implementation.transform payload)
  functional : ∀ upcasterId implementation,
    graph.implementations.get? upcasterId = some implementation → ∀ p q text,
      graph.rules.canonicalJson p = .ok text → graph.rules.canonicalJson q = .ok text →
        graph.rules.canonicalJson (implementation.transform p) =
          graph.rules.canonicalJson (implementation.transform q)
  digests : ∀ p q text text', graph.rules.canonicalJson p = .ok text →
    graph.rules.canonicalJson q = .ok text' → graph.rules.sha256 text = graph.rules.sha256 text' →
      text = text'

/-- What a registration makes of a payload. -/
def transformed (payload : J) (registration : UpcasterCatalogEntry) : J :=
  match graph.implementations.get? registration.upcasterId with
  | some implementation => implementation.transform payload
  | none => payload

/-- Every seal holds the digest of what the transform makes of the payload. -/
def Sealed (seals : Seals) : Prop :=
  ∀ upcasterId implementation payload text digest,
    graph.implementations.get? upcasterId = some implementation →
    graph.rules.canonicalJson payload = .ok text →
    seals.get? (upcasterId, graph.rules.sha256 text) = some digest →
      ∃ output, graph.rules.canonicalJson (implementation.transform payload) = .ok output ∧
        digest = graph.rules.sha256 output

variable {graph} {seals : Seals} {payload : J} {r : UpcasterCatalogEntry}
  {E : UpcastError → Seals → Prop}

theorem wp_canonical {Q : String → Seals → Prop} : (graph.canonical payload).wp Q E seals ↔
    (∀ text, graph.rules.canonicalJson payload = .ok text → Q text seals) ∧
      ∀ m, graph.rules.canonicalJson payload = .error m → E (.canonicalization m) seals := by
  unfold canonical
  cases graph.rules.canonicalJson payload <;> simp [Except.mapError]

theorem wp_validatePinned {ref : SchemaRef} {Q : Unit → Seals → Prop} :
    (graph.validatePinned ref payload).wp Q E seals ↔
      (graph.rules.validatePinned ref payload = .ok () → Q () seals) ∧
        ∀ m, graph.rules.validatePinned ref payload = .error m → E (.invalidPayload m) seals := by
  unfold validatePinned
  rw [Method.wp_ofExcept]
  cases graph.rules.validatePinned ref payload with
  | error m => simp [Except.mapError]
  | ok u =>
    simp only [Except.mapError, reduceCtorEq, false_implies, implies_true, and_true]
    exact ⟨fun h _ => h () trivial, fun h _ _ => h trivial⟩

theorem Sealed.set (h : graph.Sealed seals) (hpure : graph.PureTransforms)
    {implementation : UpcasterImplementation J} {upcasterId text output : String}
    (hget : graph.implementations.get? upcasterId = some implementation)
    (htext : graph.rules.canonicalJson payload = .ok text)
    (houtput : graph.rules.canonicalJson (implementation.transform payload) = .ok output) :
    graph.Sealed (seals.set (upcasterId, graph.rules.sha256 text) (graph.rules.sha256 output)) := by
  intro id implementation' other otherText digest hget' hother hseal
  rw [Dict.get?_set] at hseal
  split at hseal
  · rename_i hkey
    obtain ⟨rfl, hdigest⟩ := Prod.mk.inj hkey
    obtain rfl := Option.some.inj (hget'.symm.trans hget)
    rw [hpure.digests _ _ _ _ hother htext hdigest] at hother
    exact ⟨output, (hpure.functional id implementation' hget' _ _ _ hother htext).trans houtput,
      (Option.some.inj hseal).symm⟩
  · exact h id implementation' other otherText digest hget' hother hseal

theorem checkDeterminismSeal_wp (hpure : graph.PureTransforms)
    {implementation : UpcasterImplementation J} {text output : String}
    (hget : graph.implementations.get? r.upcasterId = some implementation)
    (htext : graph.rules.canonicalJson payload = .ok text)
    (houtput : graph.rules.canonicalJson (implementation.transform payload) = .ok output)
    (hseals : graph.Sealed seals) :
    (graph.checkDeterminismSeal r payload (implementation.transform payload)).wp
      (fun _ => graph.Sealed) E seals := by
  -- a seal that is there holds what the transform gives again
  have hexpected : (seals.get? (r.upcasterId, graph.rules.sha256 text)).getD
      (graph.rules.sha256 output) = graph.rules.sha256 output := by
    cases hseal : seals.get? (r.upcasterId, graph.rules.sha256 text) with
    | none => rfl
    | some digest =>
      obtain ⟨output', houtput', rfl⟩ := hseals _ _ _ _ _ hget htext hseal
      rw [Except.ok.inj (houtput'.symm.trans houtput), Option.getD_some]
  have hset := hseals.set hpure hget htext houtput
  unfold checkDeterminismSeal
  simp [wp_canonical, htext, houtput, hexpected, hset]

/-- A registration is executed unless its payload is not valid. -/
theorem executeRegistration_wp (hpure : graph.PureTransforms) (hr : r ∈ graph.registrations)
    (hseals : graph.Sealed seals) :
    (graph.executeRegistration payload r).wp
      (fun output s => graph.Sealed s ∧ output = graph.transformed payload r ∧
        graph.Valid r.target output)
      (fun _ s => graph.Sealed s ∧ ¬ graph.Valid r.source payload) seals := by
  obtain ⟨implementation, hget, hvalid⟩ := hpure.pinned r hr
  have htransformed : graph.transformed payload r = implementation.transform payload := by
    unfold transformed
    rw [hget]
  have hraise : ¬ graph.Valid r.target (implementation.transform payload) →
      ¬ graph.Valid r.source payload := mt (hvalid payload)
  unfold executeRegistration
  rw [hget, htransformed]
  dsimp only
  rw [Method.wp_bind, wp_canonical]
  refine ⟨fun text htext => ?_, fun m hm => ⟨hseals, fun h => ?_⟩⟩
  · rw [Method.wp_bind, wp_canonical]
    refine ⟨fun output houtput => ?_, fun m hm => ⟨hseals, hraise fun h => ?_⟩⟩
    · rw [Method.wp_bind, wp_canonical]
      refine ⟨fun output' houtput' => ?_, fun m hm => by cases hm.symm.trans houtput⟩
      rw [Except.ok.inj (houtput'.symm.trans houtput), Method.wp_bind, Method.wp_raiseIf]
      refine ⟨fun h => absurd rfl (of_decide_eq_true h), fun _ => ?_⟩
      rw [Method.wp_bind, wp_validatePinned]
      refine ⟨fun hpinned => ?_, fun m hm => ⟨hseals, hraise fun h => ?_⟩⟩
      · rw [Method.wp_bind]
        exact Method.wp_mono (checkDeterminismSeal_wp hpure hget htext houtput hseals)
          (fun _ _ hs => ⟨hs, rfl, ⟨output, houtput⟩, hpinned⟩) fun _ _ h => h
      · cases hm.symm.trans h.2
    · obtain ⟨⟨output, houtput⟩, -⟩ := h
      cases hm.symm.trans houtput
  · obtain ⟨⟨text, htext⟩, -⟩ := h
    cases hm.symm.trans htext

theorem executePath_wp (hpure : graph.PureTransforms) {path : List UpcasterCatalogEntry} :
    ∀ {a b : SchemaRef} {payload : J} {seals : Seals},
      (edgeGraph graph.registrations).IsWalk a b path → graph.Sealed seals →
      (path.foldlM graph.executeRegistration payload : Method Seals UpcastError J).wp
        (fun output s => graph.Sealed s ∧ output = path.foldl graph.transformed payload ∧
          (graph.Valid a payload → graph.Valid b output))
        (fun _ s => graph.Sealed s ∧ ¬ graph.Valid a payload) seals := by
  induction path with
  | nil =>
    intro a b payload seals hwalk hseals
    exact ⟨hseals, rfl, fun h => hwalk ▸ h⟩
  | cons r path ih =>
    rintro a b payload seals ⟨hr, rfl, hwalk⟩ hseals
    rw [foldlM_cons, Method.wp_bind]
    refine Method.wp_mono (executeRegistration_wp hpure hr hseals) ?_ fun _ _ h => h
    rintro _ s ⟨hs, rfl, hvalid⟩
    refine Method.wp_mono (ih hwalk hs) ?_ fun _ s' ⟨_, hnot⟩ => absurd hvalid hnot
    rintro _ s' ⟨hs', rfl, hlast⟩
    exact ⟨hs', rfl, fun _ => hlast hvalid⟩

theorem upcast_wp (hpure : graph.PureTransforms) (source target : SchemaRef) (payload : J)
    (hseals : graph.Sealed seals) :
    (graph.upcast source target payload).wp
      (fun projection s => graph.Sealed s ∧ ∃ path,
        resolvePath graph.registrations graph.registry source target = .ok path ∧
          projection.payload = path.foldl graph.transformed payload ∧
            (graph.Valid source payload → graph.Valid target projection.payload))
      (fun _ s => graph.Sealed s ∧ ¬ ((∃ path,
        resolvePath graph.registrations graph.registry source target = .ok path) ∧
          graph.Valid source payload)) seals := by
  unfold upcast
  rw [Method.wp_bind, Method.wp_ofExcept]
  refine ⟨fun path hpath => ?_, fun e he => ⟨hseals, fun ⟨⟨path, hpath⟩, _⟩ => ?_⟩⟩
  · rw [Method.wp_bind, wp_validatePinned]
    refine ⟨fun hpinned => ?_, fun m hm => ⟨hseals, fun ⟨_, h⟩ => by cases hm.symm.trans h.2⟩⟩
    rw [Method.wp_bind, wp_canonical]
    refine ⟨fun text htext => ?_, fun m hm => ⟨hseals, fun ⟨_, h⟩ => ?_⟩⟩
    · rw [Method.wp_bind]
      refine Method.wp_mono (executePath_wp hpure (isWalk_of_resolvePath hpath) hseals) ?_ ?_
      · rintro output s ⟨hs, houtput, hvalid⟩
        exact ⟨hs, path, hpath, houtput, hvalid⟩
      · rintro e s ⟨hs, hnot⟩
        exact ⟨hs, fun ⟨_, h⟩ => hnot h⟩
    · obtain ⟨⟨text, htext⟩, -⟩ := h
      cases hm.symm.trans htext
  · cases he.symm.trans hpath

theorem upcast_returns (hpure : graph.PureTransforms) {source target : SchemaRef}
    {path : List UpcasterCatalogEntry}
    (hpath : resolvePath graph.registrations graph.registry source target = .ok path)
    (hvalid : graph.Valid source payload) (hseals : graph.Sealed seals) :
    ∃ projection seals', graph.upcast source target payload seals = (.ok projection, seals') ∧
      projection.payload = path.foldl graph.transformed payload ∧
        graph.Valid target projection.payload := by
  obtain ⟨hok, herror⟩ := Method.wp_iff.mp (upcast_wp hpure source target payload hseals)
  rcases hcall : graph.upcast source target payload seals with ⟨projection | projection, seals'⟩
  · exact absurd ⟨⟨path, hpath⟩, hvalid⟩ (herror _ _ hcall).2
  · obtain ⟨-, path', hpath', hpayload, htarget⟩ := hok _ _ hcall
    obtain rfl := Except.ok.inj (hpath'.symm.trans hpath)
    exact ⟨projection, seals', rfl, hpayload, htarget hvalid⟩

/-! ## Calls in sequence -/

/-- The seals after some calls of `upcast` on a new graph. -/
def sealsAfter (graph : SchemaUpcasterGraph J) (calls : List (SchemaRef × SchemaRef × J)) : Seals :=
  calls.foldl (fun seals call => (graph.upcast call.1 call.2.1 call.2.2 seals).2) KeyedTable.empty

theorem sealed_sealsAfter (hpure : graph.PureTransforms)
    (calls : List (SchemaRef × SchemaRef × J)) : graph.Sealed (graph.sealsAfter calls) := by
  unfold sealsAfter
  have hempty : graph.Sealed KeyedTable.empty := fun _ _ _ _ _ _ _ h => by cases h
  induction calls using reverseRecOn with
  | nil => exact hempty
  | append_singleton calls call ih =>
    rw [foldl_append]
    exact Method.wp_const.mp (Method.wp_mono (upcast_wp hpure call.1 call.2.1 call.2.2 ih)
      (fun _ _ h => h.1) fun _ _ h => h.1)

/-- Upcasting along a path is upcasting along its parts, whatever was called before. -/
def UpcastsCompose (graph : SchemaUpcasterGraph J) : Prop :=
  ∀ a b c p q payload before₁ before₂ before₃,
    resolvePath graph.registrations graph.registry a b = .ok p →
    resolvePath graph.registrations graph.registry b c = .ok q → graph.Valid a payload →
    ∃ first second direct : UpcastProjection J,
      (graph.upcast a b payload (graph.sealsAfter before₁)).1 = .ok first ∧
      (graph.upcast b c first.payload (graph.sealsAfter before₂)).1 = .ok second ∧
      (graph.upcast a c payload (graph.sealsAfter before₃)).1 = .ok direct ∧
      direct.payload = second.payload

theorem upcastsCompose (hpaths : PathsResolved graph.registrations graph.registry)
    (hpure : graph.PureTransforms) : graph.UpcastsCompose := by
  intro a b c p q payload before₁ before₂ before₃ hp hq hvalid
  obtain ⟨first, _, hfirst, hpayload, hvalid'⟩ :=
    upcast_returns hpure hp hvalid (sealed_sealsAfter hpure before₁)
  obtain ⟨second, _, hsecond, hpayload', -⟩ :=
    upcast_returns hpure hq hvalid' (sealed_sealsAfter hpure before₂)
  obtain ⟨direct, _, hdirect, hpayload'', -⟩ := upcast_returns hpure
    (hpaths.concatenates a b c p q hp hq) hvalid (sealed_sealsAfter hpure before₃)
  refine ⟨first, second, direct, congrArg Prod.fst hfirst, congrArg Prod.fst hsecond,
    congrArg Prod.fst hdirect, ?_⟩
  rw [hpayload'', hpayload', hpayload, foldl_append]

end SchemaUpcasterGraph

def windowRef (version : String) : SchemaRef :=
  ⟨"window", version, "artifact-" ++ version, "sha256-" ++ version⟩

def windowRefs : List SchemaRef := [windowRef "1.0", windowRef "1.1", windowRef "2.0"]

theorem windowRefs_nodup : (windowRefs.map SchemaRef.key).Nodup := by decide

def windowRegistry : Registered := ⟨windowRefs, windowRefs_nodup⟩

def toNext : UpcasterCatalogEntry :=
  ⟨"window-1", windowRef "1.0", windowRef "1.1", "code-1", "runtime-1"⟩

def toLast : UpcasterCatalogEntry :=
  ⟨"window-2", windowRef "1.1", windowRef "2.0", "code-2", "runtime-2"⟩

def sampleTransforms : Dict String (UpcasterImplementation String) :=
  Dict.set (Dict.set KeyedTable.empty "window-1" ⟨"window-1", "code-1", "runtime-1", (· ++ "+")⟩)
    "window-2" ⟨"window-2", "code-2", "runtime-2", (· ++ "*")⟩

def sampleRules : PayloadRules String where
  canonicalJson := .ok
  sha256 := ("sha256:" ++ ·)
  validatePinned := fun _ _ => .ok ()
  chainDigest := fun registration => "sha256:" ++ registration.upcasterId

def sampleGraph : SchemaUpcasterGraph String :=
  ⟨windowRegistry, [toNext, toLast], sampleTransforms, sampleRules⟩

theorem sampleGraph_registrable : Registrable windowRegistry [toNext, toLast] where
  resolves := by
    simp only [forall_mem_cons, not_mem_nil, false_implies, implies_true, and_true]
    exact ⟨⟨rfl, rfl⟩, rfl, rfl⟩
  schemas := by decide
  ids := by decide
  edges := by decide

theorem sampleGraph_pure : sampleGraph.PureTransforms where
  pinned := by
    have hvalid : ∀ ref payload, sampleGraph.Valid ref payload := fun _ payload =>
      ⟨⟨payload, rfl⟩, rfl⟩
    refine forall_mem_cons.mpr ⟨⟨_, rfl, fun _ _ => hvalid _ _⟩, forall_mem_singleton.mpr ?_⟩
    exact ⟨_, rfl, fun _ _ => hvalid _ _⟩
  functional := fun _ implementation _ p q text hp hq =>
    congrArg (fun payload => Except.ok (implementation.transform payload))
      ((Except.ok.inj hp).trans (Except.ok.inj hq).symm)
  digests := fun p q text text' _ _ h => by
    simpa [sampleGraph, sampleRules] using h

theorem sampleGraph_accepted : validateAndIndex [toNext, toLast] sampleTransforms windowRegistry =
    .ok () := rfl

/-- A second way from the first version to the last one. -/
def shortcut : UpcasterCatalogEntry :=
  ⟨"window-3", windowRef "1.0", windowRef "2.0", "code-3", "runtime-3"⟩

example : validateAndIndex [toNext, toLast, shortcut] sampleTransforms windowRegistry =
    .error (.ambiguity (windowRef "1.0") (windowRef "2.0")) := rfl

end Robata.Upcasting
